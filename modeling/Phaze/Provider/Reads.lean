import Phaze.Provider.Persistence

set_option autoImplicit false

/-!
# What the stored reads record

Every call that stores something appends one read of its object. `Entry` is what a call stored, in the order of
the calls.
-/

namespace Phaze.Provider

open Guards Keyset

-- What makes two observations of an object equal; the parent is the one the call named.
structure Reading (Rest : Type) where
  parserVersion : String
  revision : Option String
  revisionScope : RevisionScope
  status : ObservationStatus
  payload : Payload Rest
  parent : Option Uuid
deriving DecidableEq

structure Entry (Rest : Type) where
  object : Uuid
  reading : Reading Rest
  observation : Uuid
  created : Bool

section Runs

variable {Rest Digest : Type} [DecidableEq Rest] [DecidableEq Digest] (codec : Codec Rest Digest)

omit [DecidableEq Rest] in
def Storing.reading (storing : Storing Rest) : Reading Rest where
  parserVersion := storing.parserVersion
  revision := storing.revision
  revisionScope := storing.revisionScope
  status := storing.status
  payload := storing.payload
  parent := storing.parentId

-- A call with the ids it would draw for a new object and a new observation.
structure Request (Rest : Type) where
  call : Call Rest
  objectId : Uuid
  observationId : Uuid

structure History (Rest Digest : Type) where
  db : Database Rest Digest
  entries : List (Entry Rest)

def History.start (files : List Uuid) : History Rest Digest where
  db := { files := files, objects := [], observations := [], reads := [] }
  entries := []

def serve (history : History Rest Digest) (request : Request Rest) : History Rest Digest :=
  match perform codec history.db request.call request.objectId request.observationId with
  | .error _ => history
  | .ok (db, storing, stored) =>
      { db := db
        entries := history.entries ++
          [{ object := stored.source.id
             reading := storing.reading
             observation := stored.observation.id
             created := !stored.reused }] }

def serveAll (history : History Rest Digest) (requests : List (Request Rest)) : History Rest Digest :=
  requests.foldl (serve codec) history

omit [DecidableEq Rest] [DecidableEq Digest] in
def History.entriesOf (history : History Rest Digest) (object : Uuid) : List (Entry Rest) :=
  history.entries.filter fun entry => entry.object = object

-- Whether an observation holds what a call stored.
structure Names (observation : ProviderSourceObservation Rest Digest) (entry : Entry Rest) : Prop where
  id : observation.id = entry.observation
  object : observation.objectId = entry.object
  parserVersion : observation.parserVersion = entry.reading.parserVersion
  revision : observation.revision = entry.reading.revision
  revisionScope : observation.revisionScope = entry.reading.revisionScope
  status : observation.status = entry.reading.status
  payload : observation.payload = entry.reading.payload
  parent : ∀ parent, entry.reading.parent = some parent → observation.parentId = some parent

/-! ## What one call does -/

variable {codec} {db next : Database Rest Digest}

omit [DecidableEq Rest] in
theorem inBucket_mem {identity : SourceIdentity} {source : ProviderSourceObject Digest}
    (found : inBucket codec db identity = some source) : source ∈ db.objects := by
  unfold inBucket at found
  simp only at found
  split at found
  next row ended =>
    cases found
    obtain ⟨-, other, member, visited⟩ := walk_stop ended
    split at visited
    · cases visited
      exact (List.mem_filter.mp member).1
    · cases visited
  · cases found

theorem reusable_some {storing : Storing Rest} {digest : Digest} {object : Uuid}
    {row : ProviderSourceObservation Rest Digest} (found : reusable db storing digest object = some row) :
    row ∈ db.observations ∧ alike storing digest object row = true ∧ row.payload = storing.payload := by
  unfold reusable at found
  split at found
  next other ended =>
    cases found
    obtain ⟨-, other, member, visited⟩ := walk_stop ended
    split at visited
    next same =>
      cases visited
      exact ⟨(List.mem_filter.mp member).1, (List.mem_filter.mp member).2, same⟩
    · cases visited
  · cases found

theorem reusable_none {storing : Storing Rest} {digest : Digest} {object : Uuid}
    (apart : (db.observations.map (·.id)).Nodup) (missed : reusable db storing digest object = none) :
    ∀ row ∈ db.observations, alike storing digest object row = true → row.payload ≠ storing.payload := by
  unfold reusable at missed
  split at missed
  · cases missed
  next done ended =>
    intro row member same
    refine walk_covers (motive := fun _ row => row.payload ≠ storing.payload) ?_ ?_ ended row
      (List.mem_filter.mpr ⟨member, same⟩)
    · intro first one second other equal
      exact List.inj_on_of_nodup_map apart (List.mem_filter.mp one).1 (List.mem_filter.mp other).1 equal
    · intro _ row _ _ visited
      split at visited
      · cases visited
      next differs => exact ⟨differs, fun _ known => known⟩

omit [DecidableEq Digest] in
-- A claim of the revision with another text makes the new observation a conflict.
theorem attribution_conflicts {storing : Storing Rest} {object : Uuid} (revision : String)
    (apart : (db.observations.map (·.id)).Nodup) (claimed : storing.revision = some revision)
    (full : storing.revisionScope = .full) (snapshot : storing.snapshot = true)
    {row : ProviderSourceObservation Rest Digest} (member : row ∈ db.observations)
    (rival : claims object revision row = true) (differs : row.payload ≠ storing.payload)
    (text : row.decodedText ≠ storing.decodedText) :
    (attribution db storing object).conflictWith ≠ none := by
  unfold attribution
  simp only [claimed, snapshot, full, decide_true, Bool.and_self, if_true]
  split
  next final ended =>
    refine walk_covers (motive := fun state row => row.payload ≠ storing.payload →
      row.decodedText ≠ storing.decodedText → state.conflictWith ≠ none) ?_ ?_ ended row
      (List.mem_filter.mpr ⟨member, rival⟩) differs text
    · intro first one second other equal
      have same : first.id = second.id := congrArg (fun pair => (ofLex pair).2) equal
      exact List.inj_on_of_nodup_map apart (List.mem_filter.mp one).1 (List.mem_filter.mp other).1 same
    · intro state row next _ visited
      cases visited
      unfold weigh
      split
      next same => exact ⟨fun differs => absurd same differs, fun _ known => known⟩
      · split
        · exact ⟨by simp, by simp⟩
        next agrees =>
          simp only [not_or, not_not] at agrees
          split
          · exact ⟨fun _ text => absurd agrees.1 text, fun _ known => known⟩
          · exact ⟨fun _ text => absurd agrees.1 text, fun _ known => known⟩
  next result _ => exact result.elim

omit [DecidableEq Digest] in
-- A parent that the call names is never replaced.
theorem attribution_parent {storing : Storing Rest} {object parent : Uuid} (named : storing.parentId = some parent) :
    (attribution db storing object).parentId = some parent := by
  unfold attribution
  cases storing.revision with
  | none => exact named
  | some revision =>
    simp only
    split
    · split
      next final ended =>
        refine walk_keeps (motive := fun state => state.parentId = some parent) ?_ named ended
        intro state row next _ kept visited
        cases visited
        simp only [weigh, kept, reduceCtorEq, and_false, if_false]
        split
        · exact kept
        · split
          · rfl
          · exact kept
      next result _ => exact result.elim
    · exact named

-- The row of the object, which a first call inserts.
def Opened (db mid : Database Rest Digest) (source : ProviderSourceObject Digest) : Prop :=
  (mid = db ∧ source ∈ db.objects) ∨
    (mid = { db with objects := db.objects ++ [source] } ∧ db.object source.id = none ∧ source.readSeq = 0)

omit [DecidableEq Rest] in
theorem resolveSource_ok {identity : SourceIdentity} {file : Option Uuid} {channel : Option Channel} {objectId : Uuid}
    {source : ProviderSourceObject Digest}
    (resolved : resolveSource codec db identity file channel objectId = .ok (next, source)) : Opened db next source := by
  unfold resolveSource bound at resolved
  simp only [bind_require] at resolved
  obtain ⟨-, -, -, resolved⟩ := resolved
  split at resolved
  next row found =>
    simp only [bind_require, pure, Except.pure, Except.ok.injEq, Prod.mk.injEq] at resolved
    obtain ⟨-, rfl, rfl⟩ := resolved
    exact .inl ⟨rfl, inBucket_mem found⟩
  next missed =>
    unfold insertObject at resolved
    simp only [bind_require, pure, Except.pure, Except.ok.injEq, Prod.mk.injEq, Option.isNone_iff_eq_none] at resolved
    obtain ⟨free, rfl, rfl⟩ := resolved
    exact .inr ⟨rfl, free, rfl⟩

-- What `_store` does to the rows: one read more, and the observation where none could be reused.
inductive Lands (codec : Codec Rest Digest) (mid : Database Rest Digest) (storing : Storing Rest) (text : String)
    (source : ProviderSourceObject Digest) : Database Rest Digest → StoredObservation Rest Digest → Prop where
  | reused {row : ProviderSourceObservation Rest Digest} {conflict : Bool}
      (member : row ∈ mid.observations)
      (same : alike storing (codec.contentDigest text) source.id row = true)
      (payload : row.payload = storing.payload) :
      Lands codec mid storing text source (insertRead (advance mid source.id) source row.id)
        { source := source, observation := row, reused := true, conflict := conflict }
  | created {observationId : Uuid} {conflict : Bool} (attributed : Attribution)
      (weighed : attributed = attribution mid storing source.id)
      (missed : reusable mid storing (codec.contentDigest text) source.id = none)
      (free : mid.observation observationId = none) :
      Lands codec mid storing text source
        (insertRead
          { advance mid source.id with
            observations := mid.observations ++
              [observationOf storing (codec.contentDigest text) source.id observationId attributed] }
          source observationId)
        { source := source
          observation := observationOf storing (codec.contentDigest text) source.id observationId attributed
          reused := false
          conflict := conflict }

theorem retain_lands {mid : Database Rest Digest} {storing : Storing Rest} {text : String}
    {source : ProviderSourceObject Digest} {observationId : Uuid} {stored : StoredObservation Rest Digest}
    (retained : retain codec mid storing text source observationId = .ok (next, stored)) :
    Lands codec mid storing text source next stored := by
  unfold retain at retained
  simp only at retained
  split at retained
  next row found =>
    cases retained
    obtain ⟨member, same, payload⟩ := reusable_some found
    exact .reused member same payload
  next missed =>
    unfold insertObservation at retained
    simp only [bind_ok, pure, Except.pure, Except.ok.injEq] at retained
    obtain ⟨_, ⟨_, free, rfl⟩, same⟩ := retained
    cases same
    exact .created _ rfl missed (Option.isNone_iff_eq_none.mp (require_ok.mp free))

theorem perform_ok {call : Call Rest} {objectId observationId : Uuid} {storing : Storing Rest}
    {stored : StoredObservation Rest Digest}
    (performed : perform codec db call objectId observationId = .ok (next, storing, stored)) :
    ∃ text mid source, call.storing = .ok storing ∧ codec.serialize storing.payload = some text ∧
      Opened db mid source ∧ Lands codec mid storing text source next stored := by
  unfold perform store bound at performed
  simp only [bind_ok, pure, Except.pure, Except.ok.injEq, Prod.mk.injEq, Prod.exists] at performed
  obtain ⟨storing, passed, next, stored, ⟨_, -, _, -, _, -, text, serialized, _, -, mid, source, resolved, _, -, retained⟩,
    rfl, rfl, rfl⟩ := performed
  refine ⟨text, mid, source, passed, ?_, resolveSource_ok resolved, retain_lands retained⟩
  cases encoded : codec.serialize storing.payload with
  | none => simp [encoded] at serialized
  | some other => simpa [encoded] using serialized

/-! ## What is accepted -/

-- A remote call within the bounds that draws ids nobody has, of a source that is not bound elsewhere.
structure Storable (codec : Codec Rest Digest) (db : Database Rest Digest) (storing : Storing Rest) (objectId observationId : Uuid) :
    Prop where
  revision : bounded maxRevisionBytes storing.revision = true
  decodedText : bounded maxTextBytes storing.decodedText = true
  parserVersion : bounded 512 (some storing.parserVersion) = true
  nativeId : bounded maxNativeBytes (some storing.identity.nativeId) = true
  payload : ∃ text, codec.serialize storing.payload = some text ∧ text.utf8ByteSize ≤ maxPayloadBytes
  remote : storing.channel = some .remote ∧ storing.sourceFileId = none ∧ storing.parentId = none
  unbound : ∀ row, inBucket codec db storing.identity = some row → row.originalFileId = none ∧ row.channel = some .remote
  objectId : db.object objectId = none
  observationId : db.observation observationId = none

variable {storing : Storing Rest} {objectId observationId : Uuid}

omit [DecidableEq Rest] [DecidableEq Digest] in
theorem insertObject_accepts {source : ProviderSourceObject Digest} (free : db.object source.id = none) :
    insertObject db source = .ok ({ db with objects := db.objects ++ [source] }, source) := by
  rw [insertObject, free]
  rfl

omit [DecidableEq Rest] in
theorem Storable.resolves (storable : Storable codec db storing objectId observationId) :
    ∃ mid source, resolveSource codec db storing.identity none (some .remote) objectId = .ok (mid, source) ∧
      mid.observations = db.observations := by
  unfold resolveSource Provider.bound
  cases found : inBucket codec db storing.identity with
  | some row =>
    obtain ⟨file, channel⟩ := storable.unbound row found
    refine ⟨db, row, bind_require.mpr ⟨storable.nativeId, bind_require.mpr ⟨rfl, bind_require.mpr ⟨rfl, ?_⟩⟩⟩, rfl⟩
    exact bind_require.mpr ⟨by simp [file, channel], rfl⟩
  | none =>
    exact ⟨_, _, bind_require.mpr ⟨storable.nativeId, bind_require.mpr ⟨rfl, bind_require.mpr ⟨rfl,
      insertObject_accepts storable.objectId⟩⟩⟩, rfl⟩

theorem retain_accepts {mid : Database Rest Digest} (text : String) (source : ProviderSourceObject Digest)
    (free : mid.observation observationId = none) : ∃ result, retain codec mid storing text source observationId = .ok result := by
  rw [retain]
  dsimp only
  split
  · exact ⟨_, rfl⟩
  · have fresh : (advance mid source.id).observation (observationOf storing (codec.contentDigest text) source.id observationId
        (attribution (advance mid source.id) storing source.id)).id = none := free
    rw [insertObservation, fresh]
    exact ⟨_, rfl⟩

/-- A storable call is stored. -/
theorem perform_accepts {call : Call Rest} (passed : call.storing = .ok storing)
    (storable : Storable codec db storing objectId observationId) :
    ∃ next stored, perform codec db call objectId observationId = .ok (next, storing, stored) := by
  obtain ⟨text, serialized, fits⟩ := storable.payload
  obtain ⟨channel, file, parent⟩ := storable.remote
  obtain ⟨mid, source, resolved, kept⟩ := storable.resolves
  have free : mid.observation observationId = none := by
    rw [Database.observation, kept]
    exact storable.observationId
  obtain ⟨⟨next, stored⟩, retained⟩ : ∃ result, retain codec mid storing text source observationId = .ok result :=
    retain_accepts text source free
  refine ⟨next, stored, ?_⟩
  have stores : store codec db storing objectId observationId = .ok (next, stored) := by
    unfold store bound
    refine bind_require.mpr ⟨storable.revision, bind_require.mpr ⟨storable.decodedText, bind_require.mpr ⟨storable.parserVersion, ?_⟩⟩⟩
    refine bind_ok.mpr ⟨text, by rw [serialized]; rfl, bind_require.mpr ⟨decide_eq_true fits, ?_⟩⟩
    rw [file, channel, parent]
    exact bind_ok.mpr ⟨(mid, source), resolved, bind_require.mpr ⟨rfl, retained⟩⟩
  exact bind_ok.mpr ⟨storing, passed, bind_ok.mpr ⟨(next, stored), stores, rfl⟩⟩

theorem serve_accepts {history : History Rest Digest} {request : Request Rest} (passed : request.call.storing = .ok storing)
    (storable : Storable codec history.db storing request.objectId request.observationId) :
    ∃ entry, entry.reading = storing.reading ∧ (serve codec history request).entries = history.entries ++ [entry] := by
  obtain ⟨next, stored, performed⟩ := perform_accepts passed storable
  rw [serve, performed]
  exact ⟨_, rfl, rfl⟩

/-! ## What the rows keep -/

-- Two observations that claim one full revision, both with tracks, for different texts.
def Rivals (first second : ProviderSourceObservation Rest Digest) : Prop :=
  first.objectId = second.objectId ∧ first.revision = second.revision ∧ first.revision ≠ none ∧
    first.revisionScope = .full ∧ second.revisionScope = .full ∧ first.payload.tracked = true ∧
    second.payload.tracked = true ∧ first.decodedText ≠ second.decodedText

structure Retained (codec : Codec Rest Digest) (history : History Rest Digest) : Prop where
  objectsApart : (history.db.objects.map (·.id)).Nodup
  observationsApart : (history.db.observations.map (·.id)).Nodup
  counted : ∀ object ∈ history.db.objects, object.readSeq = (history.entriesOf object.id).length
  housed : ∀ entry ∈ history.entries, ∃ object ∈ history.db.objects, object.id = entry.object
  numbered : ∀ object, history.db.readsOf object = (history.entriesOf object).mapIdx fun position entry =>
    { objectId := object, readSeq := position + 1, observationId := entry.observation }
  named : ∀ entry ∈ history.entries, ∃ observation ∈ history.db.observations, Names observation entry
  created : history.db.observations.map (·.id) = (history.entries.filter Entry.created).map (·.observation)
  distinct : (history.entries.filter Entry.created).Pairwise fun first second =>
    first.object = second.object → first.reading ≠ second.reading
  digested : ∀ observation ∈ history.db.observations, ∃ text, codec.serialize observation.payload = some text ∧
    observation.contentDigest = codec.contentDigest text
  texts : ∀ observation ∈ history.db.observations, ∀ payload, observation.payload = .snapshot payload →
    observation.decodedText = payload.text
  marked : ∀ first ∈ history.db.observations, ∀ second ∈ history.db.observations, Rivals first second →
    first.conflictWithId ≠ none ∨ second.conflictWithId ≠ none

omit [DecidableEq Rest] [DecidableEq Digest] in
theorem Retained.start (files : List Uuid) : Retained codec (History.start files) := by
  constructor <;> simp [History.start, History.entriesOf, Database.readsOf]

-- An object opened by the call changes nothing but the table of objects.
def History.opened (history : History Rest Digest) (mid : Database Rest Digest) : History Rest Digest :=
  { history with db := mid }

omit [DecidableEq Rest] [DecidableEq Digest] in
theorem Retained.opened {history : History Rest Digest} (retained : Retained codec history)
    {mid : Database Rest Digest} {source : ProviderSourceObject Digest} (opened : Opened history.db mid source) :
    Retained codec (history.opened mid) ∧ source ∈ mid.objects := by
  rcases opened with ⟨rfl, member⟩ | ⟨rfl, free, zero⟩
  · exact ⟨retained, member⟩
  · have fresh : ∀ object ∈ history.db.objects, object.id ≠ source.id := by
      simpa [Database.object] using free
    have unread : history.entriesOf source.id = [] := by
      refine List.filter_eq_nil_iff.mpr fun entry member => ?_
      obtain ⟨object, there, same⟩ := retained.housed entry member
      have := fresh object there
      simp only [decide_eq_true_eq]
      exact fun equal => this (same.trans equal)
    refine ⟨{ retained with objectsApart := ?_, counted := ?_, housed := ?_ }, by simp⟩
    · simp only [History.opened, List.map_append, List.map_cons, List.map_nil]
      refine List.Nodup.append retained.objectsApart (List.nodup_singleton _) ?_
      simpa using fun object member same => fresh object member same
    · intro object member
      rcases List.mem_append.mp member with old | new
      · exact retained.counted object old
      · cases List.mem_singleton.mp new
        exact zero.trans (congrArg List.length unread).symm
    · intro entry member
      obtain ⟨object, there, same⟩ := retained.housed entry member
      exact ⟨object, List.mem_append_left _ there, same⟩

def History.record (history : History Rest Digest) (source : ProviderSourceObject Digest)
    (observations : List (ProviderSourceObservation Rest Digest)) (entry : Entry Rest) : History Rest Digest where
  db := insertRead { advance history.db source.id with observations := observations } source entry.observation
  entries := history.entries ++ [entry]

omit [DecidableEq Rest] [DecidableEq Digest] in
theorem entriesOf_record {history : History Rest Digest} {source : ProviderSourceObject Digest}
    {observations : List (ProviderSourceObservation Rest Digest)} {entry : Entry Rest} (object : Uuid) :
    (history.record source observations entry).entriesOf object =
      history.entriesOf object ++ if entry.object = object then [entry] else [] := by
  by_cases same : entry.object = object <;> simp [History.record, History.entriesOf, same]

omit [DecidableEq Rest] [DecidableEq Digest] in
theorem Retained.recorded {history : History Rest Digest} (retained : Retained codec history)
    {source : ProviderSourceObject Digest} (member : source ∈ history.db.objects) (entry : Entry Rest)
    (here : entry.object = source.id) {observations : List (ProviderSourceObservation Rest Digest)}
    (kept : ∀ observation ∈ history.db.observations, observation ∈ observations)
    (named : ∃ observation ∈ observations, Names observation entry)
    (apart : (observations.map (·.id)).Nodup)
    (created : observations.map (·.id) =
      ((history.entries ++ [entry]).filter Entry.created).map (·.observation))
    (distinct : ((history.entries ++ [entry]).filter Entry.created).Pairwise fun first second =>
      first.object = second.object → first.reading ≠ second.reading)
    (digested : ∀ observation ∈ observations, ∃ text, codec.serialize observation.payload = some text ∧
      observation.contentDigest = codec.contentDigest text)
    (texts : ∀ observation ∈ observations, ∀ payload, observation.payload = .snapshot payload →
      observation.decodedText = payload.text)
    (marked : ∀ first ∈ observations, ∀ second ∈ observations, Rivals first second →
      first.conflictWithId ≠ none ∨ second.conflictWithId ≠ none) :
    Retained codec (history.record source observations entry) where
  objectsApart := by
    have ids : ((history.record source observations entry).db.objects.map (·.id)) = history.db.objects.map (·.id) := by
      simp only [History.record, insertRead, advance, List.map_map]
      refine List.map_congr_left fun row _ => ?_
      by_cases same : row.id = source.id <;> simp [same]
    rw [ids]
    exact retained.objectsApart
  observationsApart := apart
  counted := by
    intro object there
    obtain ⟨row, old, rfl⟩ := List.mem_map.mp there
    rw [entriesOf_record]
    by_cases same : row.id = source.id
    · simp [here, same, retained.counted row old]
    · simp [here, same, Ne.symm same, retained.counted row old]
  housed := by
    intro other there
    have ids : ∀ object ∈ history.db.objects,
        ∃ object' ∈ (history.record source observations entry).db.objects, object'.id = object.id := by
      intro object there
      refine ⟨_, List.mem_map_of_mem there, ?_⟩
      by_cases same : object.id = source.id <;> simp [same]
    rcases List.mem_append.mp there with old | new
    · obtain ⟨object, there, same⟩ := retained.housed other old
      obtain ⟨object', there', same'⟩ := ids object there
      exact ⟨object', there', same'.trans same⟩
    · cases List.mem_singleton.mp new
      obtain ⟨object', there', same'⟩ := ids source member
      exact ⟨object', there', same'.trans here.symm⟩
  numbered := by
    intro object
    rw [entriesOf_record]
    have reads : (history.record source observations entry).db.readsOf object = history.db.readsOf object ++
        if source.id = object then
          [{ objectId := source.id, readSeq := source.readSeq + 1, observationId := entry.observation }] else [] := by
      by_cases same : source.id = object <;>
        simp [History.record, insertRead, advance, Database.readsOf, same]
    rw [reads, retained.numbered object, here]
    by_cases same : source.id = object
    · have length := retained.counted source member
      rw [same] at length
      simp [same, List.mapIdx_append, length]
    · simp [same]
  named := by
    intro other there
    rcases List.mem_append.mp there with old | new
    · obtain ⟨observation, there, names⟩ := retained.named other old
      exact ⟨observation, kept observation there, names⟩
    · cases List.mem_singleton.mp new
      exact named
  created := created
  distinct := distinct
  digested := digested
  texts := texts
  marked := marked

omit [DecidableEq Rest] [DecidableEq Digest] in
theorem storing_of_call {call : Call Rest} {storing : Storing Rest} (passed : call.storing = .ok storing) :
    storing.snapshot = storing.payload.tracked ∧
      ∀ payload, storing.payload = .snapshot payload → storing.decodedText = payload.text := by
  cases call with
  | storeSnapshot snapshot status file channel parent =>
    simp only [Call.storing, bind_ok, pure, Except.pure, Except.ok.injEq] at passed
    obtain ⟨_, -, rfl⟩ := passed
    refine ⟨rfl, ?_⟩
    rintro payload ⟨⟩
    rfl
  | storeSourceRead identity read version file channel =>
    simp only [Call.storing, bind_require, pure, Except.pure, Except.ok.injEq] at passed
    obtain ⟨-, rfl⟩ := passed
    exact ⟨rfl, by simp⟩
  | storeDiscovery candidate time =>
    simp only [Call.storing, Except.ok.injEq] at passed
    subst passed
    exact ⟨rfl, by simp⟩

omit [DecidableEq Digest] in
-- An earlier creation with the reading is a row that the reuse query finds.
theorem Retained.unread {history : History Rest Digest} (retained : Retained codec history) {storing : Storing Rest}
    {text : String} (serialized : codec.serialize storing.payload = some text) {object : Uuid}
    [DecidableEq Digest] (missed : reusable history.db storing (codec.contentDigest text) object = none) :
    ∀ entry ∈ history.entries, entry.object = object → entry.reading ≠ storing.reading := by
  intro entry member here same
  obtain ⟨row, there, names⟩ := retained.named entry member
  obtain ⟨other, encoded, digest⟩ := retained.digested row there
  have payload : row.payload = storing.payload := by rw [names.payload, same]; rfl
  refine reusable_none retained.observationsApart missed row there ?_ payload
  rw [payload, serialized, Option.some.injEq] at encoded
  have parent : (storing.parentId.all fun parent => decide (row.parentId = some parent)) = true := by
    cases named : storing.parentId with
    | none => rfl
    | some parent => simpa using names.parent parent (by rw [same]; exact named)
  simp [alike, names.object, here, names.parserVersion, names.revision, names.revisionScope, names.status, same,
    Storing.reading, digest, encoded, parent]

omit [DecidableEq Rest] [DecidableEq Digest] in
theorem Rivals.symm {first second : ProviderSourceObservation Rest Digest} (rivals : Rivals first second) :
    Rivals second first :=
  have ⟨object, revision, claimed, full, alsoFull, tracked, alsoTracked, text⟩ := rivals
  ⟨object.symm, revision.symm, revision ▸ claimed, alsoFull, full, alsoTracked, tracked, text.symm⟩

omit [DecidableEq Digest] in
-- A rival of the new observation that is no conflict itself makes the new one a conflict.
theorem Retained.weighed {history : History Rest Digest} (retained : Retained codec history) {storing : Storing Rest}
    (snapshot : storing.snapshot = storing.payload.tracked)
    (texts : ∀ payload, storing.payload = .snapshot payload → storing.decodedText = payload.text)
    {digest : Digest} {object observationId : Uuid} {row : ProviderSourceObservation Rest Digest}
    (member : row ∈ history.db.observations)
    (rivals : Rivals row (observationOf storing digest object observationId (attribution history.db storing object))) :
    row.conflictWithId ≠ none ∨ (attribution history.db storing object).conflictWith ≠ none := by
  obtain ⟨here, revision, claimed, full, alsoFull, tracked, alsoTracked, text⟩ := rivals
  by_cases clean : row.conflictWithId = none
  · right
    obtain ⟨value, some⟩ := Option.ne_none_iff_exists'.mp claimed
    refine attribution_conflicts value retained.observationsApart (revision.symm.trans some) alsoFull
      (snapshot.trans alsoTracked) member ?_ ?_ text
    · simp [claims, show row.objectId = object from here, some, full, clean, tracked]
    · intro same
      cases payload : storing.payload with
      | snapshot content =>
        exact text ((retained.texts row member content (same.trans payload)).trans (texts content payload).symm)
      | read content => simp [observationOf, payload, Payload.tracked] at alsoTracked
      | discovered candidate => simp [observationOf, payload, Payload.tracked] at alsoTracked
  · exact .inl clean

theorem serve_retained {history : History Rest Digest} (retained : Retained codec history) (request : Request Rest) :
    Retained codec (serve codec history request) := by
  unfold serve
  split
  · exact retained
  next next storing stored performed =>
    obtain ⟨text, mid, source, passed, serialized, opened, lands⟩ := perform_ok performed
    obtain ⟨snapshot, texts⟩ := storing_of_call passed
    obtain ⟨retained, member⟩ := retained.opened opened
    cases lands with
    | @reused row conflict there same payload =>
      simp only [alike, Bool.and_eq_true, decide_eq_true_eq, Option.all_eq_true] at same
      obtain ⟨⟨⟨⟨⟨⟨object, version⟩, revision⟩, scope⟩, status⟩, -⟩, parent⟩ := same
      refine retained.recorded member ⟨_, storing.reading, row.id, false⟩ rfl (fun _ old => old) ⟨row, there, ?_⟩
        retained.observationsApart ?_ ?_ retained.digested retained.texts retained.marked
      · exact ⟨rfl, object, version, revision, scope, status, payload, parent⟩
      · simpa [History.opened] using retained.created
      · simpa [History.opened] using retained.distinct
    | @created observationId conflict attributed weighed missed free =>
      have fresh : ∀ row ∈ mid.observations, row.id ≠ observationId := by
        simpa [Database.observation] using free
      refine retained.recorded member ⟨_, storing.reading, observationId, true⟩ rfl
        (fun _ old => List.mem_append_left _ old) ⟨_, List.mem_append_right _ (List.mem_singleton_self _), ?_⟩ ?_ ?_ ?_ ?_
        ?_ ?_
      · refine ⟨rfl, rfl, rfl, rfl, rfl, rfl, rfl, fun parent named => ?_⟩
        subst weighed
        exact attribution_parent named
      · simp only [List.map_append, List.map_cons, List.map_nil]
        refine List.Nodup.append retained.observationsApart (List.nodup_singleton _) ?_
        simpa [observationOf] using fun row old same => fresh row old same
      · have created : mid.observations.map (·.id) = _ := retained.created
        simp [observationOf, created, List.filter_append]
      · simp only [List.filter_append, List.filter_cons, List.filter_nil, if_true]
        refine List.pairwise_append.mpr ⟨retained.distinct, List.pairwise_singleton _ _, ?_⟩
        intro entry old other new here
        cases List.mem_singleton.mp new
        exact retained.unread serialized missed entry (List.mem_filter.mp old).1 here
      · intro row there
        rcases List.mem_append.mp there with old | new
        · exact retained.digested row old
        · cases List.mem_singleton.mp new
          exact ⟨text, serialized, rfl⟩
      · intro row there payload same
        rcases List.mem_append.mp there with old | new
        · exact retained.texts row old payload same
        · cases List.mem_singleton.mp new
          exact texts payload same
      · subst weighed
        intro first one second other rivals
        rcases List.mem_append.mp one with old | new
        · rcases List.mem_append.mp other with alsoOld | alsoNew
          · exact retained.marked first old second alsoOld rivals
          · cases List.mem_singleton.mp alsoNew
            exact retained.weighed snapshot texts old rivals
        · cases List.mem_singleton.mp new
          rcases List.mem_append.mp other with alsoOld | alsoNew
          · exact (retained.weighed snapshot texts alsoOld rivals.symm).symm
          · cases List.mem_singleton.mp alsoNew
            exact absurd rfl rivals.2.2.2.2.2.2.2

theorem serveAll_retained (files : List Uuid) (requests : List (Request Rest)) :
    Retained codec (serveAll codec (History.start files) requests) := by
  suffices every : ∀ history : History Rest Digest, Retained codec history →
      Retained codec (serveAll codec history requests) from every _ (Retained.start files)
  induction requests with
  | nil => exact fun _ retained => retained
  | cons request rest ih => exact fun history retained => ih _ (serve_retained retained request)

end Runs

end Phaze.Provider
