import Phaze.Provider.Reads

set_option autoImplicit false

/-!
# Availability follows the last read

`_remote_availability` looks for an absent read behind the reads of an observation. It comes to the same as the
last call that stored either.
-/

namespace Phaze.Provider

-- The last element that meets either test decides whether one of the second lies behind all of the first.
theorem last_decides {Element : Type} (own other : Element → Bool) (elements : List Element)
    (apart : ∀ element ∈ elements, own element = true → other element = false)
    (occurs : ∃ element ∈ elements, own element = true) :
    ∃ last, (elements.filter fun element => own element || other element).getLast? = some last ∧
      (other last = true ↔ ∃ (position : Nat) (element : Element), elements[position]? = some element ∧
        other element = true ∧ ∀ (before : Nat) (mine : Element), elements[before]? = some mine → own mine = true →
          before < position) := by
  induction elements using List.reverseRecOn with
  | nil => simp at occurs
  | append_singleton elements final ih =>
    have apartBefore : ∀ element ∈ elements, own element = true → other element = false :=
      fun element member => apart element (List.mem_append_left _ member)
    have inside : ∀ (position : Nat) (element : Element), (elements ++ [final])[position]? = some element →
        elements[position]? = some element ∨ (position = elements.length ∧ element = final) := by
      intro position element found
      rw [List.getElem?_append] at found
      split at found
      · exact .inl found
      next beyond =>
        obtain ⟨within, same⟩ := List.getElem?_eq_some_iff.mp found
        simp only [List.length_cons, List.length_nil] at within
        refine .inr ⟨by omega, ?_⟩
        have zero : position - elements.length = 0 := by omega
        simpa [zero] using same.symm
    have finalAt : (elements ++ [final])[elements.length]? = some final := by simp
    have earlier : ∀ (position : Nat) (element : Element), elements[position]? = some element →
        (elements ++ [final])[position]? = some element ∧ position < elements.length := by
      intro position element found
      have within := (List.getElem?_eq_some_iff.mp found).1
      exact ⟨by rw [List.getElem?_append_left within, found], within⟩
    by_cases mine : own final = true
    · have notOther := apart final (by simp) mine
      refine ⟨final, by simp [List.filter_append, mine], ?_⟩
      simp only [notOther, Bool.false_eq_true, false_iff, not_exists, not_and]
      intro position element found _ behind
      have past := behind elements.length final finalAt mine
      rcases inside position element found with old | ⟨last, -⟩
      · have := (earlier position element old).2
        omega
      · omega
    · have occursBefore : ∃ element ∈ elements, own element = true := by
        obtain ⟨element, member, own⟩ := occurs
        rcases List.mem_append.mp member with old | new
        · exact ⟨element, old, own⟩
        · cases List.mem_singleton.mp new
          exact absurd own mine
      by_cases alien : other final = true
      · refine ⟨final, by simp [List.filter_append, alien], ?_⟩
        simp only [alien, true_iff]
        refine ⟨elements.length, final, finalAt, alien, fun before element found own => ?_⟩
        rcases inside before element found with old | ⟨-, rfl⟩
        · exact (earlier before element old).2
        · exact absurd own mine
      · obtain ⟨last, decided, iff⟩ := ih apartBefore occursBefore
        refine ⟨last, by simpa [List.filter_append, mine, alien] using decided, iff.trans ?_⟩
        constructor
        · rintro ⟨position, element, found, isOther, behind⟩
          refine ⟨position, element, (earlier position element found).1, isOther, fun before other there own => ?_⟩
          rcases inside before other there with old | ⟨-, rfl⟩
          · exact behind before other old own
          · exact absurd own mine
        · rintro ⟨position, element, found, isOther, behind⟩
          rcases inside position element found with old | ⟨-, rfl⟩
          · exact ⟨position, element, old, isOther, fun before other there own =>
              behind before other (earlier before other there).1 own⟩
          · exact absurd isOther alien

section Last

variable {Rest Digest : Type} {codec : Codec Rest Digest} {history : History Rest Digest}

def Entry.absent (entry : Entry Rest) : Bool :=
  entry.reading.status = .outcome .absent

-- The last call that stored the observation or an absent read of its object.
def History.lastWord (history : History Rest Digest) (observation : ProviderSourceObservation Rest Digest) :
    Option (Entry Rest) :=
  ((history.entriesOf observation.objectId).filter fun entry =>
    entry.observation = observation.id || entry.absent).getLast?

theorem Retained.observation_eq (retained : Retained codec history) {first second : ProviderSourceObservation Rest Digest}
    (one : first ∈ history.db.observations) (other : second ∈ history.db.observations) (same : first.id = second.id) :
    first = second :=
  List.inj_on_of_nodup_map retained.observationsApart one other same

theorem Retained.isAbsent_eq (retained : Retained codec history) {entry : Entry Rest} (member : entry ∈ history.entries) :
    isAbsent history.db entry.observation = entry.absent := by
  obtain ⟨row, there, names⟩ := retained.named entry member
  have found : history.db.observation entry.observation = some row := by
    unfold Database.observation
    cases looked : history.db.observations.find? fun row => row.id = entry.observation with
    | none => exact absurd names.id (by simpa using List.find?_eq_none.mp looked row there)
    | some other =>
      have same := List.find?_some looked
      simp only [decide_eq_true_eq] at same
      rw [retained.observation_eq (List.mem_of_find?_eq_some looked) there (same.trans names.id.symm)]
  simp [isAbsent, found, Entry.absent, names.status]

-- The reads of an object, as its entries in their order.
theorem Retained.mem_reads (retained : Retained codec history) {read : ProviderSourceRead} {object : Uuid} :
    (read ∈ history.db.reads ∧ read.objectId = object) ↔ ∃ position entry,
      (history.entriesOf object)[position]? = some entry ∧
        read = { objectId := object, readSeq := position + 1, observationId := entry.observation } := by
  have member : (read ∈ history.db.reads ∧ read.objectId = object) ↔ read ∈ history.db.readsOf object := by
    simp [Database.readsOf]
  rw [member, retained.numbered object, List.mem_iff_getElem?]
  simp only [List.getElem?_mapIdx, Option.map_eq_some_iff]
  constructor
  · rintro ⟨position, entry, found, rfl⟩
    exact ⟨position, entry, found, rfl⟩
  · rintro ⟨position, entry, found, rfl⟩
    exact ⟨position, entry, found, rfl⟩

theorem max?_any_lt {values : List Nat} {bound : Nat} :
    (values.max?.any fun value => value < bound) = true ↔ values ≠ [] ∧ ∀ value ∈ values, value < bound := by
  cases highest : values.max? with
  | none => simp [List.max?_eq_none_iff.mp highest]
  | some value =>
    obtain ⟨member, upper⟩ := List.max?_eq_some_iff.mp highest
    simp only [Option.any_some, decide_eq_true_eq]
    exact ⟨fun below => ⟨List.ne_nil_of_mem member, fun other there => (upper other there).trans_lt below⟩,
      fun all => all.2 value member⟩

theorem Retained.ownRead (retained : Retained codec history) {observation : ProviderSourceObservation Rest Digest}
    (member : observation ∈ history.db.observations) {read : ProviderSourceRead} (there : read ∈ history.db.reads)
    (own : read.observationId = observation.id) : read.objectId = observation.objectId := by
  obtain ⟨position, entry, found, same⟩ := retained.mem_reads.mp ⟨there, rfl⟩
  obtain ⟨listed, here⟩ := List.mem_filter.mp (List.mem_of_getElem? found)
  obtain ⟨row, known, names⟩ := retained.named entry listed
  have ids : row.id = observation.id := by
    rw [names.id, ← own, same]
  rw [← retained.observation_eq known member ids, names.object]
  simpa using (of_decide_eq_true here).symm

-- An absent read of the object behind every read of the observation.
theorem Retained.laterAbsent_iff (retained : Retained codec history)
    {observation : ProviderSourceObservation Rest Digest} (member : observation ∈ history.db.observations)
    (stored : ∃ entry ∈ history.entriesOf observation.objectId, entry.observation = observation.id) :
    (history.db.reads.any fun read => read.objectId = observation.objectId && isAbsent history.db read.observationId &&
      (snapshotSeq history.db observation.id).any fun seq => seq < read.readSeq) = true ↔
    ∃ (position : Nat) (entry : Entry Rest), (history.entriesOf observation.objectId)[position]? = some entry ∧
      entry.absent = true ∧ ∀ (before : Nat) (mine : Entry Rest),
        (history.entriesOf observation.objectId)[before]? = some mine →
          (mine.observation = observation.id) → before < position := by
  have listed : ∀ (position : Nat) (entry : Entry Rest), (history.entriesOf observation.objectId)[position]? = some entry →
      entry ∈ history.entries := fun position entry found => (List.mem_filter.mp (List.mem_of_getElem? found)).1
  simp only [List.any_eq_true, Bool.and_eq_true, decide_eq_true_eq, snapshotSeq, max?_any_lt, List.forall_mem_map,
    List.mem_filter]
  constructor
  · rintro ⟨read, there, ⟨here, absent⟩, -, behind⟩
    obtain ⟨position, entry, found, rfl⟩ := retained.mem_reads.mp ⟨there, here⟩
    refine ⟨position, entry, found, ?_, fun before mine known own => ?_⟩
    · rw [← retained.isAbsent_eq (listed position entry found)]
      exact absent
    · have := behind _ ⟨(retained.mem_reads.mpr ⟨before, mine, known, rfl⟩).1, own⟩
      simpa using this
  · rintro ⟨position, entry, found, absent, behind⟩
    obtain ⟨reads, here⟩ := retained.mem_reads.mpr ⟨position, entry, found, rfl⟩
    refine ⟨_, reads, ⟨here, ?_⟩, ?_, ?_⟩
    · rw [retained.isAbsent_eq (listed position entry found)]
      exact absent
    · obtain ⟨mine, known, own⟩ := stored
      obtain ⟨before, at_⟩ := List.mem_iff_getElem?.mp known
      have read := (retained.mem_reads.mpr ⟨before, mine, at_, rfl⟩).1
      intro empty
      have unread := List.filter_eq_nil_iff.mp (List.map_eq_nil_iff.mp empty) _ read
      simp [own] at unread
    · rintro read ⟨there, own⟩
      obtain ⟨before, mine, known, same⟩ := retained.mem_reads.mp ⟨there, retained.ownRead member there own⟩
      have := behind before mine known (by rw [← own, same])
      rw [same]
      simpa using this

theorem Retained.availability (retained : Retained codec history)
    {observation : ProviderSourceObservation Rest Digest} (member : observation ∈ history.db.observations)
    (read : readable observation.status = true) :
    ∃ last, history.lastWord observation = some last ∧
      remoteAvailability history.db observation observation.objectId = if last.absent then .absent else .current := by
  have own : ∀ entry ∈ history.entries, entry.observation = observation.id →
      entry.object = observation.objectId ∧ entry.absent = false := by
    intro entry there same
    obtain ⟨row, known, names⟩ := retained.named entry there
    have equal := retained.observation_eq known member (names.id.trans same)
    subst equal
    refine ⟨names.object.symm, ?_⟩
    have status := names.status
    unfold readable at read
    unfold Entry.absent
    rw [← status]
    by_contra absent
    simp [of_decide_eq_true (by simpa using absent)] at read
  have stored : ∃ entry ∈ history.entriesOf observation.objectId, entry.observation = observation.id := by
    have id : observation.id ∈ history.db.observations.map (·.id) := List.mem_map_of_mem member
    rw [retained.created] at id
    obtain ⟨entry, there, same⟩ := List.mem_map.mp id
    have known := (List.mem_filter.mp there).1
    exact ⟨entry, List.mem_filter.mpr ⟨known, decide_eq_true (own entry known same).1⟩, same⟩
  obtain ⟨last, decided, iff⟩ := last_decides (fun entry => entry.observation = observation.id) Entry.absent
    (history.entriesOf observation.objectId)
    (fun entry there same => (own entry (List.mem_filter.mp there).1 (of_decide_eq_true same)).2)
    (by simpa using stored)
  refine ⟨last, decided, ?_⟩
  have later := retained.laterAbsent_iff member stored
  simp only [decide_eq_true_eq] at iff
  rw [← later] at iff
  unfold remoteAvailability
  rw [read]
  simp only [Bool.not_true, Bool.false_eq_true, if_false]
  by_cases absent : last.absent = true
  · simp only [iff.mp absent, absent, if_true]
  · have silent := mt iff.mpr absent
    simp only [silent, absent]

/-! ## The four laws -/

structure FollowsCalls (history : History Rest Digest) : Prop where
  -- The reads of an object are numbered from one, and each names an observation of what its call stored.
  numbered : ∀ object ∈ history.db.objects,
    object.readSeq = (history.db.readsOf object.id).length ∧
      (history.db.readsOf object.id).map (·.readSeq) = List.range' 1 object.readSeq ∧
      List.Forall₂ (fun read entry => ∃ observation ∈ history.db.observations,
        read.observationId = observation.id ∧ Names observation entry)
        (history.db.readsOf object.id) (history.entriesOf object.id)
  -- Every observation is one creation, and two creations for an object differ in their reading.
  distinct : history.db.observations.map (·.id) = (history.entries.filter Entry.created).map (·.observation) ∧
    (history.entries.filter Entry.created).Pairwise fun first second =>
      first.object = second.object → first.reading ≠ second.reading
  marked : ∀ first ∈ history.db.observations, ∀ second ∈ history.db.observations, Rivals first second →
    first.conflictWithId ≠ none ∨ second.conflictWithId ≠ none
  available : ∀ observation ∈ history.db.observations, readable observation.status = true →
    ∃ last, history.lastWord observation = some last ∧
      remoteAvailability history.db observation observation.objectId = if last.absent then .absent else .current

theorem Retained.length_reads (retained : Retained codec history) {object : ProviderSourceObject Digest}
    (member : object ∈ history.db.objects) : object.readSeq = (history.db.readsOf object.id).length := by
  rw [retained.numbered, List.length_mapIdx]
  exact retained.counted object member

theorem reads_follow_the_calls [DecidableEq Rest] [DecidableEq Digest] (codec : Codec Rest Digest) (files : List Uuid)
    (requests : List (Request Rest)) : FollowsCalls (serveAll codec (History.start files) requests) := by
  have retained : Retained codec (serveAll codec (History.start files) requests) := serveAll_retained files requests
  generalize serveAll codec (History.start files) requests = history at retained
  refine ⟨fun object member => ⟨retained.length_reads member, ?_, ?_⟩, ⟨retained.created, retained.distinct⟩,
    retained.marked, fun observation => retained.availability⟩
  · rw [retained.counted object member, retained.numbered]
    refine List.ext_getElem (by simp) fun position _ _ => ?_
    simp [Nat.add_comm]
  · rw [retained.numbered, List.forall₂_iff_get]
    refine ⟨by simp, fun position within also => ?_⟩
    obtain ⟨observation, there, names⟩ := retained.named ((history.entriesOf object.id).get ⟨position, also⟩)
      (List.mem_filter.mp (List.get_mem _ _)).1
    refine ⟨observation, there, ?_, names⟩
    simp [names.id]

end Last

/-! ## Five calls -/

namespace Sample

def codec : Codec Unit String where
  serialize
    | .snapshot payload => payload.text
    | .read payload => payload.text.getD ""
    | .discovered candidate => some candidate.identity.nativeId
  contentDigest text := text
  nativeDigest identity := identity.nativeId

def identity : SourceIdentity := { providerId := "trackid", nativeId := "a" }

def whole : Completeness := { complete := true, reason := "exhausted", evidence := [] }

def track : ProviderTrack := { position := 1, sectionOrdinal := none, artist := none, title := some "t" }

-- What the provider reports under one revision.
def reported (text : String) : Call Unit :=
  .storeSnapshot
    { identity, revision := some "r", revisionScope := .full, tracks := [track], sections := [], sectionScanComplete := false
      text := some text, encoding := none, parserVersion := "v1", completeness := whole, rest := (), retrievedAt := 5, url := none }
    none none (some .remote) none

def gone : Call Unit :=
  .storeSourceRead identity
    { status := .absent, code := "not_found", text := none, encoding := none, revision := none, revisionScope := .unknown
      truncated := false, rest := (), retrievedAt := 3 } "v1" none (some .remote)

-- A report, the same again, another text for its revision, the source gone, and the first report back.
def requests : List (Request Unit) :=
  [⟨reported "first", 1, 1⟩, ⟨reported "first", 2, 2⟩, ⟨reported "second", 3, 3⟩, ⟨gone, 4, 4⟩, ⟨reported "first", 5, 5⟩]

def availabilities (history : History Unit String) : List Availability :=
  history.db.observations.map fun observation => remoteAvailability history.db observation observation.objectId

end Sample

theorem five_calls_are_followed :
    FollowsCalls (serveAll Sample.codec (History.start []) Sample.requests) ∧
    (serveAll Sample.codec (History.start []) Sample.requests).db.reads.map (fun read => (read.readSeq, read.observationId)) =
      [(1, 1), (2, 1), (3, 3), (4, 4), (5, 1)] ∧
    (serveAll Sample.codec (History.start []) Sample.requests).db.observations.map (fun row => (row.id, row.conflictWithId)) =
      [(1, none), (3, some 1), (4, none)] ∧
    Sample.availabilities (serveAll Sample.codec (History.start []) (Sample.requests.take 4)) =
      [.absent, .absent, .other (.outcome .absent)] ∧
    Sample.availabilities (serveAll Sample.codec (History.start []) Sample.requests) =
      [.current, .absent, .other (.outcome .absent)] :=
  ⟨reads_follow_the_calls Sample.codec [] Sample.requests, by decide +kernel, by decide +kernel, by decide +kernel, by decide +kernel⟩

end Phaze.Provider
