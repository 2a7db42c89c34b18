import Phaze.Provider.Decision
import Phaze.Shared.Runs

set_option autoImplicit false

/-!
# Selections and rejections

A rejection holds for a source object, a selection names one observation of it. The guard of a rejection compares
observations, so a second candidate of the selected object can be rejected under it.
-/

namespace Phaze.Provider

open Guards

section Sound

variable {Rest Digest : Type} {uuid5 : RecordingSelection → Uuid} {strip : String → String}
  {desk next : Desk Rest Digest} {command : RemoteSourceDecision} {actor : String} {now : Int}

/-! ## What a decision does -/

theorem orRaise_ok {Value : Type} {value : Option Value} {raised : String} {result : Value} :
    orRaise value raised = .ok result ↔ value = some result := by
  cases value <;> simp [orRaise]

-- What `review` has found where it does not raise.
structure Found (desk : Desk Rest Digest) (command : RemoteSourceDecision) (reviewed : Reviewed Rest Digest) : Prop where
  observation : desk.sources.observation command.observationId = some reviewed.observation
  source : desk.sources.object reviewed.observation.objectId = some reviewed.source
  media : reviewed.media.id = command.mediaId
  id : reviewed.observation.id = command.observationId
  candidate : desk.candidate command.mediaId command.observationId = some reviewed.candidate
  current : reviewed.current = desk.selection command.mediaId

theorem observation_id {db : Database Rest Digest} {id : Uuid} {row : ProviderSourceObservation Rest Digest}
    (found : db.observation id = some row) : row.id = id := by
  simpa using List.find?_some found

theorem review_found {reviewed : Reviewed Rest Digest} (passed : review strip desk command actor = .ok reviewed) :
    Found desk command reviewed := by
  unfold review at passed
  simp only [bind_ok, orRaise_ok, pure, Except.pure, Except.ok.injEq, Option.filter_eq_some_iff] at passed
  obtain ⟨_, -, _, -, observation, found, source, ⟨bound, -⟩, media, ⟨there, -⟩, _, -, candidate, known, _, -, rfl⟩ :=
    passed
  have mediaId : media.id = command.mediaId := by simpa using List.find?_some there
  have observationId := observation_id found
  exact
    { observation := found
      source := bound
      media := mediaId
      id := observationId
      candidate := by rw [← mediaId, ← observationId]; exact known
      current := by rw [mediaId] }

theorem Found.source_eq {reviewed : Reviewed Rest Digest} (found : Found desk command reviewed) :
    desk.source command.observationId = some reviewed.source := by
  simp [Desk.source, found.observation, found.source]

-- What a decision that does not raise leaves, by its action.
inductive Decides (uuid5 : RecordingSelection → Uuid) (strip : String → String) (desk : Desk Rest Digest)
    (command : RemoteSourceDecision) (actor : String) (now : Int) : Desk Rest Digest → Prop where
  | replayed {previous : SelectionEvent} (known : desk.event command.decisionId = some previous)
      (same : previous.decisionPayload = (command, actor)) : Decides uuid5 strip desk command actor now desk
  | selected {reviewed : Reviewed Rest Digest} {mapping : TargetMapping} {snapshot : SnapshotPayload Rest}
      (first : desk.event command.decisionId = none)
      (token : desk.token uuid5 command.mediaId = command.expectedSelectionToken)
      (found : Found desk command reviewed)
      (free : reviewed.source.nativeId ∉ desk.rejections command.mediaId reviewed.source.providerId)
      (loaded : snapshotOf reviewed.observation = some snapshot) :
      Decides uuid5 strip desk command actor now
        (((desk.setSelection (selectionOf command actor now mapping)).setStatus command.mediaId
          command.observationId .accepted).addEvent command actor (some mapping))
  | rejected {reviewed : Reviewed Rest Digest} (first : desk.event command.decisionId = none)
      (token : desk.token uuid5 command.mediaId = command.expectedSelectionToken)
      (passed : review strip desk command actor = .ok reviewed) (action : command.action = .reject)
      (inactive : ∀ row, desk.selection command.mediaId = some row → row.observationId ≠ command.observationId) :
      Decides uuid5 strip desk command actor now
        ((desk.setStatus command.mediaId command.observationId .rejected).addEvent command actor none)
  | reopened {reviewed : Reviewed Rest Digest} (first : desk.event command.decisionId = none)
      (token : desk.token uuid5 command.mediaId = command.expectedSelectionToken)
      (found : Found desk command reviewed) :
      Decides uuid5 strip desk command actor now
        (((desk.reopen command.mediaId reviewed.source.id).setStatus command.mediaId command.observationId
          .pending).addEvent command actor none)

theorem decided_cases (decides : decided uuid5 strip desk command actor now = .ok next) :
    Decides uuid5 strip desk command actor now next := by
  unfold decided at decides
  simp only [bind_ok] at decides
  obtain ⟨reviewed, passed, decides⟩ := decides
  have found := review_found passed
  split at decides
  next previous known =>
    unfold replay at decides
    simp only [bind_ok, require_ok, decide_eq_true_eq, pure, Except.pure, Except.ok.injEq] at decides
    obtain ⟨_, ⟨_, same, -⟩, rfl⟩ := decides
    exact .replayed known same
  next first =>
    simp only [bind_ok, require_ok, decide_eq_true_eq, found.media] at decides
    obtain ⟨_, token, acted⟩ := decides
    unfold act at acted
    split at acted
    next =>
      simp only [bind_ok, pure, Except.pure, Except.ok.injEq] at acted
      obtain ⟨mapping, chosen, rfl⟩ := acted
      unfold selectable at chosen
      simp only [bind_ok, require_ok, orRaise_ok, found.media] at chosen
      obtain ⟨_, free, snapshot, loaded, -⟩ := chosen
      split at loaded
      · exact .selected first token found (by simpa using free) loaded
      · cases loaded
    next action =>
      simp only [bind_ok, rejectable, require_ok, pure, Except.pure, Except.ok.injEq] at acted
      obtain ⟨_, inactive, rfl⟩ := acted
      refine .rejected first token passed action fun row current same => ?_
      simp [found.current, current, found.id, same] at inactive
    next =>
      simp only [bind_ok, pure, Except.pure, Except.ok.injEq] at acted
      obtain ⟨_, -, rfl⟩ := acted
      exact .reopened first token found

/-! ## What the writes leave -/

theorem mem_rejections {media : Uuid} {providerId nativeId : String} :
    nativeId ∈ desk.rejections media providerId ↔ ∃ row ∈ desk.candidates, row.mediaId = media ∧
      row.status = .rejected ∧ ∃ source, desk.source row.observationId = some source ∧
        source.providerId = providerId ∧ source.nativeId = nativeId := by
  simp only [Desk.rejections, List.mem_filterMap]
  refine exists_congr fun row => and_congr_right fun _ => ?_
  split
  next here =>
    simp only [Bool.and_eq_true, decide_eq_true_eq] at here
    simp [here, Option.filter_eq_some_iff, and_assoc]
  next here =>
    simp only [Bool.and_eq_true, decide_eq_true_eq] at here
    simp only [reduceCtorEq, false_iff]
    exact fun both => here ⟨both.1, both.2.1⟩

-- Rows that are rejected afterwards and were not before reject more; no others do.
theorem rejections_subset {media : Uuid} {providerId : String} (sources : next.sources = desk.sources)
    (rows : ∀ row ∈ next.candidates, row.mediaId = media → row.status = .rejected →
      ∃ old ∈ desk.candidates, old.mediaId = media ∧ old.status = .rejected ∧ old.observationId = row.observationId) :
    ∀ nativeId ∈ next.rejections media providerId, nativeId ∈ desk.rejections media providerId := by
  intro nativeId member
  obtain ⟨row, there, here, rejected, source, found, same⟩ := mem_rejections.mp member
  obtain ⟨old, before, oldMedia, oldRejected, observation⟩ := rows row there here rejected
  refine mem_rejections.mpr ⟨old, before, oldMedia, oldRejected, source, ?_, same⟩
  rw [observation]
  simpa [Desk.source, sources] using found

theorem setStatus_rejections {media observation : Uuid} {status : CandidateStatus} (kept : status ≠ .rejected)
    {other : Uuid} {providerId : String} :
    ∀ nativeId ∈ (desk.setStatus media observation status).rejections other providerId,
      nativeId ∈ desk.rejections other providerId := by
  refine rejections_subset rfl ?_
  intro row member here rejected
  obtain ⟨old, before, rfl⟩ := List.mem_map.mp member
  by_cases touched : old.mediaId = media ∧ old.observationId = observation
  · rw [if_pos touched] at rejected
    exact absurd rejected kept
  · rw [if_neg touched] at here rejected ⊢
    exact ⟨old, before, here, rejected, rfl⟩

theorem reopen_rejections {media object other : Uuid} {providerId : String} :
    ∀ nativeId ∈ (desk.reopen media object).rejections other providerId,
      nativeId ∈ desk.rejections other providerId := by
  refine rejections_subset rfl ?_
  intro row member here rejected
  obtain ⟨old, before, rfl⟩ := List.mem_map.mp member
  split at rejected
  · cases rejected
  next differs =>
    rw [if_neg differs] at here ⊢
    exact ⟨old, before, here, rejected, rfl⟩

-- A rejection adds its own source object, for its own recording.
theorem reject_rejections {media observation : Uuid} {source : ProviderSourceObject Digest}
    (found : desk.source observation = some source) {other : Uuid} {providerId nativeId : String}
    (member : nativeId ∈ (desk.setStatus media observation .rejected).rejections other providerId) :
    nativeId ∈ desk.rejections other providerId ∨
      (other = media ∧ source.providerId = providerId ∧ source.nativeId = nativeId) := by
  obtain ⟨row, there, here, rejected, origin, known, provider, native⟩ := mem_rejections.mp member
  obtain ⟨old, before, rfl⟩ := List.mem_map.mp there
  by_cases touched : old.mediaId = media ∧ old.observationId = observation
  · rw [if_pos touched] at here known
    right
    have same : some source = some origin := by
      rw [← found, ← touched.2]
      exact known
    cases same
    exact ⟨here.symm.trans touched.1, provider, native⟩
  · rw [if_neg touched] at here rejected known
    exact .inl (mem_rejections.mpr ⟨old, before, here, rejected, origin, known, provider, native⟩)

theorem setSelection_selection {selection : RecordingSelection} (kind : selection.kind = .tracklist) (media : Uuid) :
    (desk.setSelection selection).selection media =
      if media = selection.mediaId then some selection else desk.selection media := by
  unfold Desk.setSelection
  split
  next missed =>
    by_cases same : media = selection.mediaId
    · subst same
      unfold Desk.selection at missed
      simp [Desk.selection, List.find?_append, missed, kind]
    · simp [Desk.selection, List.find?_append, Ne.symm same, same]
  next other found =>
    simp only [Desk.selection] at found ⊢
    by_cases same : media = selection.mediaId
    · subst same
      rw [if_pos rfl]
      generalize desk.selections = rows at found
      induction rows with
      | nil => cases found
      | cons row rest ih =>
        by_cases here : row.mediaId = selection.mediaId ∧ row.kind = .tracklist
        · simp [here, kind]
        · have skipped : (decide (row.mediaId = selection.mediaId) && decide (row.kind = .tracklist)) = false := by
            simpa using here
          rw [List.find?_cons_of_neg (by simp [skipped])] at found
          simp only [List.map_cons, if_neg here]
          rw [List.find?_cons_of_neg (by simp [skipped])]
          exact ih found
    · rw [if_neg same, List.find?_map]
      have through : ((fun row : RecordingSelection => decide (row.mediaId = media) && decide (row.kind = .tracklist)) ∘
          fun row => if row.mediaId = selection.mediaId ∧ row.kind = .tracklist then selection else row) =
          fun row => decide (row.mediaId = media) && decide (row.kind = .tracklist) := by
        funext row
        by_cases here : row.mediaId = selection.mediaId ∧ row.kind = .tracklist
        · simp [here, Ne.symm same]
        · simp [here]
      rw [through]
      cases looked : desk.selections.find? fun row => decide (row.mediaId = media) && decide (row.kind = .tracklist) with
      | none => rfl
      | some row =>
        have here := List.find?_some looked
        simp only [Bool.and_eq_true, decide_eq_true_eq] at here
        simp [here.1, same]

/-! ## What every call keeps -/

-- A selected source can be read back.
def Desk.Loaded (desk : Desk Rest Digest) : Prop :=
  ∀ media selection, desk.selection media = some selection → ∃ observation snapshot,
    desk.sources.observation selection.observationId = some observation ∧ snapshotOf observation = some snapshot

-- No selected source is an observation of an object that is rejected for the recording.
def Desk.Clean (desk : Desk Rest Digest) : Prop :=
  ∀ media selection, desk.selection media = some selection → ∃ source,
    desk.source selection.observationId = some source ∧
      source.nativeId ∉ desk.rejections media source.providerId

theorem Desk.Clean.shrunk (clean : desk.Clean) (sources : next.sources = desk.sources)
    (selections : ∀ media, next.selection media = desk.selection media)
    (rejections : ∀ media providerId, ∀ nativeId ∈ next.rejections media providerId,
      nativeId ∈ desk.rejections media providerId) : next.Clean := by
  intro media selection stands
  rw [selections] at stands
  obtain ⟨source, found, free⟩ := clean media selection stands
  refine ⟨source, ?_, fun member => free (rejections _ _ _ member)⟩
  simpa [Desk.source, sources] using found

theorem decided_sources (decides : Decides uuid5 strip desk command actor now next) : next.sources = desk.sources := by
  cases decides with
  | selected first token found free loaded =>
    simp only [Desk.addEvent, Desk.setStatus, Desk.setSelection]
    split <;> rfl
  | _ => rfl

theorem Desk.Loaded.decided (loaded : desk.Loaded) (decides : Decides uuid5 strip desk command actor now next) :
    next.Loaded := by
  have sources := decided_sources decides
  cases decides with
  | @selected reviewed mapping snapshot first token found free chosen =>
    intro media selection stands
    have stands : (desk.setSelection (selectionOf command actor now mapping)).selection media = some selection := stands
    rw [setSelection_selection rfl] at stands
    rw [sources]
    split at stands
    · cases stands
      exact ⟨reviewed.observation, snapshot, found.observation, chosen⟩
    · exact loaded media selection stands
  | _ => exact loaded

theorem Desk.Loaded.read (loaded : desk.Loaded) (media : Uuid) :
    ∃ selection, selectedRecordingSource desk media = .ok selection := by
  unfold selectedRecordingSource
  split
  · exact ⟨none, rfl⟩
  next selection stands =>
    obtain ⟨observation, snapshot, found, parsed⟩ := loaded media selection stands
    simp [found, parsed, orRaise, bind, Except.bind, pure, Except.pure]

theorem add_cases (desk : Desk Rest Digest) (id media observation : Uuid) (evidence : List String) :
    (addCandidate desk id media observation evidence).1 = desk ∨
      (addCandidate desk id media observation evidence =
        ({ desk with candidates := desk.candidates ++ [⟨id, media, observation, .pending, evidence⟩] },
          .ok (some ⟨id, media, observation, .pending, evidence⟩))) := by
  unfold addCandidate
  split
  · split
    · exact .inl rfl
    · split
      · exact .inr rfl
      · exact .inl rfl
  · exact .inl rfl

theorem Desk.Loaded.handled (loaded : desk.Loaded) (call : DeskCall) : (handle uuid5 strip desk call).Loaded := by
  cases call with
  | decide command actor now =>
    unfold handle decideRemoteCandidate
    simp only
    split
    · exact loaded
    next written decides => exact loaded.decided (decided_cases decides)
  | add id media observation evidence =>
    simp only [handle]
    rcases add_cases desk id media observation evidence with same | same
    · rw [same]
      exact loaded
    · rw [same]
      exact loaded

-- Whether the selected source of the recording is another observation of the reviewed object.
def overrules (desk : Desk Rest Digest) (reviewed : Reviewed Rest Digest) : Bool :=
  reviewed.current.any fun row => row.observationId ≠ reviewed.observation.id &&
    (desk.source row.observationId).any fun source =>
      source.providerId = reviewed.source.providerId && source.nativeId = reviewed.source.nativeId

/-- A rejection that passes its checks is of no object that stands selected. -/
def spares (uuid5 : RecordingSelection → Uuid) (strip : String → String) (desk : Desk Rest Digest) : DeskCall → Bool
  | .decide command actor _ =>
      match review strip desk command actor with
      | .error _ => true
      | .ok reviewed => !(command.action = .reject && (desk.event command.decisionId).isNone &&
          desk.token uuid5 command.mediaId = command.expectedSelectionToken && overrules desk reviewed)
  | .add .. => true

theorem Desk.Clean.decided (clean : desk.Clean)
    (spared : spares uuid5 strip desk (.decide command actor now) = true)
    (decides : Decides uuid5 strip desk command actor now next) : next.Clean := by
  cases decides with
  | replayed known same => exact clean
  | @selected reviewed mapping snapshot first token found free loaded =>
    have shrinks : ∀ media providerId, ∀ nativeId ∈ (((desk.setSelection (selectionOf command actor now mapping)).setStatus
        command.mediaId command.observationId .accepted).addEvent command actor (some mapping)).rejections media providerId,
        nativeId ∈ desk.rejections media providerId := by
      intro media providerId nativeId member
      have member : nativeId ∈ ((desk.setSelection (selectionOf command actor now mapping)).setStatus command.mediaId
        command.observationId .accepted).rejections media providerId := member
      have unset := setStatus_rejections (by simp) nativeId member
      unfold Desk.setSelection at unset
      split at unset <;> exact unset
    intro media selection stands
    have stands : (desk.setSelection (selectionOf command actor now mapping)).selection media = some selection := stands
    rw [setSelection_selection rfl] at stands
    have sources : (((desk.setSelection (selectionOf command actor now mapping)).setStatus command.mediaId
        command.observationId .accepted).addEvent command actor (some mapping)).sources = desk.sources := by
      simp only [Desk.addEvent, Desk.setStatus, Desk.setSelection]
      split <;> rfl
    split at stands
    next same =>
      cases stands
      have same : media = command.mediaId := same
      subst same
      refine ⟨reviewed.source, ?_, fun member => free (shrinks _ _ _ member)⟩
      unfold Desk.source
      rw [sources]
      exact found.source_eq
    · obtain ⟨source, known, unrejected⟩ := clean media selection stands
      refine ⟨source, ?_, fun member => unrejected (shrinks _ _ _ member)⟩
      simpa [Desk.source, sources] using known
  | @rejected reviewed first token passed action inactive =>
    have found := review_found passed
    intro media selection stands
    have stands : desk.selection media = some selection := stands
    obtain ⟨source, known, unrejected⟩ := clean media selection stands
    refine ⟨source, known, fun member => ?_⟩
    rcases reject_rejections found.source_eq member with old | ⟨rfl, provider, native⟩
    · exact unrejected old
    · have overruled : overrules desk reviewed = true := by
        simp [overrules, found.current, stands, known, provider, native, found.id, inactive selection stands]
      simp [spares, passed, action, first, token, overruled] at spared
  | reopened first token found =>
    refine clean.shrunk rfl (fun _ => rfl) fun media providerId nativeId member => ?_
    exact reopen_rejections nativeId (setStatus_rejections (by simp) nativeId member)

theorem Desk.Clean.handled (clean : desk.Clean) {call : DeskCall} (spared : spares uuid5 strip desk call = true) :
    (handle uuid5 strip desk call).Clean := by
  cases call with
  | decide command actor now =>
    unfold handle decideRemoteCandidate
    simp only
    split
    · exact clean
    next written decides => exact clean.decided spared (decided_cases decides)
  | add id media observation evidence =>
    simp only [handle]
    rcases add_cases desk id media observation evidence with same | same
    · rw [same]
      exact clean
    · rw [same]
      refine clean.shrunk rfl (fun _ => rfl) fun other providerId => rejections_subset rfl ?_
      intro row member here rejected
      rcases List.mem_append.mp member with old | new
      · exact ⟨row, old, here, rejected, rfl⟩
      · cases List.mem_singleton.mp new
        cases rejected

/-! ## Calls that change nothing -/

theorem raises_unchanged (loaded : desk.Loaded) {call : DeskCall} (raised : raises uuid5 strip desk call = true) :
    handle uuid5 strip desk call = desk := by
  cases call with
  | decide command actor now =>
    cases decides : decided uuid5 strip desk command actor now with
    | error refused => simp [handle, decideRemoteCandidate, decides]
    | ok written =>
      obtain ⟨selection, read⟩ := (loaded.decided (decided_cases decides)).read command.mediaId
      simp [raises, decideRemoteCandidate, decides, read] at raised
  | add id media observation evidence =>
    simp only [raises] at raised
    simp only [handle]
    rcases add_cases desk id media observation evidence with same | same
    · exact same
    · rw [same] at raised
      cases raised

theorem stale_keeps_selections {command : RemoteSourceDecision} {actor : String} {now : Int}
    (stale : desk.token uuid5 command.mediaId ≠ command.expectedSelectionToken) :
    (handle uuid5 strip desk (.decide command actor now)).selections = desk.selections := by
  unfold handle decideRemoteCandidate
  simp only
  split
  · rfl
  next written decides =>
    cases decided_cases decides with
    | replayed known same => rfl
    | selected first token _ _ _ => exact absurd token stale
    | rejected first token _ _ _ => exact absurd token stale
    | reopened first token _ => exact absurd token stale

theorem replay_unchanged {command : RemoteSourceDecision} {actor : String} {now : Int} {previous : SelectionEvent}
    (known : desk.event command.decisionId = some previous) :
    handle uuid5 strip desk (.decide command actor now) = desk := by
  unfold handle decideRemoteCandidate
  simp only
  split
  · rfl
  next written decides =>
    cases decided_cases decides with
    | replayed known same => rfl
    | selected first token _ _ _ => exact absurd (known.symm.trans first) (by simp)
    | rejected first token _ _ _ => exact absurd (known.symm.trans first) (by simp)
    | reopened first token _ => exact absurd (known.symm.trans first) (by simp)

theorem reused_decision_raises {command : RemoteSourceDecision} {actor : String} {now : Int} {previous : SelectionEvent}
    (known : desk.event command.decisionId = some previous) (differs : previous.decisionPayload ≠ (command, actor)) :
    raises uuid5 strip desk (.decide command actor now) = true := by
  unfold raises decideRemoteCandidate
  simp only
  cases decides : decided uuid5 strip desk command actor now with
  | error raised => rfl
  | ok written =>
    cases decided_cases decides with
    | replayed again same =>
      rw [known] at again
      cases again
      exact absurd same differs
    | selected first _ _ _ _ => exact absurd (known.symm.trans first) (by simp)
    | rejected first _ _ _ _ => exact absurd (known.symm.trans first) (by simp)
    | reopened first _ _ => exact absurd (known.symm.trans first) (by simp)

theorem events_once (once : (desk.events.map (·.decisionId)).Nodup) (call : DeskCall) :
    ((handle uuid5 strip desk call).events.map (·.decisionId)).Nodup := by
  have added : ∀ command : RemoteSourceDecision, desk.event command.decisionId = none →
      ((desk.events.map (·.decisionId)) ++ [command.decisionId]).Nodup := by
    intro command first
    refine List.Nodup.append once (List.nodup_singleton _) ?_
    simpa [Desk.event] using first
  cases call with
  | add id media observation evidence =>
    simp only [handle]
    rcases add_cases desk id media observation evidence with same | same
    · rw [same]
      exact once
    · rw [same]
      exact once
  | decide command actor now =>
    unfold handle decideRemoteCandidate
    simp only
    split
    · exact once
    next written decides =>
      cases decided_cases decides with
      | replayed known same => exact once
      | selected first _ _ _ _ =>
        have events : ∀ selection : RecordingSelection, (desk.setSelection selection).events = desk.events := by
          intro selection
          unfold Desk.setSelection
          split <;> rfl
        simpa [Desk.addEvent, Desk.setStatus, events] using added command first
      | rejected first _ _ _ _ => simpa [Desk.addEvent, Desk.setStatus] using added command first
      | reopened first _ _ => simpa [Desk.addEvent, Desk.setStatus, Desk.reopen] using added command first

/-! ## Every run -/

structure Desk.Tidy (desk : Desk Rest Digest) : Prop where
  clean : desk.Clean
  loaded : desk.Loaded
  once : (desk.events.map (·.decisionId)).Nodup

structure Kept (uuid5 : RecordingSelection → Uuid) (strip : String → String) (desk : Desk Rest Digest) : Prop where
  selected : desk.Clean
  raising : ∀ call, raises uuid5 strip desk call = true → handle uuid5 strip desk call = desk
  stale : ∀ (command : RemoteSourceDecision) (actor : String) (now : Int),
    desk.token uuid5 command.mediaId ≠ command.expectedSelectionToken →
      (handle uuid5 strip desk (.decide command actor now)).selections = desk.selections
  once : (desk.events.map (·.decisionId)).Nodup
  replayed : ∀ (command : RemoteSourceDecision) (actor : String) (now : Int) (previous : SelectionEvent),
    desk.event command.decisionId = some previous →
      handle uuid5 strip desk (.decide command actor now) = desk ∧
        (previous.decisionPayload ≠ (command, actor) → raises uuid5 strip desk (.decide command actor now) = true)

def serveCall (uuid5 : RecordingSelection → Uuid) (strip : String → String) (desk : Desk Rest Digest) (call : DeskCall) :
    Option (Desk Rest Digest) :=
  some (handle uuid5 strip desk call)

theorem selected_sources_stay_unrejected {sources : Database Rest Digest} {media : List FileRecord}
    {calls : List DeskCall}
    (spared : Runs.Along (serveCall uuid5 strip) (fun desk call => spares uuid5 strip desk call = true)
      (Desk.opening sources media) calls)
    (ran : Runs.run (serveCall uuid5 strip) (Desk.opening sources media) calls = some desk) :
    Kept uuid5 strip desk := by
  have tidy : desk.Tidy := by
    refine Runs.run_keeps ?_ calls spared ?_ ran
    · intro desk call next tidy spared stepped
      cases stepped
      exact ⟨tidy.clean.handled spared, tidy.loaded.handled call, events_once tidy.once call⟩
    · refine ⟨?_, ?_, List.nodup_nil⟩ <;>
        · intro media selection stands
          cases stands
  exact
    { selected := tidy.clean
      raising := fun call => raises_unchanged tidy.loaded
      stale := fun command actor now => stale_keeps_selections
      once := tidy.once
      replayed := fun command actor now previous known =>
        ⟨replay_unchanged known, reused_decision_raises known⟩ }

end Sound

/-! ## Two observations of one object -/

namespace TwoObservations

def snapshot (parserVersion : String) : SnapshotPayload Unit where
  identity := { providerId := "tracklists", nativeId := "set-1" }
  revision := none
  revisionScope := .unknown
  tracks := [{ position := 1, sectionOrdinal := none, artist := none, title := some "opener" }]
  sections := []
  sectionScanComplete := false
  text := none
  encoding := none
  parserVersion := parserVersion
  completeness := { complete := true, reason := "", evidence := [] }
  rest := ()

def observation (id : Uuid) (parserVersion : String) : ProviderSourceObservation Unit Unit :=
  observationOf
    { identity := (snapshot parserVersion).identity
      payload := .snapshot (snapshot parserVersion)
      status := .outcome .found
      code := "snapshot"
      revision := none
      revisionScope := .unknown
      parserVersion := parserVersion
      decodedText := none
      encoding := none
      truncated := false
      retrievedAt := 0
      sourceUrl := none
      sourceFileId := none
      channel := some .remote
      parentId := none
      snapshot := true }
    () 1 id { conflictWith := none, parentId := none }

def sources : Database Unit Unit where
  files := [5]
  objects :=
    [{ id := 1
       providerId := "tracklists"
       nativeId := "set-1"
       nativeDigest := ()
       sourceFileId := none
       originalFileId := none
       channel := some .remote
       readSeq := 2 }]
  observations := [observation 10 "v1", observation 11 "v2"]
  reads := [⟨1, 1, 10⟩, ⟨1, 2, 11⟩]

def media : List FileRecord :=
  [{ id := 5, sha256Hash := "ab", missing := false, fileType := "mp3" }]

def command (observation decision : Uuid) (action : DecisionAction) (token : Option Uuid) : RemoteSourceDecision where
  mediaId := 5
  observationId := observation
  decisionId := decision
  action := action
  expectedSelectionToken := token
  expectedRevision := none
  expectedMediaSha256 := "ab"
  acceptConflict := false
  textSectionOrdinal := none
  acceptTextWarnings := false
  reason := some "again"

def candidates : List DeskCall :=
  [.add 1 5 10 [], .add 2 5 11 []]

def reviewed : List DeskCall :=
  candidates ++
    [.decide (command 11 100 .reject none) "admin" 0, .decide (command 11 101 .reopen none) "admin" 1,
      .decide (command 10 102 .select none) "admin" 2]

def rejectedUnderSelection : List DeskCall :=
  candidates ++ [.decide (command 10 100 .select none) "admin" 0, .decide (command 11 101 .reject (some 100)) "admin" 1]

abbrev served (calls : List DeskCall) : Option (Desk Unit Unit) :=
  Runs.run (serveCall (fun _ => 0) id) (Desk.opening sources media) calls

theorem reopened_object_is_selected :
    ((served reviewed).bind fun desk => desk.selection 5).isSome = true ∧
      ∀ desk, served reviewed = some desk → Kept (fun _ => 0) id desk :=
  ⟨by decide, fun _ ran => selected_sources_stay_unrejected (by decide) ran⟩

/-- The second observation of a selected object is rejected, and the first stays selected. -/
theorem selected_object_is_rejected : ∃ desk, served rejectedUnderSelection = some desk ∧ ¬ desk.Clean := by
  have rejected : (served rejectedUnderSelection).map (fun desk => (desk.selection 5).map fun selection =>
      (desk.source selection.observationId).map fun source =>
        (desk.rejections 5 source.providerId).contains source.nativeId) = some (some (some true)) := by decide
  obtain ⟨desk, ran, shown⟩ := Option.map_eq_some_iff.mp rejected
  refine ⟨desk, ran, fun clean => ?_⟩
  obtain ⟨selection, stands, known⟩ := Option.map_eq_some_iff.mp shown
  obtain ⟨source, found, free⟩ := clean 5 selection stands
  rw [found] at known
  simp only [Option.map_some, Option.some.injEq, List.contains_iff_mem] at known
  exact free known

end TwoObservations

end Phaze.Provider
