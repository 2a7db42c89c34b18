import Phaze.Drain.Writes

set_option autoImplicit false

/-!
# A dispatch that raises

The tick goes on after a dispatch that raised, in the same transaction and without a savepoint.
What the dispatch wrote before it raised is committed with the rest.
-/

namespace Phaze.Drain

open Phaze.Cloud

variable {File : Type}

-- The candidate as one that the tick holds, where its dispatch would raise.
def heldBack (candidate : Candidate File) : Candidate File :=
  match candidate.failure with
  | some (.raises _) => { candidate with eligible := false, failure := none }
  | _ => candidate

def Event.settled : Event File → Event File
  | .raised file _ => .held file
  | event => event

@[simp]
theorem heldBack_row (candidate : Candidate File) : (heldBack candidate).row = candidate.row := by
  unfold heldBack
  split <;> rfl

@[simp]
theorem heldBack_now (candidate : Candidate File) : (heldBack candidate).now = candidate.now := by
  unfold heldBack
  split <;> rfl

@[simp]
theorem heldBack_budget (candidate : Candidate File) : (heldBack candidate).budget = candidate.budget := by
  unfold heldBack
  split <;> rfl

@[simp]
theorem heldBack_readsRaise (candidate : Candidate File) :
    (heldBack candidate).readsRaise = candidate.readsRaise := by
  unfold heldBack
  split <;> rfl

@[simp]
theorem heldBack_file (candidate : Candidate File) : (heldBack candidate).file = candidate.file := by
  unfold heldBack
  split <;> rfl

@[simp]
theorem heldBack_localOutcome (candidate : Candidate File) :
    (heldBack candidate).localOutcome = candidate.localOutcome := by
  unfold heldBack
  split <;> rfl

/-! ## The tick without the raise -/

section Page

variable (settings : Settings)

theorem stageCloud_settled {candidate : Candidate File} {backend : Backend} (walk : Walk File) (held : Nat)
    (sound : ∀ step, candidate.failure ≠ some (.raises step)) :
    (stageCloud walk candidate backend held).2.settled = (stageCloud walk candidate backend held).2 := by
  unfold stageCloud
  split
  · rfl
  · rfl
  next step failed => exact absurd failed (sound step)
  · rfl

theorem heldBack_of_raises {candidate : Candidate File} {step : Step}
    (failed : candidate.failure = some (.raises step)) : (heldBack candidate).eligible = false := by
  simp [heldBack, failed]

theorem heldBack_of_sound {candidate : Candidate File} (sound : ∀ step, candidate.failure ≠ some (.raises step)) :
    heldBack candidate = candidate := by
  unfold heldBack
  split
  next step failed => exact absurd failed (sound step)
  · rfl

-- Where the raise came before the upsert, the walk is that of a held candidate.
theorem stageCandidate_heldBack (walk : Walk File) (candidate : Candidate File) (held : Nat)
    (early : (stageCandidate settings walk candidate held).2 ≠ .raised candidate.file true) :
    stageCandidate settings walk (heldBack candidate) held =
      ((stageCandidate settings walk candidate held).1,
        (stageCandidate settings walk candidate held).2.settled) := by
  unfold stageCandidate at early ⊢
  simp only [heldBack_readsRaise, heldBack_row, heldBack_now, heldBack_budget, heldBack_file]
  split
  · rfl
  split
  · rfl
  split
  · cases found : candidate.localOutcome <;> simp [stageLocal, found, Event.settled]
  rename_i reads _ backend selected cloud
  simp only [reads, selected, cloud, Bool.false_eq_true, if_false] at early
  by_cases raises : ∃ step, candidate.failure = some (.raises step)
  · obtain ⟨step, failed⟩ := raises
    rw [heldBack_of_raises failed]
    cases eligible : candidate.eligible with
    | false => simp [Event.settled]
    | true =>
      simp only [eligible, if_true] at early
      simp [stageCloud_of_raises walk held cloud failed early, Event.settled]
  · have sound : ∀ step, candidate.failure ≠ some (.raises step) := not_exists.mp raises
    rw [heldBack_of_sound sound]
    cases candidate.eligible with
    | false => simp [Event.settled]
    | true => simp [stageCloud_settled walk held sound]

@[simp]
theorem goesOn_settled (event : Event File) : event.settled.goesOn = event.goesOn := by
  cases event <;> rfl

theorem ending_settled (event : Event File) (last : Bool) :
    event.settled.ending last = (event.ending last).map Event.settled := by
  cases event <;> cases last <;> rfl

theorem stageCandidatePage_heldBack (walk : Walk File) (page : List (Candidate File))
    (early : ∀ file, .raised file true ∉ (stageCandidatePage settings walk page).2) :
    stageCandidatePage settings walk (page.map heldBack) =
      ((stageCandidatePage settings walk page).1,
        (stageCandidatePage settings walk page).2.map Event.settled) := by
  induction page generalizing walk with
  | nil => rfl
  | cons candidate rest ih =>
    rw [stageCandidatePage_cons] at early ⊢
    rw [List.map_cons, stageCandidatePage_cons, List.length_map]
    set staged := stageCandidate settings walk candidate (rest.length + 1) with stagedDefined
    have first : staged.2 ≠ .raised candidate.file true := by
      intro late
      refine early candidate.file ?_
      simp [late, Event.goesOn]
    have same := stageCandidate_heldBack settings walk candidate (rest.length + 1) first
    rw [same, ← stagedDefined]
    cases goes : staged.2.goesOn with
    | true =>
      have later : ∀ file, .raised file true ∉ (stageCandidatePage settings staged.1 rest).2 := by
        intro file member
        refine early file ?_
        simp [goes, member]
      simp [goes, ih staged.1 later]
    | false => simp [goes, ending_settled]

end Page

theorem settled_mem (events : List (Event File)) {event : Event File} (ends : event.file = none) :
    event ∈ events.map Event.settled ↔ event ∈ events := by
  rw [List.mem_map]
  constructor
  · rintro ⟨other, member, same⟩
    cases other <;> cases same <;> first | exact member | cases ends
  · intro member
    refine ⟨event, member, ?_⟩
    cases event <;> first | rfl | cases ends

section Pages

variable [DecidableEq File] (settings : Settings)

theorem nextCandidatePage_settled (walk : Walk File) (events : List (Event File)) (pageLength pageLimit : Nat)
    (last : Bool) :
    nextCandidatePage walk (events.map Event.settled) pageLength pageLimit last =
      nextCandidatePage walk events pageLength pageLimit last := by
  have vanished := settled_mem events (show (Event.vanished : Event File).file = none from rfl)
  have poisoned := settled_mem events (show (Event.poisoned : Event File).file = none from rfl)
  have aborted := settled_mem events (show (Event.aborted : Event File).file = none from rfl)
  simp only [nextCandidatePage, vanished, poisoned, aborted]

theorem walkCandidatePages_heldBack (fuel : Nat) (walk : Walk File) (page : List (Candidate File))
    (pageLimit : Nat) (rest : List (Candidate File))
    (early : ∀ file, .raised file true ∉ (walkCandidatePages settings fuel walk page pageLimit rest).2) :
    walkCandidatePages settings fuel walk (page.map heldBack) pageLimit (rest.map heldBack) =
      ((walkCandidatePages settings fuel walk page pageLimit rest).1,
        (walkCandidatePages settings fuel walk page pageLimit rest).2.map Event.settled) := by
  induction fuel generalizing walk page pageLimit rest with
  | zero => rfl
  | succ fuel ih =>
    rw [walkCandidatePages_succ] at early ⊢
    rw [walkCandidatePages_succ]
    set staged := stageCandidatePage settings { walk with scanned := walk.scanned + page.length } page
      with stagedDefined
    have first : ∀ file, .raised file true ∉ staged.2 := by
      intro file member
      refine early file ?_
      dsimp only
      split <;> simp [member]
    have same := stageCandidatePage_heldBack settings { walk with scanned := walk.scanned + page.length } page first
    rw [List.length_map, List.isEmpty_map, same, ← stagedDefined]
    simp only [nextCandidatePage_settled]
    cases next : nextCandidatePage staged.1 staged.2 page.length pageLimit rest.isEmpty with
    | stop => rfl
    | abort => simp [Event.settled]
    | page limit =>
      simp only [next] at early
      have later := ih staged.1 (rest.take limit) limit (rest.drop limit)
        fun file member => early file (List.mem_append_right _ member)
      simp only [← List.map_take, ← List.map_drop, later, List.map_append]

end Pages

/-! ## The promise of the tick -/

section Promise

variable [DecidableEq File] (settings : Settings)

-- The query locks each candidate once, and it is awaiting.
structure Selected (tick : Tick File) (table : Table File CloudJob) : Prop where
  distinct : (tick.candidates.map Candidate.file).Nodup
  awaiting : ∀ candidate ∈ tick.candidates,
    table.lookup candidate.file = some candidate.row ∧ candidate.row.status = .awaiting

def Tick.heldBack (tick : Tick File) : Tick File :=
  { tick with candidates := tick.candidates.map Drain.heldBack }

-- The transaction was poisoned, or a statement outside the dispatches or the commit raised.
def Tick.Fails (tick : Tick File) : Prop :=
  .poisoned ∈ (tick.walk settings).2 ∨ .aborted ∈ (tick.walk settings).2 ∨ tick.commitRaises = true

/-- The tick keeps a raising candidate's row, fires nothing for it and treats the others as if that
candidate had been held; a tick whose transaction fails changes nothing and fires nothing. -/
structure Isolates (tick : Tick File) (table : Table File CloudJob) : Prop where
  held : ¬ tick.Fails settings →
    (stageCloudWindow settings tick table).table = (stageCloudWindow settings tick.heldBack table).table ∧
    (stageCloudWindow settings tick table).fired = (stageCloudWindow settings tick.heldBack table).fired
  intact : ¬ tick.Fails settings → ∀ file late, .raised file late ∈ (tick.walk settings).2 →
    (stageCloudWindow settings tick table).table.lookup file = table.lookup file ∧
    ∀ kind, (file, kind) ∉ (stageCloudWindow settings tick table).fired
  failed : tick.Fails settings →
    (stageCloudWindow settings tick table).table = table ∧ (stageCloudWindow settings tick table).fired = []

-- No dispatch raises between its upsert and its end, and a poisoned transaction meets another
-- statement before the commit, or a commit that raises, or has nothing parked.
structure Contained (tick : Tick File) : Prop where
  early : ¬ tick.Fails settings → ∀ file, .raised file true ∉ (tick.walk settings).2
  loud : .poisoned ∈ (tick.walk settings).2 → .aborted ∉ (tick.walk settings).2 →
    tick.abortedCommitRaises = true ∨ (tick.walk settings).1.parked = []

variable {settings} {tick : Tick File} {table : Table File CloudJob}

omit [DecidableEq File] in
@[simp]
theorem heldBack_firstPage (tick : Tick File) : tick.heldBack.firstPage = tick.firstPage.map Drain.heldBack := by
  simp [Tick.heldBack, Tick.firstPage, List.map_take]

omit [DecidableEq File] in
@[simp]
theorem heldBack_walks (tick : Tick File) : tick.heldBack.walks = tick.walks := by
  rw [Tick.walks, heldBack_firstPage, List.isEmpty_map]
  rfl

theorem walk_heldBack (early : ∀ file, .raised file true ∉ (tick.walk settings).2) :
    tick.heldBack.walk settings = ((tick.walk settings).1, (tick.walk settings).2.map Event.settled) := by
  unfold Tick.walk at early ⊢
  rw [heldBack_walks, heldBack_firstPage]
  split
  next walks =>
    rw [if_pos walks] at early
    simpa [Tick.heldBack, List.map_drop] using walkCandidatePages_heldBack settings _ _ _ _ _ early
  next => rfl

-- A tick that commits.
theorem stageCloudWindow_of_sound (table : Table File CloudJob) (sound : ¬ tick.Fails settings) :
    (stageCloudWindow settings tick table).table = commitWrites table (tick.walk settings).1.writes ∧
      (stageCloudWindow settings tick table).fired = (tick.walk settings).1.parked := by
  simp only [Tick.Fails, not_or, Bool.not_eq_true] at sound
  obtain ⟨unpoisoned, unaborted, commits⟩ := sound
  unfold stageCloudWindow
  split
  · simp [unpoisoned, unaborted, commits]
  next idle => simp [Tick.walk, idle, Walk.start, commitWrites]

theorem fails_heldBack (early : ∀ file, .raised file true ∉ (tick.walk settings).2) :
    tick.heldBack.Fails settings ↔ tick.Fails settings := by
  have poisoned := settled_mem (tick.walk settings).2 (show (Event.poisoned : Event File).file = none from rfl)
  have aborted := settled_mem (tick.walk settings).2 (show (Event.aborted : Event File).file = none from rfl)
  simp only [Tick.Fails, walk_heldBack early, poisoned, aborted]
  rfl

theorem walk_accounts (sound : ¬ tick.Fails settings) :
    Accounts (tick.walk settings).1 (tick.walk settings).2 := by
  have empty : Accounts (.start tick.slots) ([] : List (Event File)) := by
    constructor <;> simp [Walk.start]
  simp only [Tick.Fails, not_or] at sound
  have unpoisoned := sound.1
  unfold Tick.walk at unpoisoned ⊢
  split
  next walks =>
    rw [if_pos walks] at unpoisoned
    simpa using walkCandidatePages_accounts settings _ empty _ _ _ unpoisoned
  next => exact empty

theorem walk_files (settings : Settings) (tick : Tick File) :
    ((tick.walk settings).2.filterMap Event.file).Sublist (tick.candidates.map Candidate.file) := by
  unfold Tick.walk
  split
  · simpa [Tick.firstPage] using walkCandidatePages_files settings _ (.start tick.slots) tick.firstPage
      (freeSlots tick.slots) (tick.candidates.drop (freeSlots tick.slots))
  · exact List.nil_sublist _

-- Two events of one walk about one file are one event.
theorem event_unique (selected : Selected tick table) {event other : Event File} {file : File}
    (member : event ∈ (tick.walk settings).2) (also : other ∈ (tick.walk settings).2)
    (named : event.file = some file) (alsoNamed : other.file = some file) : event = other := by
  have distinct := (walk_files settings tick).nodup selected.distinct
  rw [List.Nodup, List.pairwise_filterMap] at distinct
  by_contra different
  have symmetric : Std.Symm fun a a' : Event File =>
      ∀ b, a.file = some b → ∀ b', a'.file = some b' → b ≠ b' :=
    ⟨fun _ _ separate _ named _ other => (separate _ other _ named).symm⟩
  exact distinct.forall member also different file named file alsoNamed rfl

theorem selected_of_event (selected : Selected tick table) {event : Event File} {file : File}
    (member : event ∈ (tick.walk settings).2) (named : event.file = some file) :
    ∃ row, table.lookup file = some row ∧ row.status = .awaiting := by
  have listed : file ∈ (tick.walk settings).2.filterMap Event.file :=
    List.mem_filterMap.mpr ⟨event, member, named⟩
  obtain ⟨candidate, queued, rfl⟩ := List.mem_map.mp ((walk_files settings tick).subset listed)
  exact ⟨candidate.row, selected.awaiting candidate queued⟩

-- A failing tick rolls back, whatever its COMMIT answers.
theorem stageCloudWindow_of_fails (table : Table File CloudJob) (fails : tick.Fails settings) :
    (stageCloudWindow settings tick table).table = table ∧
      ((stageCloudWindow settings tick table).fired = [] ∨
        .poisoned ∈ (tick.walk settings).2 ∧ .aborted ∉ (tick.walk settings).2 ∧
          tick.abortedCommitRaises = false ∧
          (stageCloudWindow settings tick table).fired = (tick.walk settings).1.parked) := by
  unfold stageCloudWindow
  split
  next =>
    dsimp only
    split
    next => exact ⟨rfl, .inl rfl⟩
    next unaborted =>
      split
      next poisoned =>
        split
        next => exact ⟨rfl, .inl rfl⟩
        next silent => exact ⟨rfl, .inr ⟨poisoned, unaborted, by simpa using silent, rfl⟩⟩
      next unpoisoned =>
        have raises : tick.commitRaises = true := by
          simpa [Tick.Fails, unpoisoned, unaborted] using fails
        rw [if_pos raises]
        exact ⟨rfl, .inl rfl⟩
  next => exact ⟨rfl, .inl rfl⟩

theorem isolates_of_contained (selected : Selected tick table) (contained : Contained settings tick) :
    Isolates settings tick table := by
  refine ⟨fun sound => ?_, fun sound file late raised => ?_, fun fails => ?_⟩
  · have early := contained.early sound
    have soundHeld : ¬ tick.heldBack.Fails settings := fun fails => sound ((fails_heldBack early).mp fails)
    obtain ⟨rows, fired⟩ := stageCloudWindow_of_sound table sound
    obtain ⟨rowsHeld, firedHeld⟩ := stageCloudWindow_of_sound table soundHeld
    rw [walk_heldBack early] at rowsHeld firedHeld
    exact ⟨rows.trans rowsHeld.symm, fired.trans firedHeld.symm⟩
  · have early := contained.early sound
    have accounts := walk_accounts sound
    obtain ⟨rows, fired⟩ := stageCloudWindow_of_sound table sound
    -- The file has no other event, so neither a write nor a parked enqueue is its own.
    have alone : ¬ (.dispatched file ∈ (tick.walk settings).2 ∨ .raised file true ∈ (tick.walk settings).2) := by
      rintro (dispatched | lateRaise)
      · cases event_unique selected raised dispatched rfl rfl
      · exact early file lateRaise
    constructor
    · rw [rows]
      refine lookup_commitWrites_of_not_mem _ ?_ table
      rintro write member rfl
      exact alone (accounts.writes write member)
    · intro kind member
      rw [fired] at member
      exact alone (accounts.parked (file, kind) member)
  · obtain ⟨rows, fired | ⟨poisoned, unaborted, silent, fired⟩⟩ := stageCloudWindow_of_fails table fails
    · exact ⟨rows, fired⟩
    · have empty := (contained.loud poisoned unaborted).resolve_left (by simp [silent])
      exact ⟨rows, fired.trans empty⟩

theorem contained_of_isolates (selected : Selected tick table) (isolates : Isolates settings tick table) :
    Contained settings tick := by
  refine ⟨fun sound file late => ?_, fun poisoned unaborted => ?_⟩
  · obtain ⟨row, before, awaiting⟩ := selected_of_event selected late rfl
    obtain ⟨rows, -⟩ := stageCloudWindow_of_sound table sound
    have accounts := walk_accounts sound
    obtain ⟨written, member, found⟩ := lookup_commitWrites_of_mem _ (accounts.late file late) table
    have kept := (isolates.intact sound file true late).1
    rw [rows, found, before, Option.some.injEq] at kept
    have flying := accounts.flying (file, written) member
    rw [kept, awaiting] at flying
    cases flying
  · have fails : tick.Fails settings := .inl poisoned
    obtain ⟨-, silent⟩ := isolates.failed fails
    cases raises : tick.abortedCommitRaises with
    | true => exact .inl rfl
    | false =>
      right
      unfold stageCloudWindow at silent
      split at silent
      next => simpa [poisoned, unaborted, raises] using silent
      next idle => simp [Tick.walk, idle] at poisoned

/-- A tick isolates its raising candidates exactly if none of its dispatches raises after the upsert
and a poisoned transaction is noticed before anything parked is fired. -/
theorem tick_isolates_iff (selected : Selected tick table) :
    Isolates settings tick table ↔ Contained settings tick :=
  ⟨contained_of_isolates selected, isolates_of_contained selected⟩

end Promise

/-! ## One tick whose first candidate raises -/

def plainSettings : Settings :=
  { cloudSubmitMaxAttempts := 3
    cloudSpillToLocalAfterSeconds := 3600
    cloudBudgetMaxChains := 0
    cloudBudgetMaxNodeLoss := 0
    cloudBudgetCooldownDays := 0 }

def heldCandidate (file : Nat) (failure : Option Failure) : Candidate Nat :=
  { file := file
    row := .fresh .awaiting 0
    budget := none
    now := 0
    readsRaise := false
    eligible := true
    s3Key := "key"
    upload := "upload"
    bucket := "bucket"
    writtenAt := 0
    failure := failure
    localOutcome := .staged }

def raisingTick (step : Step) : Tick Nat :=
  { enabled := true
    fileserverOnline := true
    slots := [{ backend := { id := "kueue", kind := .kueue, rank := 1, cap := 5 }, available := true, remaining := 5 }]
    candidates := [heldCandidate 1 (some (.raises step)), heldCandidate 2 none]
    commitRaises := false
    abortedCommitRaises := true }

def heldTable : Table Nat CloudJob :=
  ((∅ : Table Nat CloudJob).insert 1 (.fresh .awaiting 0)).insert 2 (.fresh .awaiting 0)

theorem raisingTick_selected (step : Step) : Selected (raisingTick step) heldTable := by
  refine ⟨by simp [raisingTick, heldCandidate], ?_⟩
  simp only [raisingTick, List.mem_cons, List.not_mem_nil, or_false]
  rintro candidate (rfl | rfl)
  · exact ⟨rfl, rfl⟩
  · exact ⟨rfl, rfl⟩

theorem multipart_raise_isolated :
    Isolates plainSettings (raisingTick .multipart) heldTable ∧
      (stageCloudWindow plainSettings (raisingTick .multipart) heldTable).fired = [(2, .kueue)] := by
  refine ⟨(tick_isolates_iff (raisingTick_selected .multipart)).mpr ⟨fun _ file => ?_, ?_⟩, rfl⟩
  · have events : ((raisingTick .multipart).walk plainSettings).2 = [.raised 1 false, .dispatched 2] := rfl
    simp [events]
  · have events : ((raisingTick .multipart).walk plainSettings).2 = [.raised 1 false, .dispatched 2] := rfl
    simp [events]

/-- The queue lookup fails: the row is committed UPLOADING under no backend, and no job uploads for it. -/
theorem queue_raise_commits_row :
    ((stageCloudWindow plainSettings (raisingTick .queue) heldTable).table.lookup 1).map
        (fun row => (row.status, row.uploadId, row.backendId)) = some (.uploading, some "upload", none) ∧
      (stageCloudWindow plainSettings (raisingTick .queue) heldTable).fired = [(2, .kueue)] ∧
      ¬ Isolates plainSettings (raisingTick .queue) heldTable := by
  have events : ((raisingTick .queue).walk plainSettings).2 = [.raised 1 true, .dispatched 2] := rfl
  refine ⟨rfl, rfl, fun isolates => ?_⟩
  have sound : ¬ (raisingTick .queue).Fails plainSettings := by
    have commits : (raisingTick .queue).commitRaises = false := rfl
    simp [Tick.Fails, events, commits]
  have kept := (isolates.intact sound 1 true (by simp [events])).1
  have statuses := congrArg (Option.map CloudJob.status) kept
  cases statuses

end Phaze.Drain
