import Phaze.Analysis.Protocol
import Phaze.Shared.Runs

set_option autoImplicit false

/-!
# What a completed analysis keeps

The write of a result and the report of a failure look at the completion of the row, and a failure with a token
looks at the ledger. A progress callback looks at neither.
-/

namespace Phaze.Analysis

open Runs

variable {Profile : Type} {annotate : List Window → List Window} {buildProfile : List Window → Profile}

/-! ## What one step keeps -/

def AnalysisRow.completed (row : AnalysisRow) : Prop :=
  row.analysisCompletedAt.isSome = true

def AnalysisRow.windowCounts (row : AnalysisRow) : List (Option Nat) :=
  [row.fineWindowsAnalyzed, row.fineWindowsTotal, row.coarseWindowsAnalyzed, row.coarseWindowsTotal]

def Db.windowCounts (db : Db Profile) : Option (List (Option Nat)) :=
  db.analysis.map AnalysisRow.windowCounts

def Db.coarseWorkPercent (db : Db Profile) : Option Nat :=
  db.analysis.bind AnalysisRow.coarseWorkPercent

structure Db.Sound (buildProfile : List Window → Profile) (db : Db Profile) : Prop where
  oneOutcome : ∀ row, db.analysis = some row → row.analysisCompletedAt = none ∨ row.failedAt = none
  projected : ∀ profile, db.setProfile = some profile → profile = buildProfile db.windows

-- A failure with the token of an attempt that is older than the ledger row.
def Stale (db : Db Profile) : Action → Prop
  | .fail _ body _ _ => ∃ token row, body.attemptEnqueuedAt = some token ∧ db.ledger = some row ∧ token < row.enqueuedAt
  | _ => False

-- A progress callback of an attempt whose final PUT has been applied.
def Late (state : State Profile) : Action → Prop
  | .progress attempt _ => attempt ∈ state.finished
  | _ => False

structure Kept (annotate : List Window → List Window) (buildProfile : List Window → Profile) (state : State Profile)
    (action : Action) : Prop where
  sound : (next annotate buildProfile state action).db.Sound buildProfile
  completion : ∀ row, state.db.analysis = some row → row.completed →
    ∃ after, (next annotate buildProfile state action).db.analysis = some after ∧ after.completed ∧ after.failedAt = none
  staleFailure : Stale state.db action → (next annotate buildProfile state action).db = state.db
  lateCounts : Late state action →
    (next annotate buildProfile state action).db.windowCounts = state.db.windowCounts
  latePercent : Late state action → ∀ percent, state.db.coarseWorkPercent = some percent →
    ∃ after, (next annotate buildProfile state action).db.coarseWorkPercent = some after ∧ percent ≤ after

-- The callback carries the counts that the row holds, and restarts no percentage above zero.
def ProgressPayload.repeats (body : ProgressPayload) (row : AnalysisRow) : Prop :=
  row.fineWindowsAnalyzed = some body.fineWindowsAnalyzed ∧ row.fineWindowsTotal = some body.fineWindowsTotal ∧
    (body.coarseWindowsAnalyzed.isSome && body.coarseWindowsTotal.isSome →
      row.coarseWindowsAnalyzed = body.coarseWindowsAnalyzed ∧ row.coarseWindowsTotal = body.coarseWindowsTotal) ∧
    (body.restarts body.coarseWorkPercent → row.coarseWorkPercent.getD 0 = 0)

instance (body : ProgressPayload) (row : AnalysisRow) : Decidable (body.repeats row) :=
  inferInstanceAs (Decidable (_ ∧ _))

def Prompt (state : State Profile) : Action → Prop
  | .progress attempt body => attempt ∈ state.finished → state.db.analysis.any (decide <| body.repeats ·)
  | _ => True

instance (state : State Profile) : (action : Action) → Decidable (Prompt state action)
  | .progress attempt body =>
      inferInstanceAs (Decidable (attempt ∈ state.finished → state.db.analysis.any (decide <| body.repeats ·)))
  | .put .. | .fail .. | .enqueue _ | .surroundings .. => inferInstanceAs (Decidable True)

/-! ## Finalizing and the windows -/

theorem Db.Sound.unfailed {db : Db Profile} (sound : db.Sound buildProfile) {row : AnalysisRow}
    (stored : db.analysis = some row) (completed : row.completed) : row.failedAt = none := by
  refine (sound.oneOutcome row stored).resolve_left fun absent => ?_
  simp [AnalysisRow.completed, absent] at completed

@[simp]
theorem clearLedgerEntry_analysis (db : Db Profile) (probe : Probe) :
    (clearLedgerEntry db probe).analysis = db.analysis := by
  cases probe <;> simp only [clearLedgerEntry]
  split <;> rfl

@[simp]
theorem clearLedgerEntry_windows (db : Db Profile) (probe : Probe) :
    (clearLedgerEntry db probe).windows = db.windows := by
  cases probe <;> simp only [clearLedgerEntry]
  split <;> rfl

@[simp]
theorem clearLedgerEntry_setProfile (db : Db Profile) (probe : Probe) :
    (clearLedgerEntry db probe).setProfile = db.setProfile := by
  cases probe <;> simp only [clearLedgerEntry]
  split <;> rfl

@[simp]
theorem replaceAnalysisWindows_analysis (db : Db Profile) (windows : List Window) (faults : Faults) :
    (replaceAnalysisWindows annotate buildProfile db windows faults).analysis = db.analysis := by
  simp only [replaceAnalysisWindows]
  split
  · rfl
  · split <;> rfl

-- The profile is deleted with the windows it was built from.
theorem replaceAnalysisWindows_projected (db : Db Profile) (windows : List Window) (faults : Faults) (profile : Profile)
    (stored : (replaceAnalysisWindows annotate buildProfile db windows faults).setProfile = some profile) :
    profile = buildProfile (replaceAnalysisWindows annotate buildProfile db windows faults).windows := by
  simp only [replaceAnalysisWindows] at stored ⊢
  split at stored
  · cases stored
  · split at stored
    · cases stored
    · rename_i given intact
      rw [if_neg given, if_neg intact]
      exact (Option.some.inj stored).symm

/-! ## The write of a result -/

-- A row that a write leaves is complete, or it is the row that was there, or an empty one.
theorem putAnalysis_analysis (db : Db Profile) (body : WritePayload) (faults : Faults) (now : Int) (probe : Probe) :
    (putAnalysis annotate buildProfile db body faults now probe).analysis =
      some (if body.dumped = {} then db.analysis.getD {}
        else { (db.analysis.getD {}).setFields body.dumped with
          analysisCompletedAt := some now, coarseWorkPercent := some 100 }) := by
  by_cases empty : body.dumped = {} <;> cases given : body.windows <;>
    simp [putAnalysis, finalizeAnalysisOutcome, empty, given]

theorem putAnalysis_sound {db : Db Profile} (sound : db.Sound buildProfile) (body : WritePayload) (faults : Faults)
    (now : Int) (probe : Probe) : (putAnalysis annotate buildProfile db body faults now probe).Sound buildProfile where
  oneOutcome := by
    intro row written
    rw [putAnalysis_analysis] at written
    cases written
    split
    · cases stored : db.analysis with
      | none => exact .inl rfl
      | some row => exact sound.oneOutcome row stored
    · exact .inr rfl
  projected := by
    intro profile stored
    cases given : body.windows with
    | none =>
      have kept : db.setProfile = some profile := by
        by_cases empty : body.dumped = {} <;>
          simpa [putAnalysis, finalizeAnalysisOutcome, given, empty] using stored
      have built := sound.projected profile kept
      by_cases empty : body.dumped = {} <;>
        simpa [putAnalysis, finalizeAnalysisOutcome, given, empty] using built
    | some windows =>
      by_cases empty : body.dumped = {} <;>
        simp only [putAnalysis, finalizeAnalysisOutcome, given, empty, if_true, if_false,
          clearLedgerEntry_setProfile, clearLedgerEntry_windows] at stored ⊢ <;>
        exact replaceAnalysisWindows_projected _ _ _ _ stored

theorem putAnalysis_completed {db : Db Profile} {row : AnalysisRow} (stored : db.analysis = some row)
    (completed : row.completed) (sound : db.Sound buildProfile) (body : WritePayload) (faults : Faults) (now : Int)
    (probe : Probe) :
    ∃ after, (putAnalysis annotate buildProfile db body faults now probe).analysis = some after ∧ after.completed ∧
      after.failedAt = none := by
  refine ⟨_, putAnalysis_analysis .., ?_⟩
  split
  · rw [stored]
    exact ⟨completed, sound.unfailed stored completed⟩
  · exact ⟨rfl, rfl⟩

/-! ## A failure -/

-- A failure whose token does not fit the ledger changes nothing; another one stamps only a row that is not complete.
theorem reportAnalysisFailed_cases (db : Db Profile) (body : FailurePayload) (now : Int) (probe : Probe) :
    reportAnalysisFailed db body now probe = db ∨
      ((reportAnalysisFailed db body now probe).analysis =
          some ((db.analysis.getD {}).failed now (errorMessage body)) ∧
        (reportAnalysisFailed db body now probe).windows = db.windows ∧
        (reportAnalysisFailed db body now probe).setProfile = db.setProfile) := by
  simp only [reportAnalysisFailed]
  split
  · cases body.attemptEnqueuedAt with
    | none => exact .inr (by simp [finalizeAnalysisOutcome])
    | some token => exact .inr (by simp [finalizeAnalysisOutcome, markAnalysisAttemptTerminal])
  · exact .inl rfl

theorem AnalysisRow.failed_oneOutcome {row : AnalysisRow} (one : row.analysisCompletedAt = none ∨ row.failedAt = none)
    (now : Int) (message : String) :
    (row.failed now message).analysisCompletedAt = none ∨ (row.failed now message).failedAt = none := by
  cases completed : row.analysisCompletedAt with
  | none => exact .inl (by simp [AnalysisRow.failed, completed])
  | some instant => exact .inr (by simpa [AnalysisRow.failed, completed] using one)

theorem AnalysisRow.failed_of_completed {row : AnalysisRow} (completed : row.completed) (now : Int) (message : String) :
    row.failed now message = row :=
  if_neg (by simpa [AnalysisRow.completed, Option.isSome_iff_ne_none] using completed)

theorem reportAnalysisFailed_sound {db : Db Profile} (sound : db.Sound buildProfile) (body : FailurePayload) (now : Int)
    (probe : Probe) : (reportAnalysisFailed db body now probe).Sound buildProfile := by
  rcases reportAnalysisFailed_cases db body now probe with same | ⟨analysis, windows, setProfile⟩
  · rwa [same]
  · constructor
    next =>
      intro row written
      rw [analysis] at written
      cases written
      refine AnalysisRow.failed_oneOutcome ?_ ..
      cases stored : db.analysis with
      | none => exact .inl rfl
      | some row => exact sound.oneOutcome row stored
    next =>
      rw [setProfile, windows]
      exact sound.projected

theorem reportAnalysisFailed_completed {db : Db Profile} {row : AnalysisRow} (stored : db.analysis = some row)
    (completed : row.completed) (body : FailurePayload) (now : Int) (probe : Probe) :
    (reportAnalysisFailed db body now probe).analysis = some row := by
  rcases reportAnalysisFailed_cases db body now probe with same | ⟨analysis, -, -⟩
  · rw [same, stored]
  · rw [analysis, stored, Option.getD_some, AnalysisRow.failed_of_completed completed]

theorem reportAnalysisFailed_stale {db : Db Profile} {body : FailurePayload} {token : Int} {row : Ledger}
    (given : body.attemptEnqueuedAt = some token) (stored : db.ledger = some row) (older : token < row.enqueuedAt)
    (now : Int) (probe : Probe) : reportAnalysisFailed db body now probe = db := by
  have differs : row.enqueuedAt ≠ token := older.ne'
  simp [reportAnalysisFailed, given, analysisFailureAckMatches, stored, differs]

/-! ## Progress -/

theorem postAnalysisProgress_sound {db : Db Profile} (sound : db.Sound buildProfile) (body : ProgressPayload) :
    (postAnalysisProgress db body).Sound buildProfile where
  oneOutcome := by
    intro row written
    cases stored : db.analysis with
    | none =>
      simp only [postAnalysisProgress, stored, Option.some.injEq] at written
      exact .inl (by simp [← written, ProgressPayload.inserted])
    | some old =>
      simp only [postAnalysisProgress, stored, Option.some.injEq] at written
      simpa [← written, AnalysisRow.progressed] using sound.oneOutcome old stored
  projected := sound.projected

theorem le_greatest {stored incoming : Option Nat} {percent : Nat} (present : stored = some percent) :
    ∃ after, greatest stored incoming = some after ∧ percent ≤ after := by
  subst present
  cases incoming with
  | none => exact ⟨percent, rfl, le_refl percent⟩
  | some incoming => exact ⟨_, rfl, le_max_left ..⟩

theorem progressed_counts_iff (row : AnalysisRow) (body : ProgressPayload) :
    (row.progressed body).windowCounts = row.windowCounts ↔
      row.fineWindowsAnalyzed = some body.fineWindowsAnalyzed ∧ row.fineWindowsTotal = some body.fineWindowsTotal ∧
        (body.coarseWindowsAnalyzed.isSome && body.coarseWindowsTotal.isSome →
          row.coarseWindowsAnalyzed = body.coarseWindowsAnalyzed ∧ row.coarseWindowsTotal = body.coarseWindowsTotal) := by
  by_cases coarse : (body.coarseWindowsAnalyzed.isSome && body.coarseWindowsTotal.isSome) = true
  · simp only [AnalysisRow.progressed, AnalysisRow.windowCounts, coarse, if_true, List.cons.injEq, and_true,
      forall_const]
    grind
  · simp only [AnalysisRow.progressed, AnalysisRow.windowCounts, coarse, List.cons.injEq]
    grind

theorem progressed_percent_iff (row : AnalysisRow) (body : ProgressPayload) :
    (∀ percent, row.coarseWorkPercent = some percent →
      ∃ after, (row.progressed body).coarseWorkPercent = some after ∧ percent ≤ after) ↔
      (body.restarts body.coarseWorkPercent → row.coarseWorkPercent.getD 0 = 0) := by
  by_cases restarted : body.restarts body.coarseWorkPercent = true
  · cases stored : row.coarseWorkPercent <;> simp [AnalysisRow.progressed, restarted]
  · simp only [AnalysisRow.progressed, restarted]
    simpa using fun percent stored => le_greatest stored

theorem postAnalysisProgress_iff (db : Db Profile) (body : ProgressPayload) :
    ((postAnalysisProgress db body).windowCounts = db.windowCounts ∧
      ∀ percent, db.coarseWorkPercent = some percent →
        ∃ after, (postAnalysisProgress db body).coarseWorkPercent = some after ∧ percent ≤ after) ↔
      db.analysis.any (decide <| body.repeats ·) = true := by
  cases stored : db.analysis with
  | none => simp [postAnalysisProgress, Db.windowCounts, stored]
  | some row =>
    simp only [postAnalysisProgress, Db.windowCounts, Db.coarseWorkPercent, stored, Option.map_some, Option.bind_some,
      Option.some.injEq, Option.any_some, decide_eq_true_eq]
    rw [progressed_counts_iff, progressed_percent_iff, ProgressPayload.repeats]
    tauto

theorem postAnalysisProgress_completed {db : Db Profile} {row : AnalysisRow} (sound : db.Sound buildProfile)
    (stored : db.analysis = some row) (completed : row.completed) (body : ProgressPayload) :
    ∃ after, (postAnalysisProgress db body).analysis = some after ∧ after.completed ∧ after.failedAt = none := by
  have unfailed := sound.unfailed stored completed
  exact ⟨row.progressed body, by simp [postAnalysisProgress, stored], completed, unfailed⟩

/-! ## Runs -/

theorem next_sound {state : State Profile} (sound : state.db.Sound buildProfile) (action : Action) :
    (next annotate buildProfile state action).db.Sound buildProfile := by
  cases action with
  | put attempt isFinal body faults now probe => exact putAnalysis_sound sound body faults now probe
  | progress attempt body => exact postAnalysisProgress_sound sound body
  | fail attempt body now probe => exact reportAnalysisFailed_sound sound body now probe
  | enqueue instant => exact ⟨sound.oneOutcome, sound.projected⟩
  | surroundings queued awaiting => exact ⟨sound.oneOutcome, sound.projected⟩

theorem next_completed {state : State Profile} (sound : state.db.Sound buildProfile) (action : Action)
    {row : AnalysisRow} (stored : state.db.analysis = some row) (completed : row.completed) :
    ∃ after, (next annotate buildProfile state action).db.analysis = some after ∧ after.completed ∧
      after.failedAt = none := by
  cases action with
  | put attempt isFinal body faults now probe => exact putAnalysis_completed stored completed sound body faults now probe
  | progress attempt body => exact postAnalysisProgress_completed sound stored completed body
  | fail attempt body now probe =>
    exact ⟨row, reportAnalysisFailed_completed stored completed body now probe, completed,
      sound.unfailed stored completed⟩
  | enqueue instant => exact ⟨row, stored, completed, sound.unfailed stored completed⟩
  | surroundings queued awaiting => exact ⟨row, stored, completed, sound.unfailed stored completed⟩

theorem kept_iff {state : State Profile} (sound : state.db.Sound buildProfile) (action : Action) :
    Kept annotate buildProfile state action ↔ Prompt state action := by
  constructor
  · intro kept
    cases action with
    | progress attempt body =>
      exact fun late => (postAnalysisProgress_iff state.db body).mp ⟨kept.lateCounts late, kept.latePercent late⟩
    | put attempt isFinal body faults now probe => trivial
    | fail attempt body now probe => trivial
    | enqueue instant => trivial
    | surroundings queued awaiting => trivial
  · intro prompt
    refine ⟨next_sound sound action, fun row => next_completed sound action, fun stale => ?_, fun late => ?_,
      fun late => ?_⟩
    · cases action with
      | fail attempt body now probe =>
        obtain ⟨token, row, given, stored, older⟩ := stale
        exact reportAnalysisFailed_stale given stored older now probe
      | _ => exact stale.elim
    · cases action with
      | progress attempt body => exact ((postAnalysisProgress_iff state.db body).mpr (prompt late)).1
      | _ => exact late.elim
    · cases action with
      | progress attempt body => exact ((postAnalysisProgress_iff state.db body).mpr (prompt late)).2
      | _ => exact late.elim

theorem kept_along_iff {state : State Profile} (sound : state.db.Sound buildProfile) (actions : List Action) :
    Along (step annotate buildProfile) (Kept annotate buildProfile) state actions ↔
      Along (step annotate buildProfile) Prompt state actions := by
  induction actions generalizing state with
  | nil => exact Iff.rfl
  | cons action rest ih => exact and_congr (kept_iff sound action) (ih (next_sound sound action))

theorem run_sound {state : State Profile} (sound : state.db.Sound buildProfile) (actions : List Action) :
    ∃ final, run (step annotate buildProfile) state actions = some final ∧ final.db.Sound buildProfile := by
  induction actions generalizing state with
  | nil => exact ⟨state, rfl, sound⟩
  | cons action rest ih =>
    obtain ⟨final, ran, kept⟩ := ih (next_sound sound action)
    exact ⟨final, run_cons.mpr ⟨_, rfl, ran⟩, kept⟩

theorem empty_sound : ({} : Db Profile).Sound buildProfile where
  oneOutcome := by simp
  projected := by simp

/-- Every run ends with one outcome and the profile of its windows, and all its steps keep the outcome of the
analysis if and only if no late progress callback carries other counts or a restart. -/
theorem analyses_keep_their_outcome (annotate : List Window → List Window) (buildProfile : List Window → Profile)
    (actions : List Action) :
    ∃ final, run (step annotate buildProfile) {} actions = some final ∧ final.db.Sound buildProfile ∧
      (Along (step annotate buildProfile) (Kept annotate buildProfile) {} actions ↔
        Along (step annotate buildProfile) Prompt {} actions) := by
  have start : ({} : State Profile).db.Sound buildProfile := empty_sound
  obtain ⟨final, ran, sound⟩ := run_sound start actions
  exact ⟨final, ran, sound, kept_along_iff start actions⟩

/-! ## A repeated start -/

namespace RepeatedStart

def start : ProgressPayload :=
  { fineWindowsAnalyzed := 0, fineWindowsTotal := 10, coarseWindowsAnalyzed := some 0, coarseWindowsTotal := some 2,
    coarseWorkPercent := some 0 }

def result : WritePayload :=
  { fields :=
      { bpm := some (some "128"), fineWindowsAnalyzed := some (some 10), fineWindowsTotal := some (some 10),
        coarseWindowsAnalyzed := some (some 2), coarseWindowsTotal := some (some 2) } }

def delivered : List Action :=
  [.progress 1 start, .put 1 true result {} 100 .answered]

def completed : State Unit :=
  next id (fun _ => ()) (next id (fun _ => ()) {} (.progress 1 start)) (.put 1 true result {} 100 .answered)

/-- The start callback of the attempt that has completed the row is applied once more: the row reads as ten fine
windows of which none was analysed, at zero percent. -/
theorem repeated_start_resets_the_counts :
    run (step id fun _ => ()) {} delivered = some completed ∧ completed.finished = [1] ∧
      completed.db.windowCounts = some [some 10, some 10, some 2, some 2] ∧
      (next id (fun _ => ()) completed (.progress 1 start)).db.windowCounts = some [some 0, some 10, some 0, some 2] ∧
      (next id (fun _ => ()) completed (.progress 1 start)).db.coarseWorkPercent = some 0 ∧
      ¬ Along (step id fun _ => ()) (Kept id fun _ => ()) {} (delivered ++ [.progress 1 start]) := by
  refine ⟨rfl, by decide, by decide, by decide, by decide, fun kept => ?_⟩
  have late : Kept id (fun _ => ()) completed (.progress 1 start) := (kept.tail rfl |>.tail rfl).head
  have applied : 1 ∈ completed.finished := by decide
  exact absurd (late.lateCounts applied) (by decide)

end RepeatedStart

end Phaze.Analysis
