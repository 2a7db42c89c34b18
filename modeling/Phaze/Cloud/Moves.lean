import Phaze.Cloud.Reconcile

set_option autoImplicit false

/-!
# What one reconcile tick can do

`Move` says it once, by the budget a tick touches; the runs below it ask nothing more of `reconcileOne`.
-/

namespace Phaze.Cloud

open Phaze.Staging (CloudJobStatus)

section Columns

variable (old new : CloudJob) (now : Int)

theorem commitRow_column {Column : Type} (column : CloudJob → Column)
    (other : column { new with updatedAt := now } = column new) :
    column (commitRow old new now) = column new := by
  unfold commitRow
  split
  · rename_i same
    rw [same]
  · exact other

@[simp] theorem commitRow_status : (commitRow old new now).status = new.status := commitRow_column _ _ _ (·.status) rfl
@[simp] theorem commitRow_attempts : (commitRow old new now).attempts = new.attempts :=
  commitRow_column _ _ _ (·.attempts) rfl
@[simp] theorem commitRow_nodeLossRedrives : (commitRow old new now).nodeLossRedrives = new.nodeLossRedrives :=
  commitRow_column _ _ _ (·.nodeLossRedrives) rfl
@[simp] theorem commitRow_nodeLossPending : (commitRow old new now).nodeLossPending = new.nodeLossPending :=
  commitRow_column _ _ _ (·.nodeLossPending) rfl
@[simp] theorem commitRow_kueueWorkload : (commitRow old new now).kueueWorkload = new.kueueWorkload :=
  commitRow_column _ _ _ (·.kueueWorkload) rfl
@[simp] theorem commitRow_redriveAfter : (commitRow old new now).redriveAfter = new.redriveAfter :=
  commitRow_column _ _ _ (·.redriveAfter) rfl
@[simp] theorem commitRow_lastExitCode : (commitRow old new now).lastExitCode = new.lastExitCode :=
  commitRow_column _ _ _ (·.lastExitCode) rfl
@[simp] theorem commitRow_backendId : (commitRow old new now).backendId = new.backendId :=
  commitRow_column _ _ _ (·.backendId) rfl
@[simp] theorem commitRow_telemetrySlot : (commitRow old new now).telemetrySlot = new.telemetrySlot :=
  commitRow_column _ _ _ (·.telemetrySlot) rfl

end Columns

-- The node loss this tick's reading of the pods proves, on the branches that ask the pods.
def classifiedNodeLoss (row : CloudJob) (seen : Observation) : Option String :=
  if seen.analysisCompleted then none
  else
    match row.job, seen.job, seen.workload with
    | some _, some .failed, _ => seen.nodeLossReason
    | some _, some .inFlight, some .evicted => seen.nodeLossReason
    | some _, some .inFlight, some .admitted | some _, some .inFlight, some .quotaReserved =>
        seen.wedge.bind fun wedge => if wedge.nodeLoss then some wedge.reason else none
    | _, _, _ => none

-- An exit code read from the pods now, or on record from an earlier tick.
def Exited (row : CloudJob) (seen : Observation) (code : Int) : Prop :=
  row.lastExitCode = some code ∨ ∃ failure, seen.failure = some failure ∧ failure.exitCode = some code

def Unreachable (row : CloudJob) (seen : Observation) : Prop := Exited row seen controlPlaneUnreachable

structure Unspent (row : CloudJob) (out : Outcome) : Prop where
  attempts : out.row.attempts = row.attempts
  nodeLossRedrives : out.row.nodeLossRedrives = row.nodeLossRedrives
  redriven : out.redriven = none
  spilled : out.spilled = none

/-- Everything a tick can do to the row, by the budget it touches. -/
inductive Move (settings : Settings) (row : CloudJob) (seen : Observation) (out : Outcome) : Prop
  | held (unspent : Unspent row out) (enqueued : out.enqueued = false)
      (pending : out.row.nodeLossPending = row.nodeLossPending)
      (workload : out.row.kueueWorkload = row.kueueWorkload) (after : out.row.redriveAfter = row.redriveAfter)
      (status : out.row.status = row.status ∨ out.row.status = .running ∧ row.job.isSome)
      (quiet : classifiedNodeLoss row seen = none)
  | resumed (unspent : Unspent row out) (enqueued : out.enqueued = true)
      (pending : out.row.nodeLossPending = row.nodeLossPending)
      (workload : out.row.kueueWorkload = row.kueueWorkload) (nameless : row.job = none)
      (waited : row.redriveAfter.isSome) (after : out.row.redriveAfter = none)
      (status : out.row.status = row.status) (quiet : classifiedNodeLoss row seen = none)
  | finished (unspent : Unspent row out) (enqueued : out.enqueued = false)
      (pending : out.row.nodeLossPending = row.nodeLossPending)
      (workload : out.row.kueueWorkload = row.kueueWorkload) (after : out.row.redriveAfter = row.redriveAfter)
      (status : out.row.status = .succeeded) (quiet : classifiedNodeLoss row seen = none)
  | deferred (unspent : Unspent row out) (enqueued : out.enqueued = false) (named : row.job.isSome)
      (pending : out.row.nodeLossPending = (classifiedNodeLoss row seen).or row.nodeLossPending ∨
        Unreachable row seen ∧ out.row.nodeLossPending = none)
      (workload : out.row.kueueWorkload = row.kueueWorkload) (after : out.row.redriveAfter = row.redriveAfter)
      (status : out.row.status = row.status)
  | charged (spilled : out.spilled = none)
      (budget :
        if ((classifiedNodeLoss row seen).or row.nodeLossPending).isSome then
          out.redriven = some .nodeLossRedrives ∧ out.row.attempts = row.attempts ∧
            out.row.nodeLossRedrives = row.nodeLossRedrives + 1 ∧
            out.row.nodeLossRedrives ≤ settings.cloudNodeLossMaxRedrives
        else
          out.redriven = some .attempts ∧ out.row.attempts = row.attempts + 1 ∧
            out.row.nodeLossRedrives = row.nodeLossRedrives ∧
            out.row.attempts ≤ settings.cloudSubmitMaxAttempts)
      (status : out.row.status = .submitted) (pending : out.row.nodeLossPending = none)
      (workload : out.row.kueueWorkload = none)
      (after : out.enqueued = true ∧ out.row.redriveAfter = row.redriveAfter ∨
        out.enqueued = false ∧ out.row.redriveAfter.isSome)
  | uncharged (unreachable : Unreachable row seen) (spilled : out.spilled = none)
      (redriven : out.redriven = some .uncharged) (attempts : out.row.attempts = row.attempts)
      (losses : out.row.nodeLossRedrives = row.nodeLossRedrives)
      (status : out.row.status = .submitted) (workload : out.row.kueueWorkload = none)
      (enqueued : out.enqueued = true)
  | spilt (attempts : Nat)
      (ceiling : attempts = settings.cloudSubmitMaxAttempts ∨ Unreachable row seen ∧ attempts = row.attempts)
      (redriven : out.redriven = none) (enqueued : out.enqueued = false)
      (losses : out.row.nodeLossRedrives = row.nodeLossRedrives)
      (pending : out.row.nodeLossPending = none) (after : out.row.redriveAfter = none)
      (workload : out.row.kueueWorkload = row.kueueWorkload)
      (written : if row.status = .submitted ∨ row.status = .running then
          out.spilled = some attempts ∧ out.row.status = .awaiting ∧ out.row.attempts = attempts
        else out.spilled = none ∧ out.row.status = row.status ∧ out.row.attempts = row.attempts)

section Moves

variable {settings : Settings} {row : CloudJob} {seen : Observation}

theorem recordSuccess_move (quiet : classifiedNodeLoss row seen = none) :
    Move settings row seen (recordSuccess row seen) :=
  .finished ⟨by simp [recordSuccess], by simp [recordSuccess], rfl, rfl⟩ rfl (by simp [recordSuccess])
    (by simp [recordSuccess]) (by simp [recordSuccess]) (by simp [recordSuccess]) quiet

theorem hold_move {row' : CloudJob} (attempts : row'.attempts = row.attempts)
    (losses : row'.nodeLossRedrives = row.nodeLossRedrives) (pending : row'.nodeLossPending = row.nodeLossPending)
    (workload : row'.kueueWorkload = row.kueueWorkload) (after : row'.redriveAfter = row.redriveAfter)
    (status : row'.status = row.status ∨ row'.status = .running ∧ row.job.isSome)
    (quiet : classifiedNodeLoss row seen = none) : Move settings row seen (hold row seen row') :=
  .held ⟨by simpa [hold], by simpa [hold], rfl, rfl⟩ rfl (by simpa [hold]) (by simpa [hold]) (by simpa [hold])
    (by simpa [hold]) quiet

theorem spillToAwaiting_move {attempts : Nat} {failure : TerminalFailure}
    (ceiling : attempts = settings.cloudSubmitMaxAttempts ∨ Unreachable row seen ∧ attempts = row.attempts) :
    Move settings row seen (spillToAwaiting row seen attempts failure) := by
  by_cases live : row.status = .submitted ∨ row.status = .running
  · have written : spillAwaiting row attempts [.submitted, .running] none true seen.now =
        some { row with status := .awaiting, attempts := attempts, cloudPhase := none, updatedAt := seen.now } := by
      simp [spillAwaiting, live]
    exact .spilt attempts ceiling rfl rfl (by simp [spillToAwaiting, written, recordFailure])
      (by simp [spillToAwaiting, recordFailure]) (by simp [spillToAwaiting, recordFailure])
      (by simp [spillToAwaiting, written, recordFailure])
      (by simp [spillToAwaiting, written, recordFailure, live])
  · have missed : spillAwaiting row attempts [.submitted, .running] none true seen.now = none := by
      simp [spillAwaiting, live]
    exact .spilt attempts ceiling rfl rfl (by simp [spillToAwaiting, missed, recordFailure])
      (by simp [spillToAwaiting, recordFailure]) (by simp [spillToAwaiting, recordFailure])
      (by simp [spillToAwaiting, missed, recordFailure])
      (by simp [spillToAwaiting, missed, recordFailure, live])

theorem redriveUnderCeiling_deferred {name : Option String} {nextAttempt backoff : Nat} {budget : Budget}
    {effective : Option String} {failure : TerminalFailure} (named : name.isSome) (there : seen.jobGone = false) :
    redriveUnderCeiling row seen name nextAttempt budget effective failure backoff =
      { row := commitRow row (recordFailure { row with nodeLossPending := effective } failure none) seen.now
        enqueued := false
        spilled := none
        redriven := none } := by
  simp [redriveUnderCeiling, named, there]

theorem holdControlPlaneUnreachable_move {failure : TerminalFailure} (unreachable : Unreachable row seen) :
    Move settings row seen (holdControlPlaneUnreachable row seen row.job failure) := by
  unfold holdControlPlaneUnreachable
  split
  · by_cases waits : row.job.isSome ∧ seen.jobGone = false
    · rw [redriveUnderCeiling_deferred waits.1 waits.2]
      exact .deferred ⟨by simp [recordFailure], by simp [recordFailure], rfl, rfl⟩ rfl waits.1
        (.inr ⟨unreachable, by simp [recordFailure]⟩) (by simp [recordFailure]) (by simp [recordFailure])
        (by simp [recordFailure])
    · have gone : ¬ (row.job.isSome ∧ ¬ seen.jobGone = true) := by simpa using waits
      unfold redriveUnderCeiling
      rw [if_neg gone]
      exact .uncharged unreachable rfl rfl (by simp [recordFailure]) (by simp [recordFailure])
        (by simp [recordFailure]) (by simp [recordFailure]) rfl
  · exact spillToAwaiting_move (.inr ⟨unreachable, rfl⟩)

theorem effectiveFailure_unreachable {failure : TerminalFailure}
    (code : (effectiveFailure row failure).exitCode = some controlPlaneUnreachable)
    (observed : failure.exitCode = some controlPlaneUnreachable → Unreachable row seen) :
    Unreachable row seen := by
  unfold effectiveFailure at code
  split at code
  · exact .inl code
  · exact observed code

theorem redriveUnderCeiling_nodeLoss {failure : TerminalFailure} {reason : String} {backoff : Nat}
    (effective : (classifiedNodeLoss row seen).or row.nodeLossPending = some reason)
    (under : row.nodeLossRedrives + 1 ≤ settings.cloudNodeLossMaxRedrives) :
    Move settings row seen (redriveUnderCeiling row seen row.job (row.nodeLossRedrives + 1) .nodeLossRedrives
      (some reason) failure backoff) := by
  by_cases waits : row.job.isSome ∧ seen.jobGone = false
  · rw [redriveUnderCeiling_deferred waits.1 waits.2]
    exact .deferred ⟨by simp [recordFailure], by simp [recordFailure], rfl, rfl⟩ rfl waits.1
      (.inl (by simp [recordFailure, effective])) (by simp [recordFailure]) (by simp [recordFailure])
      (by simp [recordFailure])
  · by_cases backs : 0 < backoff
    · refine .charged ?_ ?_ ?_ ?_ ?_ (.inr ?_) <;>
        simp [redriveUnderCeiling, waits, backs, recordFailure, effective, under]
    · refine .charged ?_ ?_ ?_ ?_ ?_ (.inl ?_) <;>
        simp [redriveUnderCeiling, waits, backs, recordFailure, effective, under]

theorem redriveUnderCeiling_attempts {failure : TerminalFailure} {backoff : Nat}
    (effective : (classifiedNodeLoss row seen).or row.nodeLossPending = none)
    (under : row.attempts + 1 ≤ settings.cloudSubmitMaxAttempts) :
    Move settings row seen (redriveUnderCeiling row seen row.job (row.attempts + 1) .attempts none failure
      backoff) := by
  by_cases waits : row.job.isSome ∧ seen.jobGone = false
  · rw [redriveUnderCeiling_deferred waits.1 waits.2]
    exact .deferred ⟨by simp [recordFailure], by simp [recordFailure], rfl, rfl⟩ rfl waits.1
      (.inl (by simp [recordFailure, effective])) (by simp [recordFailure]) (by simp [recordFailure])
      (by simp [recordFailure])
  · by_cases backs : 0 < backoff
    · refine .charged ?_ ?_ ?_ ?_ ?_ (.inr ?_) <;>
        simp [redriveUnderCeiling, waits, backs, recordFailure, effective, under]
    · refine .charged ?_ ?_ ?_ ?_ ?_ (.inl ?_) <;>
        simp [redriveUnderCeiling, waits, backs, recordFailure, effective, under]

theorem handleNoCallbackTerminal_move {failure : TerminalFailure} {nodeLossReason : Option String}
    (observed : failure.exitCode = some controlPlaneUnreachable → Unreachable row seen)
    (classified : nodeLossReason = classifiedNodeLoss row seen) :
    Move settings row seen (handleNoCallbackTerminal settings row seen row.job failure nodeLossReason) := by
  subst classified
  by_cases code : (effectiveFailure row failure).exitCode = some controlPlaneUnreachable
  · simp only [handleNoCallbackTerminal, code, if_true]
    exact holdControlPlaneUnreachable_move (effectiveFailure_unreachable code observed)
  · cases effective : (classifiedNodeLoss row seen).or row.nodeLossPending with
    | some reason =>
      simp only [handleNoCallbackTerminal, code, if_false, effective, Option.isSome_some, if_true]
      split
      · exact spillToAwaiting_move (.inl rfl)
      · exact redriveUnderCeiling_nodeLoss effective (by omega)
    | none =>
      simp only [handleNoCallbackTerminal, code, if_false, effective, Option.isSome_none, Bool.false_eq_true]
      split
      · exact spillToAwaiting_move (.inl rfl)
      · exact redriveUnderCeiling_attempts effective (by omega)

theorem finalizeOrRedrive_move {marker : String} {probes : Bool}
    (classified : seen.analysisCompleted = false →
      (if probes ∧ row.job.isSome then seen.nodeLossReason else none) = classifiedNodeLoss row seen) :
    Move settings row seen (finalizeOrRedrive settings row seen row.job marker probes) := by
  unfold finalizeOrRedrive
  by_cases completed : seen.analysisCompleted
  · rw [if_pos completed]
    exact recordSuccess_move (by simp [classifiedNodeLoss, completed])
  · rw [if_neg completed]
    have classified := classified (by simpa using completed)
    split
    · rename_i probed
      rw [if_pos probed] at classified
      refine handleNoCallbackTerminal_move ?_ classified
      intro code
      cases failure : seen.failure with
      | none => simp [failure] at code
      | some observed => exact .inr ⟨observed, failure, by simpa [failure] using code⟩
    · rename_i unprobed
      rw [if_neg unprobed] at classified
      exact handleNoCallbackTerminal_move (by simp) classified

theorem terminalizeIfWedged_move {name : String} {out : Outcome} (named : row.job = some name)
    (classified : (seen.wedge.bind fun wedge => if wedge.nodeLoss then some wedge.reason else none) =
      classifiedNodeLoss row seen)
    (wedged : terminalizeIfWedged settings row seen name = some out) : Move settings row seen out := by
  unfold terminalizeIfWedged at wedged
  cases wedge : seen.wedge with
  | none => simp [wedge] at wedged
  | some found =>
    simp only [wedge, Option.ite_none_left_eq_some, Option.some.injEq] at wedged
    obtain ⟨-, rfl⟩ := wedged
    rw [← named]
    refine handleNoCallbackTerminal_move ?_ (by simpa [wedge] using classified)
    intro code
    split at code
    · rename_i exit reason failure
      exact .inr ⟨_, failure, code⟩
    · simp at code

theorem advanceAdmitted_move {name : String} {phase : CloudPhase} (named : row.job = some name)
    (inFlight : seen.job = some .inFlight)
    (admitted : seen.workload = some .admitted ∨ seen.workload = some .quotaReserved) :
    Move settings row seen (advanceAdmitted settings row seen name phase) := by
  have classified : seen.analysisCompleted = false →
      (seen.wedge.bind fun wedge => if wedge.nodeLoss then some wedge.reason else none) =
        classifiedNodeLoss row seen := by
    intro pending
    rcases admitted with found | found <;> simp [classifiedNodeLoss, pending, named, inFlight, found]
  unfold advanceAdmitted
  cases wedged : terminalizeIfWedged settings row seen name with
  | some out =>
    have pending : seen.analysisCompleted = false := by
      by_contra completed
      simp only [Bool.not_eq_false] at completed
      cases wedge : seen.wedge <;> simp [terminalizeIfWedged, completed, wedge] at wedged
    exact terminalizeIfWedged_move named (classified pending) wedged
  | none =>
    refine hold_move rfl rfl rfl rfl rfl (.inr ⟨rfl, by simp [named]⟩) ?_
    -- Without a wedge there is no verdict, and with one the result had already landed.
    cases completed : seen.analysisCompleted with
    | true => simp [classifiedNodeLoss, completed]
    | false =>
      rw [← classified completed]
      cases wedge : seen.wedge with
      | none => rfl
      | some found => simp [terminalizeIfWedged, wedge, completed] at wedged

/-- What a tick does is one of the moves. -/
theorem reconcileOne_move (settings : Settings) (row : CloudJob) (seen : Observation) :
    Move settings row seen (reconcileOne settings row seen) := by
  unfold reconcileOne
  cases named : row.job with
  | none =>
    have quiet : classifiedNodeLoss row seen = none := by simp [classifiedNodeLoss, named]
    cases waits : row.redriveAfter with
    | some due =>
      simp only [reconcileBackoff]
      split
      · exact hold_move rfl rfl rfl rfl rfl (.inl rfl) quiet
      · exact .resumed ⟨by simp, by simp, rfl, rfl⟩ rfl (by simp) (by simp) named (by simp [waits]) (by simp)
          (by simp) quiet
    | none =>
      simp only [reconcilePendingConfirmation]
      split
      · exact hold_move rfl rfl rfl rfl rfl (.inl rfl) quiet
      · rw [← named]
        exact finalizeOrRedrive_move fun _ => by simp [quiet]
  | some name =>
    cases job : seen.job with
    | none =>
      simp only [← named]
      exact finalizeOrRedrive_move fun pending => by simp [classifiedNodeLoss, named, job]
    | some disposition =>
      cases disposition with
      | succeeded => exact recordSuccess_move (by simp [classifiedNodeLoss, named, job])
      | failed =>
        simp only [← named]
        exact finalizeOrRedrive_move fun pending => by simp [classifiedNodeLoss, named, job, pending]
      | inFlight =>
        cases workload : seen.workload with
        | none =>
          exact hold_move rfl rfl rfl rfl rfl (.inl rfl) (by simp [classifiedNodeLoss, named, job, workload])
        | some state =>
          cases state with
          | evicted =>
            simp only [reconcileWorkloadState, ← named]
            exact finalizeOrRedrive_move fun pending => by simp [classifiedNodeLoss, named, job, workload, pending]
          | inadmissible =>
            exact hold_move rfl rfl rfl rfl rfl (.inl rfl) (by simp [classifiedNodeLoss, named, job, workload])
          | pending =>
            exact hold_move rfl rfl rfl rfl rfl (.inl rfl) (by simp [classifiedNodeLoss, named, job, workload])
          | admitted => exact advanceAdmitted_move named job (.inl workload)
          | quotaReserved => exact advanceAdmitted_move named job (.inr workload)
          | unknown =>
            exact hold_move rfl rfl rfl rfl rfl (.inl rfl) (by simp [classifiedNodeLoss, named, job, workload])

/-! ## What no tick touches -/

structure Keeps (row : CloudJob) (seen : Observation) (out : Outcome) : Prop where
  backendId : out.row.backendId = row.backendId
  telemetrySlot : out.row.telemetrySlot = row.telemetrySlot
  exited : ∀ code, out.row.lastExitCode = some code → Exited row seen code

theorem recordSuccess_keeps : Keeps row seen (recordSuccess row seen) :=
  ⟨by simp [recordSuccess], by simp [recordSuccess], fun code recorded => .inl (by simpa [recordSuccess] using recorded)⟩

theorem hold_keeps {row' : CloudJob} (backend : row'.backendId = row.backendId)
    (slot : row'.telemetrySlot = row.telemetrySlot) (code : row'.lastExitCode = row.lastExitCode) :
    Keeps row seen (hold row seen row') :=
  ⟨by simpa [hold], by simpa [hold], fun _ recorded => .inl (by simpa [hold, code] using recorded)⟩

theorem spillToAwaiting_keeps {attempts : Nat} {failure : TerminalFailure}
    (exited : ∀ code, failure.exitCode = some code → Exited row seen code) :
    Keeps row seen (spillToAwaiting row seen attempts failure) := by
  have kept : ∀ spilled, spillAwaiting row attempts [.submitted, .running] none true seen.now = some spilled →
      spilled.backendId = row.backendId ∧ spilled.telemetrySlot = row.telemetrySlot := by
    intro spilled written
    simp only [spillAwaiting, Option.ite_none_right_eq_some, Option.some.injEq] at written
    obtain ⟨-, rfl⟩ := written
    exact ⟨rfl, rfl⟩
  cases written : spillAwaiting row attempts [.submitted, .running] none true seen.now with
  | none => exact ⟨by simp [spillToAwaiting, written, recordFailure], by simp [spillToAwaiting, written, recordFailure],
      fun code recorded => exited code (by simpa [spillToAwaiting, recordFailure] using recorded)⟩
  | some spilled =>
    obtain ⟨backend, slot⟩ := kept spilled written
    exact ⟨by simpa [spillToAwaiting, written, recordFailure] using backend,
      by simpa [spillToAwaiting, written, recordFailure] using slot,
      fun code recorded => exited code (by simpa [spillToAwaiting, recordFailure] using recorded)⟩

theorem redriveUnderCeiling_keeps {name : Option String} {nextAttempt backoff : Nat} {budget : Budget}
    {effective : Option String} {failure : TerminalFailure}
    (exited : ∀ code, failure.exitCode = some code → Exited row seen code) :
    Keeps row seen (redriveUnderCeiling row seen name nextAttempt budget effective failure backoff) := by
  unfold redriveUnderCeiling
  split
  · exact ⟨by simp [recordFailure], by simp [recordFailure],
      fun code recorded => exited code (by simpa [recordFailure] using recorded)⟩
  · dsimp only
    split <;> split <;>
      exact ⟨by simp [recordFailure], by simp [recordFailure],
        fun code recorded => exited code (by simpa [recordFailure] using recorded)⟩

theorem handleNoCallbackTerminal_keeps {name : Option String} {failure : TerminalFailure} {nodeLossReason : Option String}
    (exited : ∀ code, failure.exitCode = some code → Exited row seen code) :
    Keeps row seen (handleNoCallbackTerminal settings row seen name failure nodeLossReason) := by
  have effective : ∀ code, (effectiveFailure row failure).exitCode = some code → Exited row seen code := by
    intro code recorded
    unfold effectiveFailure at recorded
    split at recorded
    · exact .inl recorded
    · exact exited code recorded
  unfold handleNoCallbackTerminal holdControlPlaneUnreachable
  dsimp only
  split
  · split
    · exact redriveUnderCeiling_keeps effective
    · exact spillToAwaiting_keeps effective
  · split <;> split
    · exact spillToAwaiting_keeps effective
    · exact redriveUnderCeiling_keeps effective
    · exact spillToAwaiting_keeps effective
    · exact redriveUnderCeiling_keeps effective

theorem finalizeOrRedrive_keeps {name : Option String} {marker : String} {probes : Bool} :
    Keeps row seen (finalizeOrRedrive settings row seen name marker probes) := by
  unfold finalizeOrRedrive
  split
  · exact recordSuccess_keeps
  · split
    · refine handleNoCallbackTerminal_keeps ?_
      intro code recorded
      cases failure : seen.failure with
      | none => simp [failure] at recorded
      | some observed => exact .inr ⟨observed, failure, by simpa [failure] using recorded⟩
    · exact handleNoCallbackTerminal_keeps (by simp)

theorem advanceAdmitted_keeps {name : String} {phase : CloudPhase} :
    Keeps row seen (advanceAdmitted settings row seen name phase) := by
  unfold advanceAdmitted terminalizeIfWedged
  cases seen.wedge with
  | none => exact hold_keeps rfl rfl rfl
  | some wedge =>
    dsimp only
    split
    · exact hold_keeps rfl rfl rfl
    · refine handleNoCallbackTerminal_keeps ?_
      intro code recorded
      split at recorded
      · rename_i failure
        exact .inr ⟨_, failure, recorded⟩
      · simp at recorded

theorem reconcileOne_keeps (settings : Settings) (row : CloudJob) (seen : Observation) :
    Keeps row seen (reconcileOne settings row seen) := by
  unfold reconcileOne reconcileBackoff reconcilePendingConfirmation reconcileWorkloadState
  split
  · split
    · split
      · exact hold_keeps rfl rfl rfl
      · exact ⟨by simp, by simp, fun code recorded => .inl (by simpa using recorded)⟩
    · split
      · exact hold_keeps rfl rfl rfl
      · exact finalizeOrRedrive_keeps
  · split
    · exact finalizeOrRedrive_keeps
    · exact recordSuccess_keeps
    · exact finalizeOrRedrive_keeps
    · split
      · exact hold_keeps rfl rfl rfl
      · split
        · exact finalizeOrRedrive_keeps
        · exact hold_keeps rfl rfl rfl
        · exact hold_keeps rfl rfl rfl
        · exact advanceAdmitted_keeps
        · exact advanceAdmitted_keeps
        · exact hold_keeps rfl rfl rfl

end Moves

end Phaze.Cloud
