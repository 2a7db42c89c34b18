import Phaze.Cloud.Moves
import Phaze.Shared.Runs

set_option autoImplicit false

/-!
# The two re-drive budgets of one file

The life of a `cloud_job` row from its creation to the spill that marks its budget spent: dispatches
and their upload callbacks, staging reaps, `submit_cloud_job` runs and reconcile ticks over any
pod outcome but an exit 14. An enqueued submit runs its upsert at most once, and an enqueue while
the key is still held changes nothing in the broker.
-/

namespace Phaze.Cloud.Attempts

open Phaze.Staging (CloudJobStatus UploadId)

-- The `submit_cloud_job` of the file in the broker.
inductive Submit where
  | absent
  | queued
  | stamped
deriving DecidableEq

def Submit.enqueue : Submit → Submit
  | .absent => .queued
  | submit => submit

structure State where
  row : CloudJob
  submit : Submit
  -- Calls of `enqueue("submit_cloud_job")` so far.
  enqueued : Nat
  -- What the ticks on the current Job have read of its pods' node.
  verdicts : List (Option String)

-- `hold_awaiting_cloud` creates the row.
def State.initial (now : Int) : State :=
  { row := holdAwaiting none 0 now, submit := .absent, enqueued := 0, verdicts := [] }

inductive Action where
  | dispatch (backend : BackendId) (s3Key : String) (upload : UploadId) (bucket : String) (now : Int)
  | uploaded (upload : UploadId) (now : Int)
  | reap (now : Int)
  | submit (name : String) (now : Int)
  | settle
  | tick (seen : Observation)

def submitStep (state : State) (name : String) (now : Int) : State :=
  match submitUpsert state.row name now with
  | some row => { state with row := row, submit := .stamped, verdicts := [] }
  | none => { state with submit := .stamped }

def tickStep (settings : Settings) (state : State) (seen : Observation) : State :=
  let out := reconcileOne settings state.row seen
  { row := out.row
    submit := if out.enqueued then state.submit.enqueue else state.submit
    enqueued := if out.enqueued then state.enqueued + 1 else state.enqueued
    verdicts :=
      if out.redriven.isSome ∨ out.spilled.isSome then []
      else classifiedNodeLoss state.row seen :: state.verdicts }

def step (settings : Settings) (state : State) : Action → Option State
  | .dispatch backend s3Key upload bucket now =>
      -- `select_backend` offers no cloud backend to a spent budget.
      if state.row.status = .awaiting ∧ state.row.attempts < settings.cloudSubmitMaxAttempts then
        some { state with row := dispatchRow (some state.row) backend (.kueue s3Key upload bucket) now }
      else none
  | .uploaded upload now =>
      (uploadedFlip state.row upload now).map fun row =>
        { state with row := row, submit := state.submit.enqueue, enqueued := state.enqueued + 1 }
  | .reap now =>
      (reapStaging state.row settings.cloudSubmitMaxAttempts now).map fun row => { state with row := row }
  | .submit name now => if state.submit = .queued then some (submitStep state name now) else none
  | .settle => some { state with submit := .absent }
  | .tick seen =>
      if (state.row.status = .submitted ∨ state.row.status = .running) ∧
          seen.failure.all (fun failure => failure.exitCode ≠ some controlPlaneUnreachable) then
        some (tickStep settings state seen)
      else none

/-- A re-drive spends exactly the budget of its cause, and a tick that does not re-drive spends none;
the cause is node loss when this tick or an earlier one on the same Job read it off the pods. -/
def SpendsItsCause (settings : Settings) (state : State) (seen : Observation) (next : State) : Prop :=
  match (reconcileOne settings state.row seen).redriven with
  | some budget =>
      if (classifiedNodeLoss state.row seen :: state.verdicts).any Option.isSome then
        budget = .nodeLossRedrives ∧ next.row.nodeLossRedrives = state.row.nodeLossRedrives + 1 ∧
          next.row.attempts = state.row.attempts
      else
        budget = .attempts ∧ next.row.nodeLossRedrives = state.row.nodeLossRedrives ∧
          next.row.attempts = state.row.attempts + 1
  | none =>
      next.row.nodeLossRedrives = state.row.nodeLossRedrives ∧
        (next.row.attempts = state.row.attempts ∨
          next.row.status = .awaiting ∧ next.row.attempts = settings.cloudSubmitMaxAttempts)

/-! ## The invariant -/

-- A charge whose submit is not enqueued yet.
def owed (row : CloudJob) : Nat := if row.redriveAfter.isSome then 1 else 0

def Counted (settings : Settings) (state : State) : Prop :=
  let spent := state.row.attempts + state.row.nodeLossRedrives
  match state.row.status with
  | .awaiting => state.enqueued ≤ spent ∨ settings.cloudSubmitMaxAttempts ≤ state.row.attempts ∧
      state.enqueued ≤ 1 + settings.cloudSubmitMaxAttempts + settings.cloudNodeLossMaxRedrives
  | .uploading => state.enqueued ≤ spent
  | .uploaded => state.enqueued ≤ 1 + spent
  | _ => state.enqueued + owed state.row ≤ 1 + spent

structure Sound (settings : Settings) (state : State) : Prop where
  attempts : state.row.attempts ≤ settings.cloudSubmitMaxAttempts
  losses : state.row.nodeLossRedrives ≤ settings.cloudNodeLossMaxRedrives
  counted : Counted settings state
  reachable : state.row.lastExitCode ≠ some controlPlaneUnreachable
  verdict : state.row.nodeLossPending.isSome ↔ state.verdicts.any Option.isSome
  carried : state.row.nodeLossPending.isSome → state.row.job.isSome
  -- Nobody will stamp a second Job while the row names one.
  named : state.row.job.isSome → state.submit ≠ .queued
  staged : state.row.status = .awaiting ∨ state.row.status = .uploading ∨ state.row.status = .uploaded →
    state.row.redriveAfter = none ∧
      (state.row.job = none ∨
        state.row.status = .awaiting ∧ settings.cloudSubmitMaxAttempts ≤ state.row.attempts)

section Steps

variable {settings : Settings} {state next : State}

theorem sound_initial (now : Int) : Sound settings (State.initial now) where
  attempts := Nat.zero_le _
  losses := Nat.zero_le _
  counted := .inl (Nat.zero_le _)
  reachable := by simp [State.initial, holdAwaiting, CloudJob.fresh]
  verdict := by simp [State.initial, holdAwaiting, CloudJob.fresh]
  carried := by simp [State.initial, holdAwaiting, CloudJob.fresh]
  named := by simp [State.initial, holdAwaiting, CloudJob.fresh, CloudJob.job]
  staged := by simp [State.initial, holdAwaiting, CloudJob.fresh, CloudJob.job]

theorem sound_dispatch (sound : Sound settings state) {backend : BackendId} {s3Key bucket : String} {upload : UploadId}
    {now : Int} (held : state.row.status = .awaiting)
    (left : state.row.attempts < settings.cloudSubmitMaxAttempts) :
    Sound settings { state with row := dispatchRow (some state.row) backend (.kueue s3Key upload bucket) now } where
  attempts := sound.attempts
  losses := sound.losses
  counted := by
    have counted := sound.counted
    simp only [Counted, held] at counted
    rcases counted with counted | spent
    · exact counted
    · omega
  reachable := sound.reachable
  verdict := sound.verdict
  carried := sound.carried
  named := sound.named
  staged := by
    obtain ⟨after, named⟩ := sound.staged (.inl held)
    rcases named with nameless | spent
    · exact fun _ => ⟨after, .inl nameless⟩
    · omega

theorem sound_uploaded (sound : Sound settings state) {row : CloudJob} {upload : UploadId} {now : Int}
    (flipped : uploadedFlip state.row upload now = some row) :
    Sound settings { state with row := row, submit := state.submit.enqueue, enqueued := state.enqueued + 1 } := by
  simp only [uploadedFlip, Option.ite_none_right_eq_some, Option.some.injEq] at flipped
  obtain ⟨⟨uploading, -⟩, rfl⟩ := flipped
  obtain ⟨after, named⟩ := sound.staged (.inr (.inl uploading))
  have nameless : state.row.job = none := by simpa [uploading] using named
  refine ⟨sound.attempts, sound.losses, ?_, sound.reachable, sound.verdict, sound.carried, ?_, ?_⟩
  · have counted := sound.counted
    simp only [Counted, uploading] at counted
    simp only [Counted]
    omega
  · intro there
    change state.row.job.isSome = true at there
    simp [nameless] at there
  · exact fun _ => ⟨after, .inl nameless⟩

theorem sound_reap (sound : Sound settings state) {row : CloudJob} {now : Int}
    (reaped : reapStaging state.row settings.cloudSubmitMaxAttempts now = some row) :
    Sound settings { state with row := row } := by
  obtain ⟨staging, rfl⟩ := reapStaging_eq_some.mp reaped
  have phases : state.row.status = .uploading ∨ state.row.status = .uploaded := by
    cases status : state.row.status <;> simp_all [CloudJobStatus.staging]
  obtain ⟨after, named⟩ := sound.staged (.inr phases)
  have nameless : state.row.job = none := by
    rcases phases with phase | phase <;> simpa [phase] using named
  refine ⟨Nat.min_le_right _ _, sound.losses, ?_, sound.reachable, sound.verdict, sound.carried, sound.named,
    fun _ => ⟨after, .inl nameless⟩⟩
  have within := sound.attempts
  have losses := sound.losses
  have counted : state.enqueued ≤ 1 + (state.row.attempts + state.row.nodeLossRedrives) := by
    have counted := sound.counted
    rcases phases with phase | phase <;> simp only [Counted, phase] at counted <;> omega
  simp only [Counted]
  omega

theorem sound_submit (sound : Sound settings state) (queued : state.submit = .queued) (name : String) (now : Int) :
    Sound settings (submitStep state name now) := by
  have nameless : state.row.job = none := by
    by_contra named
    exact sound.named (Option.isSome_iff_ne_none.mpr named) queued
  have clean : state.row.nodeLossPending.isSome = false := by
    by_contra pending
    simpa [nameless] using sound.carried (Bool.eq_true_of_not_eq_false pending)
  unfold submitStep
  cases stamped : submitUpsert state.row name now with
  | none =>
    exact ⟨sound.attempts, sound.losses, sound.counted, sound.reachable, sound.verdict, sound.carried, by simp,
      sound.staged⟩
  | some row =>
    simp only [submitUpsert, Option.ite_none_right_eq_some, Option.some.injEq] at stamped
    obtain ⟨status, rfl⟩ := stamped
    refine ⟨sound.attempts, sound.losses, ?_, sound.reachable, by simp [clean], by simp [clean], by simp, by simp⟩
    have counted := sound.counted
    rcases status with uploaded | submitted
    · have after := (sound.staged (.inr (.inr uploaded))).1
      simp only [Counted, uploaded] at counted
      simpa [Counted, owed, after] using counted
    · simpa only [Counted, owed, submitted] using counted

section Tick

variable {seen : Observation}

theorem not_unreachable (sound : Sound settings state)
    (other : seen.failure.all (fun failure => failure.exitCode ≠ some controlPlaneUnreachable) = true) :
    ¬ Unreachable state.row seen := by
  rintro (recorded | ⟨failure, read, code⟩)
  · exact sound.reachable recorded
  · simp [read, code] at other

/-- What the ticks on this Job have read so far decides the cause. -/
theorem cause_iff (sound : Sound settings state) (seen : Observation) :
    ((classifiedNodeLoss state.row seen).or state.row.nodeLossPending).isSome ↔
      (classifiedNodeLoss state.row seen :: state.verdicts).any Option.isSome = true := by
  rw [Option.isSome_or, List.any_cons, Bool.or_eq_true, Bool.or_eq_true, sound.verdict]

theorem counted_live (sound : Sound settings state)
    (live : state.row.status = .submitted ∨ state.row.status = .running) :
    state.enqueued + owed state.row ≤ 1 + (state.row.attempts + state.row.nodeLossRedrives) := by
  have counted := sound.counted
  rcases live with status | status <;> simpa only [Counted, status] using counted

theorem job_eq {row row' : CloudJob} (same : row'.kueueWorkload = row.kueueWorkload) : row'.job = row.job := by
  simp [CloudJob.job, same]

-- The state once a tick has come to this outcome.
def afterTick (state : State) (seen : Observation) (out : Outcome) : State :=
  { row := out.row
    submit := if out.enqueued then state.submit.enqueue else state.submit
    enqueued := if out.enqueued then state.enqueued + 1 else state.enqueued
    verdicts :=
      if out.redriven.isSome ∨ out.spilled.isSome then []
      else classifiedNodeLoss state.row seen :: state.verdicts }

-- A tick that spends no budget leaves the row past its submit.
theorem sound_unspent (sound : Sound settings state) {out : Outcome} (unspent : Unspent state.row out)
    (reachable : out.row.lastExitCode ≠ some controlPlaneUnreachable)
    (past : out.row.status = .submitted ∨ out.row.status = .running ∨ out.row.status = .succeeded)
    (counted : (if out.enqueued then state.enqueued + 1 else state.enqueued) + owed out.row ≤
      1 + (state.row.attempts + state.row.nodeLossRedrives))
    (verdict : out.row.nodeLossPending.isSome ↔
      (classifiedNodeLoss state.row seen :: state.verdicts).any Option.isSome = true)
    (carried : out.row.nodeLossPending.isSome → out.row.job.isSome)
    (named : out.row.job.isSome → (if out.enqueued then state.submit.enqueue else state.submit) ≠ .queued) :
    Sound settings (afterTick state seen out) := by
  refine ⟨?_, ?_, ?_, reachable, ?_, carried, named, ?_⟩
  · rw [afterTick, unspent.attempts]
    exact sound.attempts
  · rw [afterTick, unspent.nodeLossRedrives]
    exact sound.losses
  · rcases past with status | status | status <;>
      simpa [afterTick, Counted, status, unspent.attempts, unspent.nodeLossRedrives] using counted
  · simpa [afterTick, unspent.redriven, unspent.spilled] using verdict
  · rcases past with status | status | status <;> simp [afterTick, status]

-- What a charge takes from one of the budgets.
structure Charged (settings : Settings) (row : CloudJob) (out : Outcome) : Prop where
  redriven : out.redriven.isSome
  attempts : out.row.attempts ≤ settings.cloudSubmitMaxAttempts
  losses : out.row.nodeLossRedrives ≤ settings.cloudNodeLossMaxRedrives
  total : out.row.attempts + out.row.nodeLossRedrives = row.attempts + row.nodeLossRedrives + 1

-- A redrive forgets the Job and its cause, and enqueues a submit or owes one.
theorem sound_charged (sound : Sound settings state) (live : state.row.status = .submitted ∨ state.row.status = .running)
    {out : Outcome} (charged : Charged settings state.row out) (reachable : out.row.lastExitCode ≠ some controlPlaneUnreachable)
    (status : out.row.status = .submitted) (pending : out.row.nodeLossPending = none) (workload : out.row.kueueWorkload = none)
    (after : out.enqueued = true ∧ out.row.redriveAfter = state.row.redriveAfter ∨
      out.enqueued = false ∧ out.row.redriveAfter.isSome) : Sound settings (afterTick state seen out) := by
  have alive := counted_live sound live
  have nameless : out.row.job = none := by simp [CloudJob.job, workload]
  have total := charged.total
  refine ⟨charged.attempts, charged.losses, ?_, reachable, ?_, ?_, ?_, ?_⟩
  · simp only [afterTick, Counted, status]
    rcases after with ⟨enqueued, after⟩ | ⟨enqueued, after⟩
    · have owes : owed out.row = owed state.row := by simp [owed, after]
      simp only [enqueued, if_true]
      omega
    · simp only [enqueued, Bool.false_eq_true, if_false, owed, after, if_true]
      omega
  · simp [afterTick, pending, charged.redriven]
  · simp [afterTick, pending]
  · simp [afterTick, nameless]
  · simp [afterTick, status]

-- A spill spends all attempts and keeps the name of the Job.
theorem sound_spilt (sound : Sound settings state) (live : state.row.status = .submitted ∨ state.row.status = .running)
    {out : Outcome} (reachable : out.row.lastExitCode ≠ some controlPlaneUnreachable) (enqueued : out.enqueued = false)
    (losses : out.row.nodeLossRedrives = state.row.nodeLossRedrives) (pending : out.row.nodeLossPending = none)
    (after : out.row.redriveAfter = none) (workload : out.row.kueueWorkload = state.row.kueueWorkload)
    (spilled : out.spilled.isSome) (status : out.row.status = .awaiting)
    (stamped : out.row.attempts = settings.cloudSubmitMaxAttempts) : Sound settings (afterTick state seen out) := by
  have alive := counted_live sound live
  have within := sound.attempts
  have lost := sound.losses
  refine ⟨stamped.le, losses.trans_le sound.losses, ?_, reachable, ?_, ?_, ?_, ?_⟩
  · simp only [afterTick, Counted, status, enqueued, Bool.false_eq_true, if_false]
    right
    omega
  · simp [afterTick, pending, spilled]
  · simp [afterTick, pending]
  · simpa [afterTick, job_eq workload, enqueued] using sound.named
  · simp [afterTick, after, status, stamped]

theorem sound_tick (sound : Sound settings state)
    (live : state.row.status = .submitted ∨ state.row.status = .running)
    (other : seen.failure.all (fun failure => failure.exitCode ≠ some controlPlaneUnreachable) = true) :
    Sound settings (tickStep settings state seen) := by
  have reachable : (reconcileOne settings state.row seen).row.lastExitCode ≠ some controlPlaneUnreachable :=
    fun recorded => not_unreachable sound other ((reconcileOne_keeps settings state.row seen).exited _ recorded)
  have alive := counted_live sound live
  have cause := cause_iff sound seen
  show Sound settings (afterTick state seen (reconcileOne settings state.row seen))
  generalize outcome : reconcileOne settings state.row seen = out at *
  have move := reconcileOne_move settings state.row seen
  rw [outcome] at move
  cases move with
  | held unspent enqueued pending workload after status quiet =>
    have running : out.row.status = .submitted ∨ out.row.status = .running := by
      rcases status with same | ⟨running, -⟩
      · rwa [same]
      · exact .inr running
    apply sound_unspent sound unspent reachable (running.imp_right .inl)
    · simpa [enqueued, owed, after] using alive
    · simpa [pending, quiet] using sound.verdict
    · simpa [pending, job_eq workload] using sound.carried
    · simpa [job_eq workload, enqueued] using sound.named
  | resumed unspent enqueued pending workload nameless waited after status quiet =>
    have running : out.row.status = .submitted ∨ out.row.status = .running := by rwa [status]
    simp only [owed, waited, if_true] at alive
    apply sound_unspent sound unspent reachable (running.imp_right .inl)
    · simp only [enqueued, owed, after, Option.isSome_none, Bool.false_eq_true, if_true, if_false]
      omega
    · simpa [pending, quiet] using sound.verdict
    · simpa [pending, job_eq workload] using sound.carried
    · simp [job_eq workload, nameless]
  | finished unspent enqueued pending workload after status quiet =>
    apply sound_unspent sound unspent reachable (.inr (.inr status))
    · simpa [enqueued, owed, after] using alive
    · simpa [pending, quiet] using sound.verdict
    · simpa [pending, job_eq workload] using sound.carried
    · simpa [job_eq workload, enqueued] using sound.named
  | deferred unspent enqueued named pending workload after status =>
    have running : out.row.status = .submitted ∨ out.row.status = .running := by rwa [status]
    have pending : out.row.nodeLossPending = (classifiedNodeLoss state.row seen).or state.row.nodeLossPending := by
      rcases pending with pending | ⟨unreachable, -⟩
      · exact pending
      · exact absurd unreachable (not_unreachable sound other)
    apply sound_unspent sound unspent reachable (running.imp_right .inl)
    · simpa [enqueued, owed, after] using alive
    · rw [pending, cause]
    · simp [job_eq workload, named]
    · simpa [job_eq workload, enqueued] using sound.named
  | charged spilled budget status pending workload after =>
    refine sound_charged sound live ?_ reachable status pending workload after
    split at budget
    · obtain ⟨redriven, attempts, losses, under⟩ := budget
      exact ⟨by simp [redriven], attempts.trans_le sound.attempts, under, by omega⟩
    · obtain ⟨redriven, attempts, losses, under⟩ := budget
      exact ⟨by simp [redriven], under, losses.trans_le sound.losses, by omega⟩
  | uncharged unreachable =>
    exact absurd unreachable (not_unreachable sound other)
  | spilt attempts ceiling redriven enqueued losses pending after workload written =>
    have ceiling : attempts = settings.cloudSubmitMaxAttempts := by
      rcases ceiling with ceiling | ⟨unreachable, -⟩
      · exact ceiling
      · exact absurd unreachable (not_unreachable sound other)
    rw [if_pos live] at written
    obtain ⟨spilled, status, stamped⟩ := written
    exact sound_spilt sound live reachable enqueued losses pending after workload (by simp [spilled]) status (stamped.trans ceiling)

theorem spendsItsCause_tick (sound : Sound settings state)
    (live : state.row.status = .submitted ∨ state.row.status = .running)
    (other : seen.failure.all (fun failure => failure.exitCode ≠ some controlPlaneUnreachable) = true) :
    SpendsItsCause settings state seen (tickStep settings state seen) := by
  have cause := cause_iff sound seen
  unfold SpendsItsCause tickStep
  generalize outcome : reconcileOne settings state.row seen = out at *
  have move := reconcileOne_move settings state.row seen
  rw [outcome] at move
  cases move with
  | held unspent => simp [unspent.redriven, unspent.attempts, unspent.nodeLossRedrives]
  | resumed unspent => simp [unspent.redriven, unspent.attempts, unspent.nodeLossRedrives]
  | finished unspent => simp [unspent.redriven, unspent.attempts, unspent.nodeLossRedrives]
  | deferred unspent => simp [unspent.redriven, unspent.attempts, unspent.nodeLossRedrives]
  | charged spilled budget =>
    simp only [← cause]
    by_cases lost : ((classifiedNodeLoss state.row seen).or state.row.nodeLossPending).isSome
    · rw [if_pos lost] at budget
      obtain ⟨redriven, attempts, losses, -⟩ := budget
      simp only [redriven, if_pos lost]
      exact ⟨trivial, losses, attempts⟩
    · rw [if_neg lost] at budget
      obtain ⟨redriven, attempts, losses, -⟩ := budget
      simp only [redriven, if_neg lost]
      exact ⟨trivial, losses, attempts⟩
  | uncharged unreachable => exact absurd unreachable (not_unreachable sound other)
  | spilt attempts ceiling redriven enqueued losses pending after workload written =>
    rw [if_pos live] at written
    have ceiling : attempts = settings.cloudSubmitMaxAttempts := by
      rcases ceiling with ceiling | ⟨unreachable, -⟩
      · exact ceiling
      · exact absurd unreachable (not_unreachable sound other)
    simp only [redriven]
    exact ⟨losses, .inr ⟨written.2.1, written.2.2.trans ceiling⟩⟩

end Tick

theorem step_sound (state : State) (action : Action) (next : State) (sound : Sound settings state)
    (stepped : step settings state action = some next) : Sound settings next := by
  cases action with
  | dispatch backend s3Key upload bucket now =>
    simp only [step, Option.ite_none_right_eq_some, Option.some.injEq] at stepped
    obtain ⟨⟨held, left⟩, rfl⟩ := stepped
    exact sound_dispatch sound held left
  | uploaded upload now =>
    simp only [step, Option.map_eq_some_iff] at stepped
    obtain ⟨row, flipped, rfl⟩ := stepped
    exact sound_uploaded sound flipped
  | reap now =>
    simp only [step, Option.map_eq_some_iff] at stepped
    obtain ⟨row, reaped, rfl⟩ := stepped
    exact sound_reap sound reaped
  | submit name now =>
    simp only [step, Option.ite_none_right_eq_some, Option.some.injEq] at stepped
    obtain ⟨queued, rfl⟩ := stepped
    exact sound_submit sound queued name now
  | settle =>
    cases stepped
    exact ⟨sound.attempts, sound.losses, sound.counted, sound.reachable, sound.verdict, sound.carried, by simp,
      sound.staged⟩
  | tick seen =>
    simp only [step, Option.ite_none_right_eq_some, Option.some.injEq] at stepped
    obtain ⟨⟨live, other⟩, rfl⟩ := stepped
    exact sound_tick sound live other

theorem Sound.enqueued_le (sound : Sound settings state) :
    state.enqueued ≤ 1 + settings.cloudSubmitMaxAttempts + settings.cloudNodeLossMaxRedrives := by
  have counted := sound.counted
  have attempts := sound.attempts
  have losses := sound.losses
  unfold Counted at counted
  split at counted <;> omega

end Steps

open Phaze.Runs in
/-- From the creation of its row, a file never spends more than its two budgets, is submitted at most
once more than they allow, and every re-drive is charged to its cause, once. -/
theorem budgets_bound_every_run {settings : Settings} {state : State} (now : Int) (actions : List Action)
    (ran : run (step settings) (State.initial now) actions = some state) :
    state.row.attempts ≤ settings.cloudSubmitMaxAttempts ∧
      state.row.nodeLossRedrives ≤ settings.cloudNodeLossMaxRedrives ∧
      state.enqueued ≤ 1 + settings.cloudSubmitMaxAttempts + settings.cloudNodeLossMaxRedrives ∧
      ∀ seen next, step settings state (.tick seen) = some next → SpendsItsCause settings state seen next := by
  have sound : Sound settings state := run_invariant step_sound actions (sound_initial now) ran
  refine ⟨sound.attempts, sound.losses, sound.enqueued_le, ?_⟩
  intro seen next stepped
  simp only [step, Option.ite_none_right_eq_some, Option.some.injEq] at stepped
  obtain ⟨⟨live, other⟩, rfl⟩ := stepped
  exact spendsItsCause_tick sound live other

namespace NodeLoss

open Phaze.Runs

def defaults : Settings :=
  { cloudSubmitMaxAttempts := 3, cloudNodeLossMaxRedrives := 1, cloudRedriveBackoffSec := [120, 600, 1800] }

def quiet (now : Int) : Observation :=
  { now := now, job := none, workload := none, wedge := none, analysisCompleted := false, nodeLossReason := none
    failure := none, jobGone := true, held := false, jobStartedAt := none }

-- The pods name the lost node while the Job is still terminating; at the next tick the Job is gone.
def deferredThenVanished : List Action :=
  [.dispatch "burst" "key" "upload" "staging" 0, .uploaded "upload" 1, .submit "phaze-job" 2, .settle,
    .tick { quiet 3 with job := some .failed, nodeLossReason := some "node_lost", jobGone := false },
    .tick (quiet 4)]

def reached : Option State := run (step defaults) (State.initial 0) deferredThenVanished

theorem vanished_job_keeps_its_cause :
    reached.map (fun state => (state.row.attempts, state.row.nodeLossRedrives)) = some (0, 1) ∧
      ∀ state, reached = some state →
        state.row.attempts ≤ 3 ∧ state.row.nodeLossRedrives ≤ 1 ∧ state.enqueued ≤ 5 ∧
          ∀ seen next, step defaults state (.tick seen) = some next → SpendsItsCause defaults state seen next :=
  ⟨by decide, fun _ ran => budgets_bound_every_run 0 deferredThenVanished ran⟩

end NodeLoss

end Phaze.Cloud.Attempts
