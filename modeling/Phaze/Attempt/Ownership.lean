import Phaze.Attempt.Protocol

set_option autoImplicit false

/-!
# One owner of an analysis

Whoever holds the attempt lock sees every owner there is, with one exception: the drain does not count a job that
SAQ is aborting, and a sweep may queue such a job again.
-/

namespace Phaze.Attempt

open Phaze.Cloud (inFlight)
open Phaze.Drain (BackendKind)
open Phaze.Runs
open Phaze.Staging (CloudJobStatus)

-- No local job is queued or active while the cloud owns the analysis.
def Exclusive (state : State) : Prop :=
  ∀ job, state.job = some job → job.scratch = false → job.status.live = true → state.cloudOwns = false

-- A ledger row that a transfer deletes is no producer's, and an awaiting row still owes the analysis.
def TransfersOwed (state : State) : Action → Prop
  | .commit process => state.processes process = .removed → state.ledger ≠ none →
      (∀ producer scratch, state.processes producer ≠ .ledgered scratch true) ∧
        state.cloud = some .awaiting ∧ state.completed = false
  | _ => True

-- The drain does not re-check a candidate whose job is being aborted.
def Admitted (state : State) : Action → Prop
  | .recheck _ => ∀ job ∈ state.job, job.status ≠ .aborting
  | _ => True

instance (state : State) (action : Action) : Decidable (Admitted state action) := by
  unfold Admitted
  split <;> infer_instance

/-! ## The invariant -/

def Stage.locks : Stage → Bool
  | .serialized _ | .unowned _ | .cleared _ | .ledgered .. | .leaving | .admitting | .eligible | .dispatched _
  | .guarded .. | .owned .. | .removed => true
  | .idle | .candidate | .conflict .. | .held => false

def Stage.locksRow : Stage → Bool
  | .candidate | .admitting | .eligible | .dispatched _ | .owned .. | .removed => true
  | .idle | .serialized _ | .unowned _ | .cleared _ | .ledgered .. | .leaving | .conflict .. | .guarded .. | .held =>
      false

-- What a process has found out and still relies on.
def Fits (state : State) : Stage → Prop
  | .cleared false | .ledgered false _ => state.cloudOwns = false
  | .eligible | .dispatched _ => ∀ job, state.job = some job → job.status.terminal = true
  | .removed => state.completed = false
  | _ => True

structure Sound (state : State) : Prop where
  -- A job that is being aborted may be queued again.
  exclusive : ∀ job, state.job = some job → job.scratch = false → job.status.terminal = false → state.cloudOwns = false
  lock : ∀ process, (state.processes process).locks = true → state.lock = some process
  rowLock : ∀ process, (state.processes process).locksRow = true → state.rowLock = some process
  awaiting : state.rowLock ≠ none → state.cloud = some .awaiting
  fits : ∀ process, Fits state (state.processes process)

section Steps

variable {state next : State} {process : ProcessId}

theorem sound_initial : Sound .initial where
  exclusive := by simp [State.initial]
  lock := by simp [State.initial, Stage.locks]
  rowLock := by simp [State.initial, Stage.locksRow]
  awaiting := by simp [State.initial]
  fits := by simp [State.initial, Fits]

-- Of two processes that hold the lock there is one.
theorem Sound.alone (sound : Sound state) {stage : Stage} (running : state.processes process = stage)
    (locks : stage.locks = true) {other : ProcessId} (theirs : (state.processes other).locks = true) :
    other = process := by
  have one := sound.lock process (by rw [running]; exact locks)
  have two := sound.lock other theirs
  rw [one, Option.some.injEq] at two
  exact two.symm

/-! ## A process goes on -/

theorem processes_become (stage : Stage) (other : ProcessId) :
    (state.become process stage).processes other = if other = process then stage else state.processes other := by
  simp [State.become, Function.update_apply]

-- A process that has taken no lock, and found out what it now relies on.
theorem sound_become (sound : Sound state) {stage : Stage}
    (lock : stage.locks = true → state.lock = some process)
    (rowLock : stage.locksRow = true → state.rowLock = some process) (fits : Fits state stage) :
    Sound (state.become process stage) := by
  refine ⟨sound.exclusive, fun other locked => ?_, fun other locked => ?_, sound.awaiting, fun other => ?_⟩
  · rw [processes_become] at locked
    split at locked
    · rename_i same
      exact same ▸ lock locked
    · exact sound.lock other locked
  · rw [processes_become] at locked
    split at locked
    · rename_i same
      exact same ▸ rowLock locked
    · exact sound.rowLock other locked
  · rw [processes_become]
    split
    · exact fits
    · exact sound.fits other

theorem sound_takeLock (sound : Sound state) (free : state.lock = none) :
    Sound { state with lock := some process } := by
  refine ⟨sound.exclusive, fun other locked => ?_, sound.rowLock, sound.awaiting, sound.fits⟩
  have taken := sound.lock other locked
  rw [free] at taken
  cases taken

theorem sound_takeRow (sound : Sound state) (free : state.rowLock = none) (awaiting : state.cloud = some .awaiting) :
    Sound { state with rowLock := some process } := by
  refine ⟨sound.exclusive, sound.lock, fun other locked => ?_, fun _ => awaiting, sound.fits⟩
  have taken := sound.rowLock other locked
  rw [free] at taken
  cases taken

theorem sound_release (sound : Sound state) : Sound (state.release process) := by
  refine ⟨sound.exclusive, fun other locked => ?_, fun other locked => ?_, fun held => ?_, fun other => ?_⟩
  · simp only [State.release, processes_become] at locked
    split at locked
    · cases locked
    · rename_i apart
      have mine := sound.lock other locked
      simp [State.release, State.become, mine, apart]
  · simp only [State.release, processes_become] at locked
    split at locked
    · cases locked
    · rename_i apart
      have mine := sound.rowLock other locked
      simp [State.release, State.become, mine, apart]
  · refine sound.awaiting fun free => held ?_
    simp [State.release, State.become, free]
  · by_cases same : other = process
    · simp [State.release, State.become, same, Fits]
    · have kept : (state.release process).processes other = state.processes other := by
        simp [State.release, State.become, same]
      rw [kept]
      exact sound.fits other

/-! ## What a process relies on -/

def Stage.admits : Stage → Bool
  | .eligible | .dispatched _ => true
  | _ => false

def Stage.produces : Stage → Bool
  | .cleared scratch | .ledgered scratch _ => !scratch
  | _ => false

theorem fits_job {stage : Stage} (fits : Fits state stage) {job : Option Job}
    (kept : stage.admits = true → ∀ found, job = some found → found.status.terminal = true) :
    Fits { state with job := job } stage := by
  cases stage with
  | eligible => exact kept rfl
  | dispatched status => exact kept rfl
  | cleared scratch => cases scratch <;> exact fits
  | ledgered scratch written => cases scratch <;> exact fits
  | _ => exact fits

theorem fits_cloud {stage : Stage} (fits : Fits state stage) {cloud : Option CloudJobStatus} {completed : Bool}
    (kept : stage.produces = true → cloud.any inFlight = false)
    (owed : stage = .removed → completed = false) :
    Fits { state with cloud := cloud, completed := completed } stage := by
  cases stage with
  | cleared scratch =>
    cases scratch with
    | true => trivial
    | false => exact kept rfl
  | ledgered scratch written =>
    cases scratch with
    | true => trivial
    | false => exact kept rfl
  | removed => exact owed rfl
  | _ => exact fits

theorem locks_of_admits {stage : Stage} (admits : stage.admits = true) : stage.locks = true := by
  cases stage with
  | eligible | dispatched => rfl
  | _ => cases admits

theorem locks_of_produces {stage : Stage} (produces : stage.produces = true) : stage.locks = true := by
  cases stage with
  | cleared | ledgered => rfl
  | _ => cases produces

theorem Fits.unowned {stage : Stage} (fits : Fits state stage) (produces : stage.produces = true) :
    state.cloudOwns = false := by
  cases stage with
  | cleared scratch | ledgered scratch written =>
    cases scratch with
    | true => cases produces
    | false => exact fits
  | _ => cases produces

/-! ## SAQ and the other writers -/

theorem sound_moveJob (sound : Sound state) {accepts : SaqStatus → Bool} {status : SaqStatus}
    (unsettled : ∀ status, accepts status = true → status.terminal = false)
    (stepped : moveJob state accepts status = some next) : Sound next := by
  simp only [moveJob, Option.bind_eq_some_iff, Option.ite_none_right_eq_some, Option.some.injEq] at stepped
  obtain ⟨job, found, accepted, rfl⟩ := stepped
  have open' := unsettled job.status accepted
  refine ⟨?_, sound.lock, sound.rowLock, sound.awaiting, fun process => ?_⟩
  · rintro _ ⟨⟩ mine _
    exact sound.exclusive job found mine open'
  · refine fits_job (sound.fits process) fun admits => ?_
    -- Whoever dispatches has seen the job settled.
    have settled : job.status.terminal = true := by
      have fits := sound.fits process
      cases stage : state.processes process with
      | eligible | dispatched =>
        rw [stage] at fits
        exact fits job found
      | _ => simp [stage, Stage.admits] at admits
    rw [open'] at settled
    cases settled

-- A write of a row that nobody has locked, which does not make the cloud an owner.
theorem sound_cloud (sound : Sound state) (free : state.rowLock = none) {cloud : Option CloudJobStatus}
    {completed : Bool} (owns : cloud.any inFlight = true → state.cloudOwns = true) :
    Sound { state with cloud := cloud, completed := completed } := by
  have kept (unowned : state.cloudOwns = false) : cloud.any inFlight = false := by
    by_contra owned
    rw [owns (by simpa using owned)] at unowned
    cases unowned
  refine ⟨fun job found mine unsettled => ?_, sound.lock, sound.rowLock, fun held => absurd free held, fun process => ?_⟩
  · exact kept (sound.exclusive job found mine unsettled)
  · refine fits_cloud (sound.fits process) (fun produces => ?_) fun removed => ?_
    · exact kept ((sound.fits process).unowned produces)
    · have mine := sound.rowLock process (by rw [removed]; rfl)
      rw [free] at mine
      cases mine

theorem sound_ledger (sound : Sound state) (ledger : Option Ledger) : Sound { state with ledger := ledger } :=
  ⟨sound.exclusive, sound.lock, sound.rowLock, sound.awaiting, sound.fits⟩

/-! ## The producers -/

theorem Sound.lock_of (sound : Sound state) {stage : Stage} (running : state.processes process = stage)
    (locks : stage.locks = true) : state.lock = some process :=
  sound.lock process (by rw [running]; exact locks)

theorem sound_leaving (sound : Sound state) (mine : state.lock = some process) :
    Sound (state.become process .leaving) :=
  sound_become sound (fun _ => mine) (fun row => by cases row) trivial

theorem sound_acquire (sound : Sound state) {scratch : Bool} (stepped : acquire state process scratch = some next) :
    Sound next := by
  simp only [acquire, Option.ite_none_right_eq_some, Option.some.injEq] at stepped
  obtain ⟨⟨-, free⟩, rfl⟩ := stepped
  exact sound_become (sound_takeLock sound free) (fun _ => rfl) (fun row => by cases row) trivial

theorem sound_probe (sound : Sound state) (stepped : probe state process = some next) : Sound next := by
  unfold probe at stepped
  split at stepped
  · rename_i scratch running
    have mine := sound.lock_of running rfl
    split at stepped
    · cases stepped
      exact sound_leaving sound mine
    · cases stepped
      exact sound_become sound (fun _ => mine) (fun row => by cases row) trivial
  · cases stepped

theorem sound_checkCloud (sound : Sound state) (stepped : checkCloud state process = some next) : Sound next := by
  unfold checkCloud at stepped
  split at stepped
  · rename_i scratch running
    have mine := sound.lock_of running rfl
    split at stepped
    · cases stepped
      exact sound_leaving sound mine
    · rename_i unowned
      cases stepped
      refine sound_become sound (fun _ => mine) (fun row => by cases row) ?_
      cases scratch with
      | true => trivial
      | false => simpa [Fits] using unowned
  · cases stepped

theorem sound_hook (sound : Sound state) {written : Bool} {now : Int}
    (stepped : hook state process written now = some next) : Sound next := by
  unfold hook at stepped
  split at stepped
  · rename_i scratch running
    have mine := sound.lock_of running rfl
    have fits := sound.fits process
    cases stepped
    refine sound_become (sound_ledger sound _) (fun _ => mine) (fun row => by cases row) ?_
    rw [running] at fits
    cases scratch <;> exact fits
  · cases stepped

-- The job goes in while the lock keeps the drain from dispatching.
theorem sound_insert (sound : Sound state) {accepted : Bool} (stepped : insert state process accepted = some next) :
    Sound next := by
  unfold insert at stepped
  split at stepped
  · rename_i scratch written running
    have mine := sound.lock_of running rfl
    split at stepped
    · cases stepped
      have inserted : Sound { state with job := some { status := .queued, scratch := scratch } } := by
        refine ⟨?_, sound.lock, sound.rowLock, sound.awaiting, fun other => ?_⟩
        · rintro _ ⟨⟩ localJob _
          have fits := sound.fits process
          rw [running] at fits
          cases localJob
          exact fits
        · refine fits_job (sound.fits other) fun admits => ?_
          have same := sound.alone running rfl (locks_of_admits admits)
          rw [same, running] at admits
          cases admits
      exact sound_leaving inserted mine
    · cases stepped
      exact sound_leaving sound mine
  · cases stepped

/-! ## The drain -/

theorem sound_held (sound : Sound state) : Sound (state.become process .held) :=
  sound_become sound (fun locks => by cases locks) (fun row => by cases row) trivial

theorem sound_select (sound : Sound state) (stepped : select state process = some next) : Sound next := by
  simp only [select, Option.ite_none_right_eq_some, Option.some.injEq] at stepped
  obtain ⟨⟨-, candidate, free⟩, rfl⟩ := stepped
  have awaiting : state.cloud = some .awaiting := by
    simp only [State.awaitingCandidate, Bool.and_eq_true, decide_eq_true_eq] at candidate
    exact candidate.1.1
  exact sound_become (sound_takeRow sound free awaiting) (fun locks => by cases locks) (fun _ => rfl) trivial

theorem sound_lockCandidate (sound : Sound state) (stepped : lockCandidate state process = some next) : Sound next := by
  unfold lockCandidate at stepped
  split at stepped
  · rename_i running
    have row := sound.rowLock process (by rw [running]; rfl)
    split at stepped
    · rename_i free
      cases stepped
      exact sound_become (sound_takeLock sound free) (fun _ => rfl) (fun _ => row) trivial
    · cases stepped
      exact sound_held sound
  · cases stepped

theorem sound_recheck (sound : Sound state) (admitted : Admitted state (.recheck process))
    (stepped : recheck state process = some next) : Sound next := by
  unfold recheck at stepped
  split at stepped
  · rename_i running
    have mine := sound.lock_of running rfl
    have row := sound.rowLock process (by rw [running]; rfl)
    split at stepped
    · rename_i available
      cases stepped
      refine sound_become sound (fun _ => mine) (fun _ => row) fun job found => ?_
      -- Not queued, not active, and by the condition not aborting.
      have dead : job.status.live = false := by
        simp only [State.candidateAvailable, State.jobLive, found, Bool.and_eq_true, Bool.not_eq_true'] at available
        simpa using available.2
      have going := admitted job found
      cases status : job.status with
      | queued | active => simp [status, SaqStatus.live] at dead
      | aborting => exact absurd status going
      | complete | failed | aborted => rfl
    · cases stepped
      exact sound_held sound
  · cases stepped

theorem sound_dispatch (sound : Sound state) {kind : BackendKind}
    (stepped : dispatch state process kind = some next) : Sound next := by
  unfold dispatch at stepped
  split at stepped
  · rename_i running
    have mine := sound.lock_of running rfl
    have row := sound.rowLock process (by rw [running]; rfl)
    have fits := sound.fits process
    rw [running] at fits
    obtain ⟨status, -, rfl⟩ := Option.map_eq_some_iff.mp stepped
    exact sound_become sound (fun _ => mine) (fun _ => row) fits
  · cases stepped

/-! ## The transfer -/

theorem sound_survey (sound : Sound state) {cutoff : Int} (stepped : survey state process cutoff = some next) :
    Sound next := by
  unfold survey at stepped
  split at stepped
  · simp only [Option.ite_none_right_eq_some, Option.some.injEq] at stepped
    obtain ⟨-, rfl⟩ := stepped
    exact sound_become sound (fun locks => by cases locks) (fun row => by cases row) trivial
  · cases stepped

theorem sound_guard (sound : Sound state) (stepped : guard state process = some next) : Sound next := by
  unfold guard at stepped
  split at stepped
  · split at stepped
    · rename_i free
      cases stepped
      exact sound_become (sound_takeLock sound free) (fun _ => rfl) (fun row => by cases row) trivial
    · cases stepped
      exact sound_held sound
  · cases stepped

theorem sound_own (sound : Sound state) (stepped : own state process = some next) : Sound next := by
  unfold own at stepped
  split at stepped
  · rename_i cutoff seen running
    have mine := sound.lock_of running rfl
    split at stepped
    · rename_i owed
      cases stepped
      exact sound_become (sound_takeRow sound owed.2 owed.1) (fun _ => mine) (fun _ => rfl) trivial
    · cases stepped
      exact sound_held sound
  · cases stepped

theorem sound_remove (sound : Sound state) (stepped : remove state process = some next) : Sound next := by
  unfold remove at stepped
  split at stepped
  · rename_i cutoff seen running
    have mine := sound.lock_of running rfl
    have row := sound.rowLock process (by rw [running]; rfl)
    split at stepped
    · rename_i asked
      cases stepped
      refine sound_become sound (fun _ => mine) (fun _ => row) ?_
      have owed := asked.2
      simp only [State.conflicts, Bool.and_eq_true, Bool.not_eq_true'] at owed
      exact owed.1.1.1.2
    · cases stepped
      exact sound_held sound
  · cases stepped

theorem processes_release (other : ProcessId) :
    (state.release process).processes other = if other = process then .idle else state.processes other := by
  simp [State.release, processes_become]

-- The cloud becomes the owner: the job is settled, and no producer is past its check.
theorem sound_commit_dispatched (sound : Sound state) {status : CloudJobStatus}
    (running : state.processes process = .dispatched status) :
    Sound ({ state with cloud := some status }.release process) := by
  have row := sound.rowLock process (by rw [running]; rfl)
  have settled := sound.fits process
  rw [running] at settled
  have released : Sound (state.release process) := sound_release sound
  have freed : (state.release process).rowLock = none := by simp [State.release, State.become, row]
  show Sound { state.release process with cloud := some status, completed := state.completed }
  refine ⟨fun job found _ unsettled => ?_, released.lock, released.rowLock, fun held => absurd freed held, fun other => ?_⟩
  · rw [settled job found] at unsettled
    cases unsettled
  · refine fits_cloud (released.fits other) (fun produces => ?_) fun removed => ?_
    · rw [processes_release] at produces
      split at produces
      · cases produces
      · rename_i apart
        exact absurd (sound.alone running rfl (locks_of_produces produces)) apart
    · have fits := released.fits other
      rw [removed] at fits
      exact fits

theorem sound_commit (sound : Sound state) (stepped : commit state process = some next) : Sound next := by
  unfold commit at stepped
  split at stepped
  · rename_i status running
    cases stepped
    exact sound_commit_dispatched sound running
  · cases stepped
    exact sound_release (sound_ledger sound none)
  all_goals
    cases stepped
    try exact sound_release sound

theorem step_sound {action : Action} (sound : Sound state) (admitted : Admitted state action)
    (stepped : step state action = some next) : Sound next := by
  cases action with
  | acquire process scratch => exact sound_acquire sound stepped
  | probe process => exact sound_probe sound stepped
  | checkCloud process => exact sound_checkCloud sound stepped
  | hook process written now => exact sound_hook sound stepped
  | insert process accepted => exact sound_insert sound stepped
  | select process => exact sound_select sound stepped
  | lockCandidate process => exact sound_lockCandidate sound stepped
  | recheck process => exact sound_recheck sound admitted stepped
  | dispatch process kind => exact sound_dispatch sound stepped
  | survey process cutoff => exact sound_survey sound stepped
  | guard process => exact sound_guard sound stepped
  | own process => exact sound_own sound stepped
  | remove process => exact sound_remove sound stepped
  | commit process => exact sound_commit sound stepped
  | leave process =>
    cases stepped
    exact sound_release sound
  | hold =>
    simp only [step, Option.ite_none_right_eq_some, Option.some.injEq] at stepped
    obtain ⟨free, rfl⟩ := stepped
    exact sound_cloud sound free (by simp [inFlight])
  | advance status =>
    simp only [step, Option.ite_none_right_eq_some, Option.some.injEq] at stepped
    obtain ⟨⟨free, owns⟩, rfl⟩ := stepped
    exact sound_cloud sound free fun _ => owns
  | finish =>
    simp only [step, finish, Option.ite_none_right_eq_some, Option.some.injEq] at stepped
    obtain ⟨free, rfl⟩ := stepped
    refine sound_cloud sound free fun owns => ?_
    split at owns
    · cases owns
    · exact owns
  | clear fromRunningJob =>
    simp only [step, clear, Option.ite_none_left_eq_some, Option.some.injEq] at stepped
    obtain ⟨-, rfl⟩ := stepped
    exact sound_ledger sound none
  | dequeue | retry | abort =>
    simp only [step] at stepped
    refine sound_moveJob sound (fun status accepted => ?_) stepped
    cases status <;> first | rfl | cases accepted
  | settle status =>
    simp only [step, Option.ite_none_right_eq_some] at stepped
    exact sound_moveJob sound (by simp) stepped.2
  | vanish =>
    simp only [step, Option.ite_none_left_eq_some, Option.some.injEq] at stepped
    obtain ⟨-, rfl⟩ := stepped
    refine ⟨by simp, sound.lock, sound.rowLock, sound.awaiting, fun process => ?_⟩
    exact fits_job (sound.fits process) (by simp)

theorem Sound.transfersOwed (sound : Sound state) (action : Action) : TransfersOwed state action := by
  cases action with
  | commit process =>
    intro running _
    refine ⟨fun producer scratch ledgered => ?_, sound.awaiting ?_, ?_⟩
    · -- Both would hold the attempt lock.
      have same := sound.alone running rfl (show (state.processes producer).locks = true by rw [ledgered]; rfl)
      rw [same, running] at ledgered
      cases ledgered
    · rw [sound.rowLock process (by rw [running]; rfl)]
      simp
    · have fits := sound.fits process
      rw [running] at fits
      exact fits
  | _ => trivial

/-- In every run in which no drain re-checks a candidate whose job SAQ is aborting, no local job is queued or
active beside a cloud owner, and whatever ledger row the next commit of a transfer deletes is no producer's and
is still owed by an awaiting row. -/
theorem analysis_has_one_owner (actions : List Action) (along : Along step Admitted .initial actions)
    (ran : run step .initial actions = some state) :
    Exclusive state ∧ ∀ action, TransfersOwed state action := by
  have sound : Sound state := run_keeps (fun _ _ _ => step_sound) actions along sound_initial ran
  refine ⟨fun job found mine live => sound.exclusive job found mine ?_, sound.transfersOwed⟩
  cases status : job.status with
  | queued | active | aborting => rfl
  | complete | failed | aborted => simp [status, SaqStatus.live] at live

end Steps

/-! ## A file that is held for the cloud -/

def enqueued (process : ProcessId) : List Action :=
  [.acquire process false, .probe process, .checkCloud process, .hook process true 0, .insert process true,
    .leave process]

def drained (process : ProcessId) : List Action :=
  [.select process, .lockCandidate process, .recheck process, .dispatch process .kueue, .commit process]

def transferred (process : ProcessId) (cutoff : Int) : List Action :=
  [.survey process cutoff, .guard process, .own process, .remove process, .commit process]

theorem failed_job_hands_over : ∃ state,
    run step .initial (.hold :: enqueued 1 ++ [.dequeue, .settle .failed] ++ transferred 2 1 ++ drained 3) = some state ∧
      state.cloud = some .uploading ∧ state.ledger = none ∧ Exclusive state ∧
      ∀ action, TransfersOwed state action := by
  have along : Along step Admitted .initial
      (.hold :: enqueued 1 ++ [.dequeue, .settle .failed] ++ transferred 2 1 ++ drained 3) := by decide
  exact ⟨_, rfl, rfl, rfl, analysis_has_one_owner _ along rfl⟩

/-- While a sweep aborts the local job, the transfer takes its ledger row and the drain dispatches the file; then
the sweep queues the job again. -/
theorem swept_job_and_cloud_own : ∃ state,
    run step .initial (.hold :: enqueued 1 ++ [.dequeue, .abort] ++ transferred 2 1 ++ drained 3 ++ [.retry]) =
        some state ∧
      state.cloud = some .uploading ∧ state.job = some { status := .queued, scratch := false } ∧
      ¬ Exclusive state := by
  refine ⟨_, rfl, rfl, rfl, fun exclusive => ?_⟩
  have unowned := exclusive _ rfl rfl rfl
  cases unowned

end Phaze.Attempt
