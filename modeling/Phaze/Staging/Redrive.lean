import Phaze.Staging.Protocol
import Phaze.Shared.Jobs
import Phaze.Shared.Runs

set_option autoImplicit false

/-!
# What a re-drive leaves in the queue

The handlers of one file together with its `s3_upload` jobs. The staging core parks
its enqueue on the session, `flush_pending_s3_enqueues` fires it after the commit, and
the job that fires under the deterministic key is the one whose part URLs were signed
for the parked upload. A failing job posts its report before it settles
(`tasks/s3_upload.py`); the report may be served at any later time, and more than once.
-/

namespace Phaze.Staging.Redrive

open Phaze.Jobs (Slot)
open Phaze.Runs (run_cons run_invariant)

structure State where
  handlers : Staging.State
  jobs : Slot UploadId
  -- `session.info` of each handler, and the job whose report it serves.
  parked : ProcessId → Option (Origin × UploadId)
  reporter : ProcessId → Option Nat
  -- The failure reports sent so far, by the number of their job.
  reports : List Nat

def State.initial (attempts : Nat) (ledger : Option Nat) : State :=
  { handlers := .initial attempts ledger
    jobs := .empty
    parked := fun _ => none
    reporter := fun _ => none
    reports := [] }

inductive Action where
  -- A step of a handler, the failure callback's start apart.
  | handler (action : Staging.Action)
  | deliver (process : ProcessId) (reporter : Nat) (resolves : Bool)
  | dequeue
  | report
  | settle

-- `_park_s3_enqueue` as the staging core ends; whoever leaves the flush, or drops it, has popped the entry.
def parkedAt (parked : Option (Origin × UploadId)) : Stage → Option (Origin × UploadId)
  | .staged origin fresh => some (origin, fresh)
  | .flushing => parked
  | _ => none

namespace State

def park (state : State) (process : ProcessId) (handlers : Staging.State) : State :=
  { state with
    handlers := handlers
    parked := Function.update state.parked process
      (parkedAt (state.parked process) (handlers.processes process).stage) }

-- `flush_pending_s3_enqueues`: an enqueue that raises is swallowed, one that is deduped only logged.
def flush (state : State) (process : ProcessId) (event : Event) : Slot UploadId :=
  match (state.handlers.processes process).stage, event, state.parked process with
  | .flushing, .ran, some (_, fresh) => state.jobs.enqueue fresh
  | _, _, _ => state.jobs

end State

section Steps

variable (settings : Settings) (state : State)

def step : Action → Option State
  | .handler (.start _ .uploadFailed _) => none
  | .handler (.start process handler resolves) =>
      (Staging.step settings state.handlers (.start process handler resolves)).map (state.park process)
  | .handler (.resume process event) =>
      (Staging.step settings state.handlers (.resume process event)).map fun handlers =>
        { state with jobs := state.flush process event }.park process handlers
  | .handler (.crash process) =>
      (Staging.step settings state.handlers (.crash process)).map (state.park process)
  | .deliver process reporter resolves =>
      if reporter ∈ state.reports then
        (Staging.step settings state.handlers (.start process .uploadFailed resolves)).map fun handlers =>
          { state with reporter := Function.update state.reporter process (some reporter) }.park process handlers
      else none
  | .dequeue => state.jobs.dequeue.map fun jobs => { state with jobs := jobs }
  | .report =>
      match state.jobs.job with
      | some job =>
          if job.phase = .active then some { state with reports := job.serial :: state.reports } else none
      | none => none
  | .settle => state.jobs.settle.map fun jobs => { state with jobs := jobs }

end Steps

/-! ## The answer of the callback -/

-- The callback answers REDRIVEN once its flush is over, whatever the enqueue came to.
def AnswersRedriven (state : State) (process : ProcessId) (event : Event) : Prop :=
  (state.handlers.processes process).stage = .flushing ∧
    (∃ attempt fresh, state.parked process = some (.redrive attempt, fresh)) ∧
    (event = .ran ∨ event = .raised)

-- A queued or active job has part URLs for the upload that the row records.
def Landed (state : State) : Prop :=
  ∃ job, state.jobs.live = some job ∧ state.handlers.row.uploadId = some job.payload

-- The run ends in the first of its states in which the job has settled.
def SettledBy (settings : Settings) (reporter : Nat) : State → List Action → Prop
  | state, [] => state.jobs.holds reporter = false
  | state, action :: rest =>
      state.jobs.holds reporter = true ∧
        match step settings state action with
        | some next => SettledBy settings reporter next rest
        | none => True

-- The reporting job has settled, and what is enqueued under its key is for the row's upload.
def Lands (state : State) (process : ProcessId) (reporter : Nat) (event : Event) : Prop :=
  state.jobs.holds reporter = false ∧
    match state.jobs.live with
    | some job => state.handlers.row.uploadId = some job.payload
    | none => event = .ran ∧ state.handlers.row.uploadId = (state.parked process).map Prod.snd

section Answer

variable {settings : Settings} {state next : State} {process : ProcessId} {event : Event} {reporter : Nat}

@[simp]
theorem park_jobs (state : State) (process : ProcessId) (handlers : Staging.State) :
    (state.park process handlers).jobs = state.jobs := rfl

-- What a step does to the jobs and to their reports.
structure Traffic (state next : State) : Prop where
  jobs : state.jobs.Moves next.jobs
  reports : ∀ serial ∈ next.reports, serial ∈ state.reports ∨
    ∃ job, state.jobs.job = some job ∧ job.serial = serial
  reporter : ∀ process serial, next.reporter process = some serial →
    state.reporter process = some serial ∨ serial ∈ state.reports

theorem flush_moves (state : State) (process : ProcessId) (event : Event) :
    state.jobs.Moves (state.flush process event) := by
  unfold State.flush
  split
  · exact .inr (.inl ⟨_, rfl⟩)
  · exact .inl rfl

theorem step_traffic {action : Action} (stepped : step settings state action = some next) :
    Traffic state next := by
  have same : ∀ serial ∈ state.reports, serial ∈ state.reports ∨
      ∃ job, state.jobs.job = some job ∧ job.serial = serial := fun _ => .inl
  have idle : ∀ process serial, state.reporter process = some serial →
      state.reporter process = some serial ∨ serial ∈ state.reports := fun _ _ => .inl
  cases action with
  | handler action =>
    cases action with
    | start process handler resolves =>
      cases handler <;> simp only [step, Option.map_eq_some_iff, reduceCtorEq] at stepped
      all_goals
        obtain ⟨handlers, -, rfl⟩ := stepped
        exact ⟨.inl rfl, same, idle⟩
    | resume process event =>
      simp only [step, Option.map_eq_some_iff] at stepped
      obtain ⟨handlers, -, rfl⟩ := stepped
      exact ⟨flush_moves state process event, same, idle⟩
    | crash process =>
      simp only [step, Option.map_eq_some_iff] at stepped
      obtain ⟨handlers, -, rfl⟩ := stepped
      exact ⟨.inl rfl, same, idle⟩
  | deliver process reporter resolves =>
    simp only [step, Option.ite_none_right_eq_some, Option.map_eq_some_iff] at stepped
    obtain ⟨sent, handlers, -, rfl⟩ := stepped
    refine ⟨.inl rfl, same, fun other serial served => ?_⟩
    by_cases here : other = process
    · subst here
      simp only [State.park, Function.update_self, Option.some.injEq] at served
      exact .inr (served ▸ sent)
    · exact .inl (by simpa [State.park, here] using served)
  | dequeue =>
    simp only [step, Option.map_eq_some_iff] at stepped
    obtain ⟨jobs, dequeued, rfl⟩ := stepped
    exact ⟨.inr (.inr (.inl dequeued)), same, idle⟩
  | report =>
    simp only [step] at stepped
    split at stepped
    next job found =>
      simp only [Option.ite_none_right_eq_some, Option.some.injEq] at stepped
      obtain ⟨-, rfl⟩ := stepped
      refine ⟨.inl rfl, fun serial sent => ?_, idle⟩
      rcases List.mem_cons.mp sent with rfl | sent
      · exact .inr ⟨job, found, rfl⟩
      · exact .inl sent
    next => cases stepped
  | settle =>
    simp only [step, Option.map_eq_some_iff] at stepped
    obtain ⟨jobs, settled, rfl⟩ := stepped
    exact ⟨.inr (.inr (.inr settled)), same, idle⟩

/-- A job that runs is the only one of its key, so none is left as it settles. -/
theorem live_of_settledBy {state settled : State} (rest : List Action)
    (held : state.jobs.holds reporter = true) (first : SettledBy settings reporter state rest)
    (ran : Runs.run (step settings) state rest = some settled) : settled.jobs.live = none := by
  induction rest generalizing state with
  | nil =>
    rw [SettledBy, held] at first
    cases first
  | cons action rest ih =>
    obtain ⟨next, stepped, ran⟩ := run_cons.mp ran
    have later : SettledBy settings reporter next rest := by
      have rests := first.2
      rwa [stepped] at rests
    rcases (step_traffic stepped).jobs.holds held with running | none
    · exact ih running later ran
    · cases rest with
      | nil =>
        cases ran
        exact none
      | cons action rest =>
        have running := later.1
        simp [Slot.holds, none] at running

theorem settledBy_of_settled {state settled : State} {rest : List Action}
    (gone : state.jobs.holds reporter = false) (first : SettledBy settings reporter state rest)
    (ran : Runs.run (step settings) state rest = some settled) : settled = state := by
  cases rest with
  | nil =>
    cases ran
    rfl
  | cons action rest =>
    have running := first.1
    rw [gone] at running
    cases running

theorem next_flushing (flushing : (state.handlers.processes process).stage = .flushing) :
    Staging.next settings state.handlers process .ran = some (.hook (some (state.handlers.ledger.getD 0)) .done) ∧
      Staging.next settings state.handlers process .raised = some (.rollback .done) := by
  unfold Staging.next
  rw [flushing]
  exact ⟨rfl, rfl⟩

-- The flush leaves the row alone, and only the queue may have changed.
theorem redriven_step (answers : AnswersRedriven state process event)
    (stepped : step settings state (.handler (.resume process event)) = some next) :
    next.handlers.row = state.handlers.row ∧ next.jobs = state.flush process event := by
  obtain ⟨flushing, -, ran | raised⟩ := answers
  · subst ran
    rw [step, Staging.step, (next_flushing flushing).1] at stepped
    cases stepped
    exact ⟨rfl, rfl⟩
  · subst raised
    rw [step, Staging.step, (next_flushing flushing).2] at stepped
    cases stepped
    exact ⟨rfl, rfl⟩

theorem landed_of_flush (answers : AnswersRedriven state process event)
    (gone : state.jobs.holds reporter = false)
    (row : next.handlers.row = state.handlers.row) (jobs : next.jobs = state.flush process event) :
    Landed next ↔ Lands state process reporter event := by
  obtain ⟨flushing, ⟨attempt, fresh, parked⟩, ran | raised⟩ := answers
  · subst ran
    have fired : next.jobs = state.jobs.enqueue fresh := by
      simp [jobs, State.flush, flushing, parked]
    cases live : state.jobs.live with
    | some job => simp [Landed, Lands, fired, Slot.enqueue_of_live live, live, gone, row]
    | none => simp [Landed, Lands, fired, Slot.enqueue_live_of_free live, live, gone, row, parked]
  · subst raised
    have swallowed : next.jobs = state.jobs := by
      simp [jobs, State.flush, flushing]
    cases live : state.jobs.live with
    | some job => simp [Landed, Lands, swallowed, live, gone, row]
    | none => simp [Landed, Lands, swallowed, live]

-- Every job that has reported had its number from the key.
structure Numbered (state : State) : Prop where
  jobs : state.jobs.Numbered
  reports : ∀ serial ∈ state.reports, serial < state.jobs.issued
  reporters : ∀ process serial, state.reporter process = some serial → serial < state.jobs.issued

theorem step_numbered {action : Action} (numbered : Numbered state)
    (stepped : step settings state action = some next) : Numbered next := by
  have traffic := step_traffic stepped
  have grows := traffic.jobs.issued_le
  refine ⟨traffic.jobs.numbered numbered.jobs, fun serial sent => ?_, fun process serial served => ?_⟩
  · rcases traffic.reports serial sent with sent | ⟨job, found, rfl⟩
    · exact lt_of_lt_of_le (numbered.reports serial sent) grows
    · exact lt_of_lt_of_le (numbered.jobs job found) grows
  · rcases traffic.reporter process serial served with served | sent
    · exact lt_of_lt_of_le (numbered.reporters process serial served) grows
    · exact lt_of_lt_of_le (numbered.reports serial sent) grows

theorem initial_numbered (attempts : Nat) (ledger : Option Nat) : Numbered (.initial attempts ledger) :=
  ⟨by simp [State.initial, Slot.empty, Slot.Numbered], by simp [State.initial], by simp [State.initial]⟩

theorem holds_flush (held : state.jobs.holds reporter = true) (process : ProcessId) (event : Event) :
    (state.flush process event).holds reporter = true := by
  unfold State.flush
  split
  · exact Slot.holds_enqueue held _
  · exact held

-- A job that has settled never has the key again.
theorem holds_flush_of_settled (numbered : Numbered state) (served : state.reporter process = some reporter)
    (gone : state.jobs.holds reporter = false) (process : ProcessId) (event : Event) :
    (state.flush process event).holds reporter = false := by
  have older := numbered.reporters _ reporter served
  unfold State.flush
  split
  · cases live : state.jobs.live with
    | some job => rwa [Slot.enqueue_of_live live]
    | none => simpa [Slot.holds, Slot.enqueue_live_of_free live] using Nat.ne_of_gt older
  · exact gone

/-- Whatever happens between the answer and the first state in which the reporting job has
settled: a job for the row's upload is there exactly if the flush found the key free of the
reporting job, and what the key then holds was signed for the upload the row records. -/
theorem redriven_lands_iff (attempts : Nat) (ledger : Option Nat) (before rest : List Action)
    {answered settled : State}
    (reached : Runs.run (step settings) (.initial attempts ledger) before = some state)
    (served : state.reporter process = some reporter)
    (answers : AnswersRedriven state process event)
    (stepped : step settings state (.handler (.resume process event)) = some answered)
    (ran : Runs.run (step settings) answered rest = some settled)
    (first : SettledBy settings reporter answered rest) :
    Landed settled ↔ Lands state process reporter event := by
  have numbered : Numbered state :=
    run_invariant (fun _ _ _ => step_numbered) before (initial_numbered attempts ledger) reached
  obtain ⟨row, jobs⟩ := redriven_step answers stepped
  cases running : state.jobs.holds reporter with
  | true =>
    have held : answered.jobs.holds reporter = true := by
      rw [jobs]
      exact holds_flush running process event
    have gone := live_of_settledBy rest held first ran
    simp [Landed, Lands, gone, running]
  | false =>
    have gone : answered.jobs.holds reporter = false := by
      rw [jobs]
      exact holds_flush_of_settled numbered served running process event
    rw [settledBy_of_settled gone first ran]
    exact landed_of_flush answers running row jobs

end Answer

/-! ## One re-drive, served before and after its job settles -/

def oneRetry : Settings := { pushMaxAttempts := 3, cloudSubmitMaxAttempts := 3 }

-- A dispatch, and its job; the report of the job's failure, served up to the flush of its re-drive.
def servedReport (settling : List Action) : List Action :=
  [.handler (.start 0 .drain true),
    .handler (.resume 0 .ran),
    .handler (.resume 0 .ran),
    .handler (.resume 0 (.issued "first" .ok)),
    .handler (.resume 0 .ran),
    .handler (.resume 0 (.committed false)),
    .handler (.resume 0 .ran),
    .dequeue,
    .report,
    .deliver 1 0 true,
    .handler (.resume 1 .ran),
    .handler (.resume 1 .ran),
    .handler (.resume 1 .ran),
    .handler (.resume 1 (.answered .ok)),
    .handler (.resume 1 (.issued "second" .ok)),
    .handler (.resume 1 .ran),
    .handler (.resume 1 (.committed false))] ++ settling

/-- The report waits for its answer, so its own job still has the key as the re-drive is enqueued. -/
theorem redriven_without_job : ∃ state answered settled,
    Runs.run (step oneRetry) (.initial 0 none) (servedReport []) = some state ∧
      state.reporter 1 = some 0 ∧ AnswersRedriven state 1 .ran ∧
      step oneRetry state (.handler (.resume 1 .ran)) = some answered ∧
      Runs.run (step oneRetry) answered [.settle] = some settled ∧
      SettledBy oneRetry 0 answered [.settle] ∧
      settled.handlers.row.uploadId = some "second" ∧ ¬ Landed settled := by
  refine ⟨_, _, _, rfl, rfl, ⟨rfl, ⟨_, _, rfl⟩, .inl rfl⟩, rfl, rfl, ⟨rfl, rfl⟩, rfl, ?_⟩
  rintro ⟨job, live, -⟩
  cases live

theorem redriven_lands_after_settling : ∃ state answered,
    Runs.run (step oneRetry) (.initial 0 none) (servedReport [.settle]) = some state ∧
      step oneRetry state (.handler (.resume 1 .ran)) = some answered ∧ Landed answered := by
  refine ⟨_, _, rfl, rfl, ?_⟩
  exact (@redriven_lands_iff oneRetry _ 1 .ran 0 0 none (servedReport [.settle]) [] _ _ rfl rfl
    ⟨rfl, ⟨_, _, rfl⟩, .inl rfl⟩ rfl rfl rfl).mpr ⟨rfl, rfl, rfl⟩

end Phaze.Staging.Redrive
