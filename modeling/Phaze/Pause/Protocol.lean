import Mathlib

set_option autoImplicit false

/-!
# Pausing one pipeline stage

The durable flag of a stage, the caches of it that the processes hold, the stage's rows in `saq_jobs`, and the hooks
of `tasks/_shared/stage_control.py` around SAQ's own writes. A write through `job.update` finds its row by key,
whatever its status. Each await is a step; reads of the control row do not fail.
-/

namespace Phaze.Pause

abbrev ProcessId := Nat

-- A parked row is scheduled for this instant.
def sentinel : Nat := 9999999999

/-! ## The rows -/

inductive Status where
  | queued
  | active
  | complete
  | failed
deriving DecidableEq

def Status.terminal : Status → Bool
  | .complete | .failed => true
  | .queued | .active => false

structure Row where
  status : Status
  -- The column, and the value in the serialised job; 0 is SAQ's default.
  scheduled : Nat
  stored : Nat
  attempts : Nat
  retries : Nat
deriving DecidableEq

-- `epoch` tells which setting of the flag was read.
structure Read where
  paused : Bool
  epoch : Nat
deriving DecidableEq

/-! ## Jobs in the hands of a worker -/

inductive Stage where
  -- SAQ has written the row active.
  | dequeued
  -- The hook has fetched the flag; its cache is not written yet.
  | fetched (read : Read)
  -- `StagePausedRetry` is raised and the context flagged.
  | bounced
  -- SAQ has retried or finished the bounced job; the after hook is next.
  | handled
  | running
  | over
deriving DecidableEq

structure Attempt where
  process : ProcessId
  key : String
  -- The job object: its counter and its schedule.
  attempts : Nat
  scheduled : Nat
  retries : Nat
  -- The counter of the row before the dequeue.
  before : Nat
  stage : Stage
deriving DecidableEq

def Stage.owns : Stage → Bool
  | .dequeued | .fetched _ | .bounced | .running => true
  | .handled | .over => false

-- A job that `apply_stage_control` has stamped and the broker has not stored yet.
structure Stamped where
  key : String
  parked : Bool
  retries : Nat
deriving DecidableEq

structure State where
  now : Nat
  paused : Bool
  epoch : Nat
  caches : ProcessId → Option Read
  rows : String → Option Row
  attempts : List Attempt
  stamped : List Stamped
  -- How many sweeps have read the flag as not paused and have not updated the rows.
  sweeping : Nat

def State.initial : State :=
  { now := 0, paused := false, epoch := 0, caches := fun _ => none, rows := fun _ => none, attempts := [],
    stamped := [], sweeping := 0 }

def State.flag (state : State) : Read :=
  { paused := state.paused, epoch := state.epoch }

/-! ## Updates of the backlog -/

-- `_PAUSE_SQL`
def Row.park (row : Row) : Row :=
  if row.status = .queued then { row with scheduled := sentinel } else row

-- `_RESUME_SQL`: the column and the serialised value
def Row.unpark (row : Row) : Row :=
  if row.status = .queued ∧ row.scheduled = sentinel then { row with scheduled := 0, stored := 0 } else row

def pauseStage (state : State) : State :=
  { state with rows := fun key => (state.rows key).map Row.park }

def resumeStage (state : State) : State :=
  { state with rows := fun key => (state.rows key).map Row.unpark }

def State.setPaused (state : State) (paused : Bool) : State :=
  if state.paused = paused then state else { state with paused, epoch := state.epoch + 1 }

/-! ## Writes of one row -/

-- `UPDATE … WHERE key = …`
def State.update (state : State) (key : String) (write : Row → Row) : State :=
  { state with rows := Function.update state.rows key ((state.rows key).map write) }

def State.setAttempt (state : State) (index : Nat) (attempt : Attempt) : State :=
  { state with attempts := state.attempts.set index attempt }

-- SAQ's enqueue leaves a row that is queued or active.
def storeJob (state : State) (job : Stamped) : State :=
  let scheduled := if job.parked then sentinel else state.now
  let stored := if job.parked then sentinel else 0
  let fresh : Row := { status := .queued, scheduled, stored, attempts := 0, retries := job.retries }
  match state.rows job.key with
  | none => { state with rows := Function.update state.rows job.key (some fresh) }
  | some row =>
      if row.status.terminal then { state with rows := Function.update state.rows job.key (some fresh) } else state

-- SAQ after an exception: `job.retry` while attempts are left, else `job.finish(FAILED)`.
def Attempt.afterException (attempt : Attempt) (now : Nat) (row : Row) : Row :=
  if attempt.attempts < attempt.retries then
    { row with
      status := .queued
      scheduled := if attempt.scheduled = 0 then now else attempt.scheduled
      stored := attempt.scheduled
      attempts := attempt.attempts }
  else { row with status := .failed, attempts := attempt.attempts }

-- The write of `repark_if_stage_paused`
def Attempt.repark (attempt : Attempt) (row : Row) : Row :=
  { row with status := .queued, scheduled := sentinel, stored := sentinel, attempts := attempt.attempts - 1 }

/-! ## Steps -/

inductive Action where
  | tick (now : Nat)
  | pause
  | resume
  | forget (process : ProcessId)
  -- `apply_stage_control`, on the cache or on a fresh read
  | stamp (process : ProcessId) (key : String) (retries : Nat) (fresh : Bool)
  | store (index : Nat)
  | dequeue (process : ProcessId) (key : String)
  -- `enforce_stage_pause_on_process`, on the cache or on a fresh read
  | enforce (index : Nat)
  | fetch (index : Nat)
  | decide (index : Nat)
  -- SAQ's handler after the raise of the hook
  | handle (index : Nat)
  | repark (index : Nat)
  | complete (index : Nat)
  | fail (index : Nat)
  -- `reconcile_stale_stage_parks`
  | sweepRead
  | sweepApply
deriving DecidableEq

-- The answer of the hook: the job is bounced, or its body starts.
def State.answer (state : State) (index : Nat) (attempt : Attempt) (read : Read) : State :=
  let caches := Function.update state.caches attempt.process (some read)
  if read.paused then
    { state.setAttempt index { attempt with scheduled := sentinel, stage := .bounced } with caches }
  else { state.setAttempt index { attempt with stage := .running } with caches }

def attemptStep (state : State) (index : Nat) (attempt : Attempt) : Stage → Action → Option State
  | .dequeued, .enforce _ => (state.caches attempt.process).map (state.answer index attempt)
  | .dequeued, .fetch _ => some (state.setAttempt index { attempt with stage := .fetched state.flag })
  | .fetched read, .decide _ => some (state.answer index attempt read)
  | .bounced, .handle _ =>
      some ((state.update attempt.key (attempt.afterException state.now)).setAttempt index
        { attempt with stage := .handled })
  | .handled, .repark _ =>
      some ((state.update attempt.key attempt.repark).setAttempt index { attempt with stage := .over })
  | .running, .complete _ =>
      some ((state.update attempt.key fun row => { row with status := .complete }).setAttempt index
        { attempt with stage := .over })
  | .running, .fail _ =>
      some ((state.update attempt.key (attempt.afterException state.now)).setAttempt index
        { attempt with stage := .over })
  | _, _ => none

def dequeueStep (state : State) (process : ProcessId) (key : String) (row : Row) : Option State :=
  if row.status = .queued ∧ row.scheduled ≤ state.now then
    some { state with
      rows := Function.update state.rows key
        (some { row with status := .active, scheduled := row.stored, attempts := row.attempts + 1 })
      attempts := state.attempts ++
        [{ process, key, attempts := row.attempts + 1, scheduled := row.stored, retries := row.retries,
           before := row.attempts, stage := .dequeued }] }
  else none

def step (state : State) (action : Action) : Option State :=
  match action with
  | .tick now => if state.now ≤ now then some { state with now } else none
  | .pause => some ((pauseStage state).setPaused true)
  | .resume => some ((resumeStage state).setPaused false)
  | .forget process => some { state with caches := Function.update state.caches process none }
  | .stamp process key retries fresh =>
      if fresh then
        some { state with
          caches := Function.update state.caches process (some state.flag)
          stamped := state.stamped ++ [{ key, parked := state.paused, retries }] }
      else (state.caches process).map fun read =>
        { state with stamped := state.stamped ++ [{ key, parked := read.paused, retries }] }
  | .store index =>
      (state.stamped[index]?).map fun job => storeJob { state with stamped := state.stamped.eraseIdx index } job
  | .dequeue process key => (state.rows key).bind (dequeueStep state process key)
  | .enforce index | .fetch index | .decide index | .handle index | .repark index | .complete index | .fail index =>
      (state.attempts[index]?).bind fun attempt => attemptStep state index attempt attempt.stage action
  | .sweepRead => some (if state.paused then state else { state with sweeping := state.sweeping + 1 })
  | .sweepApply => if 0 < state.sweeping then some { resumeStage state with sweeping := state.sweeping - 1 } else none

end Phaze.Pause
