import Phaze.Cloud.Job
import Phaze.Drain.Selection
import Phaze.Shared.Runs

set_option autoImplicit false

/-!
# Who analyses one file

The `process_file` job of a file at the broker, its `scheduling_ledger` row, its `cloud_job` row and the advisory
lock of its analysis attempt. Producers (`tasks/_shared/resilient_queue.py`) hold the lock for their session,
from before they look for an owner until the broker has the job; the drain (`tasks/release_awaiting_cloud.py`)
and the transfer (`tasks/awaiting_ownership.py`) try it for their transaction. Each await is a step, and a
process may be cancelled between any two. Lock acquisition and reads do not fail.
-/

namespace Phaze.Attempt

open Phaze.Cloud (inFlight)
open Phaze.Drain (BackendKind)
open Phaze.Staging (CloudJobStatus)

abbrev ProcessId := Nat

/-! ## The rows -/

inductive SaqStatus where
  | queued
  | active
  | aborting
  | complete
  | failed
  | aborted
deriving DecidableEq

-- `TERMINAL_STATUSES` of SAQ.
def SaqStatus.terminal : SaqStatus → Bool
  | .complete | .failed | .aborted => true
  | .queued | .active | .aborting => false

-- `_LIVE_SAQ_STATUSES` of `services/stage_status.py`.
def SaqStatus.live : SaqStatus → Bool
  | .queued | .active => true
  | .aborting | .complete | .failed | .aborted => false

structure Job where
  status : SaqStatus
  -- The hand-over of a compute agent has a `scratch_path`; a local job has none.
  scratch : Bool
deriving DecidableEq

structure Ledger where
  enqueuedAt : Int
  updatedAt : Int
deriving DecidableEq

/-! ## The processes -/

inductive Stage where
  | idle
  -- `ResilientPostgresQueue.enqueue`
  | serialized (scratch : Bool)
  | unowned (scratch : Bool)
  | cleared (scratch : Bool)
  -- The ledger hook has run; it may have failed to write.
  | ledgered (scratch written : Bool)
  | leaving
  -- `_stage_candidate_page`
  | candidate
  | admitting
  | eligible
  | dispatched (status : CloudJobStatus)
  -- `transfer_awaiting_ownership`, with the cutoff and the generation it has read
  | conflict (cutoff : Int) (seen : Ledger)
  | guarded (cutoff : Int) (seen : Ledger)
  | owned (cutoff : Int) (seen : Ledger)
  | removed
  -- A candidate that the tick or the pass has given up; what it locked stays locked.
  | held
deriving DecidableEq

structure State where
  job : Option Job
  ledger : Option Ledger
  cloud : Option CloudJobStatus
  -- `domain_completed_clause` of the analysis.
  completed : Bool
  -- The attempt lock, and the lock of the `cloud_job` row.
  lock : Option ProcessId
  rowLock : Option ProcessId
  processes : ProcessId → Stage

def State.initial : State :=
  { job := none
    ledger := none
    cloud := none
    completed := false
    lock := none
    rowLock := none
    processes := fun _ => .idle }

inductive Action where
  | acquire (process : ProcessId) (scratch : Bool)
  | probe (process : ProcessId)
  | checkCloud (process : ProcessId)
  | hook (process : ProcessId) (written : Bool) (now : Int)
  | insert (process : ProcessId) (accepted : Bool)
  | select (process : ProcessId)
  | lockCandidate (process : ProcessId)
  | recheck (process : ProcessId)
  | dispatch (process : ProcessId) (kind : BackendKind)
  | survey (process : ProcessId) (cutoff : Int)
  | guard (process : ProcessId)
  | own (process : ProcessId)
  | remove (process : ProcessId)
  | commit (process : ProcessId)
  -- The end of a producer, a rollback, or a cancellation.
  | leave (process : ProcessId)
  -- The other writers of the `cloud_job` row, and the analysis callback.
  | hold
  | advance (status : CloudJobStatus)
  | finish
  | clear (fromRunningJob : Bool)
  -- SAQ.
  | dequeue
  | retry
  | abort
  | settle (status : SaqStatus)
  | vanish
deriving DecidableEq

/-! ## The statements -/

section Statements

variable (state : State)

-- `live_job_clause`
def State.jobLive : Bool := state.job.any fun job => job.status.live

-- `cloud_owns_analysis`
def State.cloudOwns : Bool := state.cloud.any inFlight

-- `awaiting_candidate_clause`
def State.awaitingCandidate : Bool :=
  state.cloud = some .awaiting && state.ledger.isNone && !state.completed

-- `cloud_candidate_available`
def State.candidateAvailable : Bool := state.awaitingCandidate && !state.jobLive

-- The stale conflicts: an awaiting row beside an old ledger row of an analysis that is still owed.
def State.conflicts (cutoff : Int) (ledger : Ledger) : Bool :=
  state.cloud = some .awaiting && !state.completed && ledger.enqueuedAt < cutoff && ledger.updatedAt < cutoff &&
    !state.jobLive

def State.become (process : ProcessId) (stage : Stage) : State :=
  { state with processes := Function.update state.processes process stage }

def State.release (process : ProcessId) : State :=
  { state with
    lock := if state.lock = some process then none else state.lock
    rowLock := if state.rowLock = some process then none else state.rowLock }.become process .idle

end Statements

def dispatchedStatus : BackendKind → Option CloudJobStatus
  | .kueue => some .uploading
  | .compute => some .submitted
  | .localLane => none

/-! ## The steps -/

section Steps

variable (state : State) (process : ProcessId)

-- A non-terminal job holds the key, whatever it is.
def probe : Option State :=
  match state.processes process with
  | .serialized scratch =>
      if state.job.any fun job => !job.status.terminal then some (state.become process .leaving)
      else some (state.become process (.unowned scratch))
  | _ => none

def checkCloud : Option State :=
  match state.processes process with
  | .unowned scratch =>
      if !scratch && state.cloudOwns then some (state.become process .leaving)
      else some (state.become process (.cleared scratch))
  | _ => none

def hook (written : Bool) (now : Int) : Option State :=
  match state.processes process with
  | .cleared scratch =>
      let ledger := if written then some { enqueuedAt := now, updatedAt := now } else state.ledger
      some ({ state with ledger := ledger }.become process (.ledgered scratch written))
  | _ => none

-- SAQ overwrites a terminal job only, and may refuse even that by its schedule.
def insert (accepted : Bool) : Option State :=
  match state.processes process with
  | .ledgered scratch _ =>
      if accepted && state.job.all fun job => job.status.terminal then
        some ({ state with job := some { status := .queued, scratch := scratch } }.become process .leaving)
      else some (state.become process .leaving)
  | _ => none

def recheck : Option State :=
  match state.processes process with
  | .admitting =>
      if state.candidateAvailable then some (state.become process .eligible) else some (state.become process .held)
  | _ => none

def dispatch (kind : BackendKind) : Option State :=
  match state.processes process with
  | .eligible => (dispatchedStatus kind).map fun status => state.become process (.dispatched status)
  | _ => none

-- A conflict whose lock is taken is left for another pass.
def guard : Option State :=
  match state.processes process with
  | .conflict cutoff seen =>
      if state.lock = none then some ({ state with lock := some process }.become process (.guarded cutoff seen))
      else some (state.become process .held)
  | _ => none

def own : Option State :=
  match state.processes process with
  | .guarded cutoff seen =>
      if state.cloud = some .awaiting ∧ state.rowLock = none then
        some ({ state with rowLock := some process }.become process (.owned cutoff seen))
      else some (state.become process .held)
  | _ => none

-- The delete asks for everything again, and for the generation.
def remove : Option State :=
  match state.processes process with
  | .owned cutoff seen =>
      if state.ledger = some seen ∧ state.conflicts cutoff seen then some (state.become process .removed)
      else some (state.become process .held)
  | _ => none

-- What a transaction has written is in the tables when it has released its locks.
def commit : Option State :=
  match state.processes process with
  | .dispatched status => some ({ state with cloud := some status }.release process)
  | .removed => some ({ state with ledger := none }.release process)
  | .candidate | .admitting | .eligible | .conflict .. | .guarded .. | .owned .. | .held =>
      some (state.release process)
  | .idle | .serialized _ | .unowned _ | .cleared _ | .ledgered .. | .leaving => none

def acquire (scratch : Bool) : Option State :=
  if state.processes process = .idle ∧ state.lock = none then
    some ({ state with lock := some process }.become process (.serialized scratch))
  else none

def select : Option State :=
  if state.processes process = .idle ∧ state.awaitingCandidate ∧ state.rowLock = none then
    some ({ state with rowLock := some process }.become process .candidate)
  else none

def lockCandidate : Option State :=
  match state.processes process with
  | .candidate =>
      if state.lock = none then some ({ state with lock := some process }.become process .admitting)
      else some (state.become process .held)
  | _ => none

def survey (cutoff : Int) : Option State :=
  match state.processes process, state.ledger with
  | .idle, some ledger =>
      if state.conflicts cutoff ledger then some (state.become process (.conflict cutoff ledger)) else none
  | _, _ => none

-- The analysis callback completes the stage and deletes an `awaiting` row in one transaction.
def finish : Option State :=
  if state.rowLock = none then
    some { state with
      completed := true
      cloud := if state.cloud = some .awaiting then none else state.cloud }
  else none

-- `clear_ledger_entry`; a callback of the running job does not count its own row.
def clear (fromRunningJob : Bool) : Option State :=
  if state.job.any fun job => job.status = .queued || (!fromRunningJob && job.status = .active) then none
  else some { state with ledger := none }

def moveJob (accepts : SaqStatus → Bool) (status : SaqStatus) : Option State :=
  state.job.bind fun job =>
    if accepts job.status then some { state with job := some { job with status := status } } else none

def step : Action → Option State
  | .acquire process scratch => acquire state process scratch
  | .probe process => probe state process
  | .checkCloud process => checkCloud state process
  | .hook process written now => hook state process written now
  | .insert process accepted => insert state process accepted
  | .select process => select state process
  | .lockCandidate process => lockCandidate state process
  | .recheck process => recheck state process
  | .dispatch process kind => dispatch state process kind
  | .survey process cutoff => survey state process cutoff
  | .guard process => guard state process
  | .own process => own state process
  | .remove process => remove state process
  | .commit process => commit state process
  | .leave process => some (state.release process)
  | .hold => if state.rowLock = none then some { state with cloud := some .awaiting } else none
  | .advance status =>
      if state.rowLock = none ∧ state.cloudOwns then some { state with cloud := some status } else none
  | .finish => finish state
  | .clear fromRunningJob => clear state fromRunningJob
  | .dequeue => moveJob state (· = .queued) .active
  -- A worker retries its job; a sweep retries one that it has aborted.
  | .retry => moveJob state (fun status => status = .active || status = .aborting) .queued
  | .abort => moveJob state (· = .active) .aborting
  | .settle status =>
      if status.terminal then moveJob state (fun status => !status.terminal) status else none
  -- An expired row, or one that a reaper deletes.
  | .vanish => if state.job.any fun job => job.status = .queued then none else some { state with job := none }

end Steps

end Phaze.Attempt
