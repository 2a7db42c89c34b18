import Mathlib

set_option autoImplicit false

/-!
# Association runs and their requests

The events of `services/companion_autolink.py` that ask for a run of their agent, the jobs that carry the requests,
and the task of `tasks/companion_association.py` with its two deferrals. The api and the worker read one clock.
Each await is a step. A run that starts ends.
-/

namespace Phaze.Companion

-- `ASSOCIATION_WINDOW_SECONDS`
def windowSeconds : Int := 120

-- The floor of `at // ASSOCIATION_WINDOW_SECONDS`.
def associationWindow (instant : ℚ) : Int :=
  instant.num / (instant.den * windowSeconds)

-- The instant for which the job of a window is scheduled.
def windowEnd (window : Int) : ℚ :=
  ((window + 1) * windowSeconds : Int)

/-! ## Events -/

inductive Request where
  | committed
  -- The window is computed, the broker has not been asked.
  | computed (window : Int)
  | made
  | failed
deriving DecidableEq

structure Event where
  agent : String
  committedAt : ℚ
  request : Request
deriving DecidableEq

/-! ## Jobs -/

inductive Stage where
  | undecided
  -- No scan of the agent runs; the lock has not been tried.
  | unscanned
  | deferring
  -- `_defer` has computed its window.
  | requeueing (window : Int)
  | running
  -- The run has ended and the lock is released; the import run is created.
  | released
deriving DecidableEq

def Stage.decided : Stage → Bool
  | .running | .released => true
  | .undecided | .unscanned | .deferring | .requeueing _ => false

inductive Phase where
  | queued (scheduled : ℚ)
  -- `seen` counts the events that had been committed when the job was dequeued.
  | active (dequeuedAt : ℚ) (seen : Nat) (stage : Stage)
  | finished
deriving DecidableEq

def Phase.live : Phase → Bool
  | .queued _ | .active .. => true
  | .finished => false

structure Job where
  agent : String
  window : Int
  phase : Phase
deriving DecidableEq

-- A run that has started, with the number of the events committed before it.
structure AssociationRun where
  agent : String
  seen : Nat
deriving DecidableEq

structure State where
  now : ℚ
  events : List Event
  jobs : List Job
  runs : List AssociationRun
  -- The agents that have a RUNNING scan batch.
  scanning : List String
  -- The holder of each advisory lock, by the place of its job.
  locks : Int → Option Nat

def State.initial (now : ℚ) : State :=
  { now, events := [], jobs := [], runs := [], scanning := [], locks := fun _ => none }

/-! ## Steps -/

-- SAQ drops an enqueue whose key is queued or active.
def enqueueAssociation (state : State) (agent : String) (window : Int) : State :=
  if state.jobs.any fun job => job.phase.live && job.agent == agent && job.window == window then state
  else { state with jobs := state.jobs ++ [{ agent, window, phase := .queued (windowEnd window) }] }

def State.setRequest (state : State) (index : Nat) (request : Request) : State :=
  { state with events := state.events.modify index fun event => { event with request } }

def State.setPhase (state : State) (index : Nat) (phase : Phase) : State :=
  { state with jobs := state.jobs.modify index fun job => { job with phase } }

inductive Action where
  | tick (now : ℚ)
  | commit (agent : String)
  -- `request_association`, by the place of its event
  | compute (event : Nat)
  | insert (event : Nat)
  | fail (event : Nat)
  | scan (agent : String) (running : Bool)
  -- `associate_agent_companions`, by the place of its job
  | dequeue (job : Nat)
  | checkScan (job : Nat)
  | tryLock (job : Nat)
  | recompute (job : Nat)
  | requeue (job : Nat)
  | endRun (job : Nat)
  | finish (job : Nat)
deriving DecidableEq

-- The key of the advisory lock: a hash of the agent, which two agents may share.
variable (lockKey : String → Int)

def requestStep (state : State) (index : Nat) (event : Event) : Action → Option State
  | .compute _ =>
      match event.request with
      | .committed => some (state.setRequest index (.computed (associationWindow state.now)))
      | _ => none
  | .insert _ =>
      match event.request with
      | .computed window => some ((enqueueAssociation state event.agent window).setRequest index .made)
      | _ => none
  | .fail _ =>
      match event.request with
      | .committed | .computed _ => some (state.setRequest index .failed)
      | _ => none
  | _ => none

def activeStep (state : State) (index : Nat) (job : Job) (dequeuedAt : ℚ) (seen : Nat) :
    Stage → Action → Option State
  | .undecided, .checkScan _ =>
      let stage := if job.agent ∈ state.scanning then .deferring else .unscanned
      some (state.setPhase index (.active dequeuedAt seen stage))
  | .unscanned, .tryLock _ =>
      match state.locks (lockKey job.agent) with
      | some _ => some (state.setPhase index (.active dequeuedAt seen .deferring))
      | none =>
          some { state.setPhase index (.active dequeuedAt seen .running) with
            locks := Function.update state.locks (lockKey job.agent) (some index)
            runs := state.runs ++ [{ agent := job.agent, seen := state.events.length }] }
  | .deferring, .recompute _ =>
      some (state.setPhase index (.active dequeuedAt seen (.requeueing (associationWindow state.now))))
  -- The task returns once the broker has answered.
  | .requeueing window, .requeue _ => some ((enqueueAssociation state job.agent window).setPhase index .finished)
  | .running, .endRun _ =>
      some { state.setPhase index (.active dequeuedAt seen .released) with
        locks := Function.update state.locks (lockKey job.agent) none }
  | .released, .finish _ => some (state.setPhase index .finished)
  | _, _ => none

def jobStep (state : State) (index : Nat) (job : Job) (action : Action) : Option State :=
  match job.phase with
  | .queued scheduled =>
      match action with
      | .dequeue _ =>
          if scheduled ≤ state.now then
            some (state.setPhase index (.active state.now state.events.length .undecided))
          else none
      | _ => none
  | .active dequeuedAt seen stage => activeStep lockKey state index job dequeuedAt seen stage action
  | .finished => none

def step (state : State) (action : Action) : Option State :=
  match action with
  | .tick now => if state.now ≤ now then some { state with now } else none
  | .commit agent =>
      some { state with events := state.events ++ [{ agent, committedAt := state.now, request := .committed }] }
  | .scan agent running =>
      some { state with
        scanning := if running then agent :: state.scanning else state.scanning.filter (· ≠ agent) }
  | .compute index | .insert index | .fail index =>
      (state.events[index]?).bind fun event => requestStep state index event action
  | .dequeue index | .checkScan index | .tryLock index | .recompute index | .requeue index | .endRun index
  | .finish index =>
      (state.jobs[index]?).bind fun job => jobStep lockKey state index job action

end Phaze.Companion
