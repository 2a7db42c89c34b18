import Phaze.Quarantine.Review
import Phaze.Shared.Runs

set_option autoImplicit false

/-!
# The quarantine of one companion

The `companion_junk_review` row of a file, the decisions on it (`services/companion_junk_review.py`), the
`enqueue_quarantine` calls (`services/junk_quarantine.py`, `services/agent_task_router.py`), the
`quarantine_companion` jobs on the agent (`tasks/junk_quarantine.py`) and their reports.

A call claims the row, connects to the broker, and inside `queue.enqueue` writes the ledger row, inserts the
job and notifies. A statement that was cut off may land later, or never. A job that was ever inserted may run
at any time and any number of times; a report that was ever sent may be served so.
-/

namespace Phaze.Quarantine

abbrev CallId := Nat
abbrev AttemptId := Nat
-- How many approvals the row had when it was claimed.
abbrev Approval := Nat

inductive Statement where
  | ledger (approval : Approval)
  | job (approval : Approval)
deriving DecidableEq

def Statement.approval : Statement → Approval
  | .ledger approval | .job approval => approval

-- What becomes of the statement a call was waiting for.
inductive Landing where
  | now
  | later
  | never
deriving DecidableEq

inductive Stage where
  | idle
  | claimed (approval : Approval)
  -- Inside `queue.enqueue`: the `before_enqueue` hook, the INSERT, the NOTIFY.
  | noting (approval : Approval)
  | inserting (approval : Approval)
  | notifying (approval : Approval)
  -- The row is in `unsent` when the `finally` is reached.
  | unsent (approval : Approval)
  | over
deriving DecidableEq

def Stage.inside : Stage → Bool
  | .noting _ | .inserting _ | .notifying _ => true
  | .idle | .claimed _ | .unsent _ | .over => false

def Stage.waiting : Stage → Bool
  | .claimed _ | .unsent _ => true
  | .idle | .noting _ | .inserting _ | .notifying _ | .over => false

def Stage.holding : Stage → Option Approval
  | .claimed approval | .noting approval | .inserting approval | .notifying approval | .unsent approval => some approval
  | .idle | .over => none

def Stage.statement : Stage → Option Statement
  | .noting approval => some (.ledger approval)
  | .inserting approval => some (.job approval)
  | .idle | .claimed _ | .notifying _ | .unsent _ | .over => none

inductive Attempt where
  | idle
  | running (approval : Approval)
  | reporting (outcome : Outcome)
  | over
deriving DecidableEq

-- Where the approved bytes are; `elsewhere` once somebody else has taken or changed the file.
inductive Place where
  | source
  | quarantine
  | elsewhere
deriving DecidableEq

structure State where
  -- `none` once the pending row was withdrawn.
  status : Option JunkReviewStatus
  approvals : Approval
  calls : CallId → Stage
  ledger : Option Approval
  -- Statements that were cut off, or are on their way from recovery.
  inFlight : List Statement
  -- Every job that was inserted.
  jobs : List Approval
  attempts : AttemptId → Attempt
  file : Place
  sent : List Outcome
  -- The `files` rows of the identity are gone.
  retired : Bool

-- The detector has proposed the file.
def State.initial : State :=
  { status := some .pending
    approvals := 0
    calls := fun _ => .idle
    ledger := none
    inFlight := []
    jobs := []
    attempts := fun _ => .idle
    file := .source
    sent := []
    retired := false }

inductive Action where
  -- The row.
  | decide (target : JunkReviewStatus)
  | withdraw
  -- The calls.
  | claim (call : CallId)
  | connect (call : CallId)
  | fail (call : CallId)
  | note (call : CallId) (landing : Landing)
  | insert (call : CallId)
  | enqueued (call : CallId)
  | ambiguous (call : CallId) (landing : Landing)
  | cancel (call : CallId) (landing : Landing)
  | release (call : CallId)
  | die (call : CallId) (landing : Landing)
  -- The broker and the ledger.
  | recover
  | land (statement : Statement)
  | lose (statement : Statement)
  | clear
  -- The agent.
  | begin (attempt : AttemptId) (approval : Approval)
  | quarantineFile (attempt : AttemptId)
  | refuse (attempt : AttemptId)
  | report (attempt : AttemptId)
  | finish (attempt : AttemptId)
  | disturb
  | serve (outcome : Outcome)
deriving DecidableEq

section Steps

variable (state : State)

/-! ## The row -/

-- `decide_content_group`
def decideContentGroup (target : JunkReviewStatus) : Option State :=
  if target.decision then
    match state.status with
    | some status =>
        if allowedFrom target status then
          some { state with
            status := some target
            approvals := if target = .approved then state.approvals + 1 else state.approvals }
        else some state
    | none => some state
  else none

-- A pending row that the detector or `_rejudge_pending_duplicates` no longer finds to be junk.
def withdraw : Option State :=
  if state.status = some .pending then some { state with status := none } else none

/-! ## The calls -/

def setCall (call : CallId) (stage : Stage) : State :=
  { state with calls := Function.update state.calls call stage }

def write : Statement → State
  | .ledger approval => { state with ledger := some approval }
  | .job approval => { state with jobs := approval :: state.jobs }

def settle (statement : Option Statement) (landing : Landing) : State :=
  match statement, landing with
  | some statement, .now => write state statement
  | some statement, .later => { state with inFlight := statement :: state.inFlight }
  | _, _ => state

-- `_claim_approved` with its commit
def claimApproved (call : CallId) : Option State :=
  match state.calls call, state.status with
  | .idle, some status =>
      if allowedFrom .executing status then
        some { setCall state call (.claimed state.approvals) with status := some .executing }
      else none
  | _, _ => none

def connect (call : CallId) : Option State :=
  match state.calls call with
  | .claimed approval => some (setCall state call (.noting approval))
  | _ => none

-- The payload or `queue.connect()` raised, or the call was cancelled before `queue.enqueue`.
def failCall (call : CallId) : Option State :=
  match state.calls call with
  | .claimed approval => some (setCall state call (.unsent approval))
  | _ => none

-- The hook logs a failed ledger write and goes on.
def noteLedger (call : CallId) (landing : Landing) : Option State :=
  match state.calls call with
  | .noting approval => some (setCall (settle state (some (.ledger approval)) landing) call (.inserting approval))
  | _ => none

def insertJob (call : CallId) : Option State :=
  match state.calls call with
  | .inserting approval => some (setCall (write state (.job approval)) call (.notifying approval))
  | _ => none

def returnCall (call : CallId) : Option State :=
  match state.calls call with
  | .notifying _ => some (setCall state call .over)
  | _ => none

-- `AmbiguousEnqueueError`: the row is discarded from `unsent`.
def raiseAmbiguous (call : CallId) (landing : Landing) : Option State :=
  if (state.calls call).inside then some (setCall (settle state (state.calls call).statement landing) call .over)
  else none

-- A cancellation inside `queue.enqueue` is not an `Exception`: the row stays in `unsent`.
def cancelCall (call : CallId) (landing : Landing) : Option State :=
  match (state.calls call).holding with
  | some approval =>
      if (state.calls call).inside then
        some (setCall (settle state (state.calls call).statement landing) call (.unsent approval))
      else none
  | none => none

-- `_release_unsent`
def releaseUnsent (call : CallId) : Option State :=
  match state.calls call with
  | .unsent _ =>
      some { setCall state call .over with
        status := if state.status = some .executing then some .approved else state.status }
  | _ => none

-- The process dies.
def dieCall (call : CallId) (landing : Landing) : Option State :=
  match (state.calls call).holding with
  | some _ => some (setCall (settle state (state.calls call).statement landing) call .over)
  | none => none

/-! ## The broker and the ledger -/

-- The recovery read the ledger row, and enqueues its job.
def recover : Option State :=
  match state.ledger with
  | some approval => some { state with inFlight := .ledger approval :: .job approval :: state.inFlight }
  | none => none

def land (statement : Statement) : Option State :=
  if statement ∈ state.inFlight then
    some (write { state with inFlight := state.inFlight.erase statement } statement)
  else none

def lose (statement : Statement) : Option State :=
  if statement ∈ state.inFlight then some { state with inFlight := state.inFlight.erase statement } else none

/-! ## The agent -/

def setAttempt (attempt : AttemptId) (stage : Attempt) : State :=
  { state with attempts := Function.update state.attempts attempt stage }

def beginAttempt (attempt : AttemptId) (approval : Approval) : Option State :=
  if state.attempts attempt = .idle ∧ approval ∈ state.jobs then some (setAttempt state attempt (.running approval))
  else none

-- `quarantine_file`: the move, or its replay.
def quarantineFile (attempt : AttemptId) : Option State :=
  match state.attempts attempt, state.file with
  | .running _, .source => some { setAttempt state attempt (.reporting .quarantined) with file := .quarantine }
  | .running _, .quarantine => some (setAttempt state attempt (.reporting .quarantined))
  | _, _ => none

-- `QuarantineRefused`
def refuseFile (attempt : AttemptId) : Option State :=
  match state.attempts attempt with
  | .running _ => some (setAttempt state attempt (.reporting .failed))
  | _ => none

-- `report_junk_quarantine`, whose answer may be lost.
def report (attempt : AttemptId) : Option State :=
  match state.attempts attempt with
  | .reporting outcome => some { state with sent := outcome :: state.sent }
  | _ => none

def disturb : Option State :=
  if state.file = .source then some { state with file := .elsewhere } else none

-- `transition_review`
def transitionReview (target : JunkReviewStatus) : State :=
  match state.status with
  | some status => if allowedFrom target status then { state with status := some target } else state
  | none => state

-- `record_quarantine_result`
def recordQuarantineResult (outcome : Outcome) : Option State :=
  if outcome ∈ state.sent then
    if state.status = some .executing then
      match outcome with
      | .quarantined => some { transitionReview state .quarantined with retired := true, ledger := none }
      | .failed => some { transitionReview state .failed with ledger := none }
    else some state
  else none

def step : Action → Option State
  | .decide target => decideContentGroup state target
  | .withdraw => withdraw state
  | .claim call => claimApproved state call
  | .connect call => connect state call
  | .fail call => failCall state call
  | .note call landing => noteLedger state call landing
  | .insert call => insertJob state call
  | .enqueued call => returnCall state call
  | .ambiguous call landing => raiseAmbiguous state call landing
  | .cancel call landing => cancelCall state call landing
  | .release call => releaseUnsent state call
  | .die call landing => dieCall state call landing
  | .recover => recover state
  | .land statement => land state statement
  | .lose statement => lose state statement
  | .clear => some { state with ledger := none }
  | .begin attempt approval => beginAttempt state attempt approval
  | .quarantineFile attempt => quarantineFile state attempt
  | .refuse attempt => refuseFile state attempt
  | .report attempt => report state attempt
  | .finish attempt => some (setAttempt state attempt .over)
  | .disturb => disturb state
  | .serve outcome => recordQuarantineResult state outcome

end Steps

end Phaze.Quarantine
