import Phaze.Cloud.Job
import Phaze.Shared.Jobs
import Phaze.Shared.Runs

set_option autoImplicit false

/-!
# The push of one file

The `cloud_job` row of a file on a compute backend, its `push_file` ledger row with the
`redrive_attempt` counter, its `push_file` and `process_file` jobs, and the callbacks that
move them (`routers/agent_push.py`). A callback that was sent once may be served at any later
time, and more than once. No process crashes.

`/mismatch` holds its advisory lock from the read of the counter to its commit, and from the
re-arm on it also holds the row lock: nobody else writes the row before the counter is stamped.
-/

namespace Phaze.Push

open Phaze.Cloud
open Phaze.Jobs (Slot)

structure Settings where
  pushMaxAttempts : Nat
  cloudSubmitMaxAttempts : Nat

inductive Callback where
  | pushed
  | mismatch
  | failed
deriving DecidableEq

-- The holder of the advisory lock, with the attempts it read.
inductive Mismatch where
  | read (attempts : Nat) (attributed : Bool)
  | enqueued (attempts : Nat)
deriving DecidableEq

-- The enqueue that a dispatch parks: its hook writes the ledger row before the queue has the job.
inductive Parked where
  | parked
  | hooked
deriving DecidableEq

structure State where
  row : CloudJob
  -- `redrive_attempt` of the `push_file` ledger row, if there is one.
  ledger : Option (Option Nat)
  pushes : Slot Unit
  analyses : Slot Unit
  parked : Option Parked
  mismatch : Option Mismatch
  -- `report_pushed` handlers between their commit and their `process_file` enqueue.
  committed : Nat
  sent : List Callback
  -- Since the last dispatch: pushes re-enqueued by `/mismatch`, analyses enqueued by `/pushed`.
  redriven : Nat
  analysed : Nat
deriving DecidableEq

-- A file held for the cloud, and nothing dispatched yet.
def State.initial (row : CloudJob) : State :=
  { row := row
    ledger := none
    pushes := .empty
    analyses := .empty
    parked := none
    mismatch := none
    committed := 0
    sent := []
    redriven := 0
    analysed := 0 }

/-! ## The statements -/

-- The compare-and-set of `report_pushed`.
def pushedFlip (row : CloudJob) (now : Int) : Option CloudJob :=
  if row.status = .submitted then some { row with status := .succeeded, updatedAt := now } else none

-- The re-arm of `_redrive_under_cap_push`.
def rearm (row : CloudJob) (now : Int) : Option CloudJob :=
  if row.status = .submitted ∨ row.status = .succeeded then
    some { row with status := .submitted, updatedAt := now }
  else none

-- `upsert_ledger_entry`: a conflict keeps the counter.
def hooked (ledger : Option (Option Nat)) : Option (Option Nat) :=
  some (ledger.getD none)

-- `clear_ledger_entry`; a probe that fails skips the clear.
def clearLedgerEntry (state : State) (skipped : Bool) : Option (Option Nat) :=
  if skipped ∨ state.pushes.live.isSome then state.ledger else none

def counter (ledger : Option (Option Nat)) : Nat :=
  (ledger.getD none).getD 0

-- Whether a handler may write the row now: no `/mismatch` has re-armed it.
def State.rowFree (state : State) : Bool :=
  match state.mismatch with
  | some (.enqueued _) => false
  | _ => true

/-! ## The steps -/

-- What a `/mismatch` meets after it has read the counter.
structure Surroundings where
  -- The `FileRecord` exists, a fileserver agent is online, the enqueue raises, the clear is skipped.
  found : Bool
  online : Bool
  raises : Bool
  skipped : Bool
deriving DecidableEq

inductive Action where
  | dispatch (backend : BackendId) (now : Int)
  | flushHook
  | flushEnqueue
  | flushFails
  | startPush
  | endPush
  | startAnalysis
  | endAnalysis
  | send (callback : Callback)
  -- `held`: no file record, or no attributed backend.
  | pushed (held skipped : Bool) (now : Int)
  | analyse (raises : Bool)
  | failed (found skipped : Bool) (now : Int)
  | mismatch (authorized attributed : Bool)
  | decide (surroundings : Surroundings) (now : Int)
  | stamp
  | reap (skipped : Bool) (now : Int)
  | reset (now : Int)
deriving DecidableEq

section Steps

variable (settings : Settings) (state : State)

-- `ComputeAgentBackend.dispatch`, with the commit of its tick.
def dispatch (backend : BackendId) (now : Int) : Option State :=
  if state.rowFree ∧ state.row.status = .awaiting ∧ state.row.attempts < settings.cloudSubmitMaxAttempts then
    some { state with
      row := computeUpsert (some state.row) backend now
      parked := some .parked
      redriven := 0
      analysed := 0 }
  else none

-- `flush_pending_push_file_enqueues`: the hook, then the insert.
def flushHook : Option State :=
  if state.parked = some .parked then
    some { state with ledger := hooked state.ledger, parked := some .hooked }
  else none

def flushEnqueue : Option State :=
  if state.parked = some .hooked then
    some { state with pushes := state.pushes.enqueue (), parked := none }
  else none

-- A job posts its callback while it runs: a push its end, an analysis the mismatch it finds.
def send (callback : Callback) : Option State :=
  let running (jobs : Slot Unit) := jobs.job.any fun job => job.phase = .active
  let sender := match callback with
    | .pushed | .failed => running state.pushes
    | .mismatch => running state.analyses
  if sender then some { state with sent := callback :: state.sent } else none

-- `report_pushed`, up to its commit.
def reportPushed (held skipped : Bool) (now : Int) : Option State :=
  if .pushed ∈ state.sent then
    if held then some state
    else if state.rowFree then
      match pushedFlip state.row now with
      | some row => some { state with
          row := row
          ledger := clearLedgerEntry state skipped
          committed := state.committed + 1 }
      | none => some state
    else none
  else none

-- The post-commit enqueue of `report_pushed`; one that raises is logged.
def analyse (raises : Bool) : Option State :=
  if 0 < state.committed then
    if raises then some { state with committed := state.committed - 1 }
    else some { state with
      committed := state.committed - 1
      analyses := state.analyses.enqueue ()
      analysed := state.analysed + 1 }
  else none

-- `report_push_failed`
def reportPushFailed (found skipped : Bool) (now : Int) : Option State :=
  if .failed ∈ state.sent then
    if ¬ found then some state
    else if state.rowFree then
      match spillAwaiting state.row settings.cloudSubmitMaxAttempts [.submitted] none false now with
      | some row => some { state with row := row, ledger := clearLedgerEntry state skipped }
      | none => some state
    else none
  else none

-- `report_push_mismatch`, up to its read of the counter. A reporter that is not the dispatched agent is refused.
def reportPushMismatch (authorized attributed : Bool) : Option State :=
  if .mismatch ∈ state.sent then
    if ¬ authorized then some state
    else if state.mismatch = none then
      some { state with mismatch := some (.read (counter state.ledger) attributed) }
    else none
  else none

-- `_spill_over_cap_push`
def spillOverCapPush (surroundings : Surroundings) (now : Int) : State :=
  let spilled := if surroundings.found then
      spillAwaiting state.row settings.cloudSubmitMaxAttempts [.submitted, .succeeded] none false now
    else none
  match spilled with
  | some row => { state with
      row := row, ledger := clearLedgerEntry state surroundings.skipped, mismatch := none }
  | none => { state with mismatch := none }

-- `_redrive_under_cap_push`, up to its enqueue. An enqueue that raises ends the transaction.
def redriveUnderCapPush (attempts : Nat) (attributed : Bool) (surroundings : Surroundings) (now : Int) : State :=
  if attributed ∧ surroundings.found ∧ surroundings.online then
    match rearm state.row now with
    | none => { state with mismatch := none }
    | some row =>
        if surroundings.raises then { state with ledger := hooked state.ledger, mismatch := none }
        else { state with
          row := row
          ledger := hooked state.ledger
          pushes := state.pushes.enqueue ()
          mismatch := some (.enqueued attempts)
          redriven := state.redriven + 1 }
  else { state with mismatch := none }

-- The rest of `report_push_mismatch`.
def decideMismatch (surroundings : Surroundings) (now : Int) : Option State :=
  match state.mismatch with
  | some (.read attempts attributed) =>
      if settings.pushMaxAttempts < attempts + 1 then some (spillOverCapPush settings state surroundings now)
      else some (redriveUnderCapPush state attempts attributed surroundings now)
  | _ => none

-- The counter's write-back and the commit.
def stamp : Option State :=
  match state.mismatch with
  | some (.enqueued attempts) =>
      some { state with ledger := state.ledger.map fun _ => some (attempts + 1), mismatch := none }
  | _ => none

-- `_reap_stranded_submitted` skips a row whose push is live.
def reap (skipped : Bool) (now : Int) : Option State :=
  if state.rowFree ∧ state.pushes.live = none then
    (reapSubmitted state.row settings.cloudSubmitMaxAttempts now).map fun row =>
      { state with row := row, ledger := clearLedgerEntry state skipped }
  else none

-- The operator's reset of a spent budget.
def reset (now : Int) : Option State :=
  if state.row.status = .awaiting then
    some { state with row := { state.row with attempts := 0, updatedAt := now } }
  else none

def step : Action → Option State
  | .dispatch backend now => dispatch settings state backend now
  | .flushHook => flushHook state
  | .flushEnqueue => flushEnqueue state
  | .flushFails => if state.parked.isSome then some { state with parked := none } else none
  | .startPush => state.pushes.dequeue.map fun pushes => { state with pushes := pushes }
  | .endPush => state.pushes.settle.map fun pushes => { state with pushes := pushes }
  | .startAnalysis => state.analyses.dequeue.map fun analyses => { state with analyses := analyses }
  | .endAnalysis => state.analyses.settle.map fun analyses => { state with analyses := analyses }
  | .send callback => send state callback
  | .pushed held skipped now => reportPushed state held skipped now
  | .analyse raises => analyse state raises
  | .failed found skipped now => reportPushFailed settings state found skipped now
  | .mismatch authorized attributed => reportPushMismatch state authorized attributed
  | .decide surroundings now => decideMismatch settings state surroundings now
  | .stamp => stamp state
  | .reap skipped now => reap settings state skipped now
  | .reset now => reset state now

end Steps

end Phaze.Push
