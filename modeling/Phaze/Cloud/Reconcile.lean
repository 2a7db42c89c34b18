import Phaze.Cloud.Job

set_option autoImplicit false

/-!
# One row through the reconcile cron

`_reconcile_one` of `tasks/reconcile_cloud_jobs.py`, branch by branch. What the cron reads from the
cluster, from the analysis table and from the breaker is an `Observation`; what it does is an
`Outcome`: the row it commits, whether it enqueues a `submit_cloud_job`, the attempts it stamps when
it spills the row to `awaiting`, and the budget a re-drive is recorded under.
-/

namespace Phaze.Cloud

open Phaze.Staging (CloudJobStatus)

structure Settings where
  cloudSubmitMaxAttempts : Nat
  cloudNodeLossMaxRedrives : Nat
  cloudRedriveBackoffSec : List Nat

inductive JobDisposition where
  | succeeded
  | failed
  | inFlight
deriving DecidableEq

inductive WorkloadDisposition where
  | evicted
  | inadmissible
  | pending
  | admitted
  | quotaReserved
  | unknown
deriving DecidableEq

structure Wedge where
  reason : String
  nodeLoss : Bool
deriving DecidableEq

structure Observation where
  now : Int
  -- `get_job`, and the paired Workload; `none` is a Job that is gone, or a Workload not found.
  job : Option JobDisposition
  workload : Option WorkloadDisposition
  wedge : Option Wedge
  analysisCompleted : Bool
  -- `_terminal_node_loss_reason` and `_terminal_failure`, read from the pods.
  nodeLossReason : Option String
  failure : Option TerminalFailure
  -- `_job_gone` after the delete.
  jobGone : Bool
  -- The breaker's answer to an unreachable exit.
  held : Bool
  jobStartedAt : Option Int
deriving DecidableEq

inductive Budget where
  | attempts
  | nodeLossRedrives
  | uncharged
deriving DecidableEq

structure Outcome where
  row : CloudJob
  enqueued : Bool
  spilled : Option Nat
  redriven : Option Budget
deriving DecidableEq

def pendingSubmitConfirmation : Int := seconds 3600

def failureJobVanished : String := "job_vanished"

def failurePendingConfirmationExpired : String := "pending_confirmation_expired"

def failurePodNotFound : String := "pod_not_found"

def controlPlaneUnreachable : Int := 14

def redriveBackoffSeconds (schedule : List Nat) (redriveNumber : Nat) : Nat :=
  if schedule.isEmpty ∨ redriveNumber < 1 then 0
  else schedule.getD (min redriveNumber schedule.length - 1) 0

-- `onupdate` stamps a row only when the commit changes it.
def commitRow (old new : CloudJob) (now : Int) : CloudJob :=
  if new = old then old else { new with updatedAt := now }

section Terminal

variable (settings : Settings) (row : CloudJob) (seen : Observation)

def recordSuccess : Outcome :=
  { row := commitRow row { row with status := .succeeded, inadmissible := false, cloudPhase := some .finished } seen.now
    enqueued := false
    spilled := none
    redriven := none }

-- `_spill_to_awaiting`: the status goes through the awaiting writer, the rest is written beside it.
def spillToAwaiting (attempts : Nat) (failure : TerminalFailure) : Outcome :=
  let spilled := spillAwaiting row attempts [.submitted, .running] none true seen.now
  let kept := spilled.getD row
  { row := commitRow row (recordFailure { kept with
        inadmissible := false
        stagingBucket := none
        nodeLossPending := none
        redriveAfter := none } failure (some seen.now)) seen.now
    enqueued := false
    spilled := spilled.map fun _ => attempts
    redriven := none }

def redriveUnderCeiling (name : Option String) (nextAttempt : Nat) (budget : Budget)
    (effectiveNodeLossReason : Option String) (failure : TerminalFailure) (backoffSeconds : Nat) : Outcome :=
  -- A row with no Job has nothing to wait for.
  if name.isSome ∧ ¬ seen.jobGone then
    { row := commitRow row
        (recordFailure { row with nodeLossPending := effectiveNodeLossReason } failure none) seen.now
      enqueued := false
      spilled := none
      redriven := none }
  else
    let charged :=
      match budget, effectiveNodeLossReason with
      | .uncharged, _ => row
      | _, some _ => { row with nodeLossRedrives := nextAttempt }
      | _, none => { row with attempts := nextAttempt }
    let redriven := recordFailure { charged with
      status := .submitted
      startedAt := none
      inadmissible := false
      nodeLossPending := none
      kueueWorkload := none } failure (some seen.now)
    if 0 < backoffSeconds then
      { row := commitRow row { redriven with
          redriveAfter := some (seen.now + seconds backoffSeconds), cloudPhase := none } seen.now
        enqueued := false
        spilled := none
        redriven := some budget }
    else
      { row := commitRow row redriven seen.now, enqueued := true, spilled := none, redriven := some budget }

def holdControlPlaneUnreachable (name : Option String) (failure : TerminalFailure) : Outcome :=
  if row.backendId.isSome ∧ ¬ seen.held then
    redriveUnderCeiling row seen name row.attempts .uncharged none failure 0
  else
    spillToAwaiting row seen row.attempts failure

def handleNoCallbackTerminal (name : Option String) (observed : TerminalFailure)
    (nodeLossReason : Option String) : Outcome :=
  let failure := effectiveFailure row observed
  if failure.exitCode = some controlPlaneUnreachable then
    holdControlPlaneUnreachable row seen name failure
  else
    let effectiveNodeLossReason := nodeLossReason.or row.nodeLossPending
    let (nextAttempt, ceiling, budget) :=
      if effectiveNodeLossReason.isSome then
        (row.nodeLossRedrives + 1, settings.cloudNodeLossMaxRedrives, Budget.nodeLossRedrives)
      else
        (row.attempts + 1, settings.cloudSubmitMaxAttempts, Budget.attempts)
    if ceiling < nextAttempt then
      spillToAwaiting row seen settings.cloudSubmitMaxAttempts failure
    else
      redriveUnderCeiling row seen name nextAttempt budget effectiveNodeLossReason failure
        (redriveBackoffSeconds settings.cloudRedriveBackoffSec nextAttempt)

def finalizeOrRedrive (name : Option String) (noPodMarker : String) (probeNodeLoss : Bool) : Outcome :=
  if seen.analysisCompleted then recordSuccess row seen
  else if probeNodeLoss ∧ name.isSome then
    handleNoCallbackTerminal settings row seen name (seen.failure.getD ⟨none, noPodMarker⟩) seen.nodeLossReason
  else
    handleNoCallbackTerminal settings row seen name ⟨none, noPodMarker⟩ none

end Terminal

-- The Job the row names; `if not name` takes an empty name for none.
def CloudJob.job (row : CloudJob) : Option String := row.kueueWorkload.filter (· ≠ "")

section Branches

variable (settings : Settings) (row : CloudJob) (seen : Observation)

-- A tick that commits the row, possibly with another flag or phase, and starts nothing.
def hold (row' : CloudJob) : Outcome :=
  { row := commitRow row row' seen.now, enqueued := false, spilled := none, redriven := none }

def reconcileBackoff (due : Int) : Outcome :=
  if seen.now < due then hold row seen row
  else
    { row := commitRow row { row with redriveAfter := none } seen.now
      enqueued := true
      spilled := none
      redriven := none }

def reconcilePendingConfirmation : Outcome :=
  if seen.now - row.updatedAt ≤ pendingSubmitConfirmation then hold row seen row
  else finalizeOrRedrive settings row seen none failurePendingConfirmationExpired false

def terminalizeIfWedged (name : String) : Option Outcome :=
  match seen.wedge with
  | some wedge =>
      if seen.analysisCompleted then none
      else
        let failure :=
          match seen.failure with
          | some ⟨some code, reason⟩ => ⟨some code, reason⟩
          | _ => ⟨none, wedge.reason⟩
        some (handleNoCallbackTerminal settings row seen (some name) failure
          (if wedge.nodeLoss then some wedge.reason else none))
  | none => none

def advanceAdmitted (name : String) (phase : CloudPhase) : Outcome :=
  (terminalizeIfWedged settings row seen name).getD
    (hold row seen { row with
      status := .running
      inadmissible := false
      cloudPhase := some phase
      startedAt := seen.jobStartedAt.or row.startedAt })

def reconcileWorkloadState (name : String) : WorkloadDisposition → Outcome
  | .evicted => finalizeOrRedrive settings row seen (some name) failurePodNotFound true
  | .inadmissible => hold row seen { row with inadmissible := true }
  | .pending => hold row seen { row with inadmissible := false, cloudPhase := some .queuedBehindQuota }
  | .admitted => advanceAdmitted settings row seen name .running
  | .quotaReserved => advanceAdmitted settings row seen name .admitted
  | .unknown => hold row seen row

def reconcileOne : Outcome :=
  match row.job with
  | none =>
      match row.redriveAfter with
      | some due => reconcileBackoff row seen due
      | none => reconcilePendingConfirmation settings row seen
  | some name =>
      match seen.job with
      | none => finalizeOrRedrive settings row seen (some name) failureJobVanished false
      | some .succeeded => recordSuccess row seen
      | some .failed => finalizeOrRedrive settings row seen (some name) failurePodNotFound true
      | some .inFlight =>
          match seen.workload with
          | none => hold row seen row
          | some workload => reconcileWorkloadState settings row seen name workload

end Branches

end Phaze.Cloud
