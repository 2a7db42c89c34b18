import Phaze.Staging.Protocol
import Phaze.Shared.Table

set_option autoImplicit false

/-!
# The `cloud_job` row and its writers

`models/cloud_job.py` and every statement that writes the row: the awaiting writer
(`services/backends/admission.py`), the two dispatch upserts (`services/cloud_staging.py`,
`services/backends/compute_agent.py`), the submit upsert (`tasks/submit_cloud_job.py`) and the
writes of the reconcile cron (`tasks/reconcile_cloud_jobs.py`).

Instants are counted in microseconds. `updated_at` is the instant of the last write: an `UPDATE`
stamps it by its `onupdate`, the upserts name it.
-/

namespace Phaze.Cloud

open Phaze.Staging (CloudJobStatus UploadId)

abbrev BackendId := String

def seconds (count : Int) : Int := count * 1000000

-- `IN_FLIGHT` of `services/backends/base.py`.
def inFlight : CloudJobStatus → Bool
  | .uploading | .uploaded | .submitted | .running => true
  | .awaiting | .succeeded | .failed => false

inductive CloudPhase where
  | queuedBehindQuota
  | admitted
  | running
  | finished
deriving DecidableEq

structure CloudJob where
  s3Key : Option String
  status : CloudJobStatus
  uploadId : Option UploadId
  kueueWorkload : Option String
  attempts : Nat
  nodeLossRedrives : Nat
  nodeLossPending : Option String
  inadmissible : Bool
  cloudPhase : Option CloudPhase
  backendId : Option BackendId
  stagingBucket : Option String
  telemetrySlot : Option Nat
  lastExitCode : Option Int
  lastFailureReason : Option String
  lastFailedAt : Option Int
  redriveAfter : Option Int
  startedAt : Option Int
  updatedAt : Int
deriving DecidableEq

-- The column defaults an `INSERT` leaves in place.
def CloudJob.fresh (status : CloudJobStatus) (now : Int) : CloudJob :=
  { s3Key := none
    status := status
    uploadId := none
    kueueWorkload := none
    attempts := 0
    nodeLossRedrives := 0
    nodeLossPending := none
    inadmissible := false
    cloudPhase := none
    backendId := none
    stagingBucket := none
    telemetrySlot := none
    lastExitCode := none
    lastFailureReason := none
    lastFailedAt := none
    redriveAfter := none
    startedAt := none
    updatedAt := now }

/-! ## The awaiting writer -/

-- Hold mode of `hold_awaiting_cloud`: an upsert that asks nothing of the row.
def holdAwaiting (row : Option CloudJob) (attempts : Nat) (now : Int) : CloudJob :=
  { row.getD (.fresh .awaiting now) with status := .awaiting, attempts := attempts, updatedAt := now }

-- Spill mode: a compare-and-set on the status and, where it is given, on the upload.
def spillAwaiting (row : CloudJob) (attempts : Nat) (expectStatus : List CloudJobStatus)
    (expectUploadId : Option UploadId) (clearCloudPhase : Bool) (now : Int) : Option CloudJob :=
  if row.status ∈ expectStatus ∧ (expectUploadId.isSome → row.uploadId = expectUploadId) then
    some { row with
      status := .awaiting
      attempts := attempts
      cloudPhase := if clearCloudPhase then none else row.cloudPhase
      updatedAt := now }
  else
    none

/-! ## The dispatch upserts -/

-- `_uploading_cloud_job_upsert`: a re-stage keeps every column it does not name.
def uploadingUpsert (row : Option CloudJob) (s3Key : String) (upload : UploadId) (bucket : String)
    (now : Int) : CloudJob :=
  { row.getD (.fresh .uploading now) with
    s3Key := some s3Key
    status := .uploading
    uploadId := some upload
    stagingBucket := some bucket
    updatedAt := now }

-- The stamp that ends `KueueBackend.dispatch`.
def stampBackend (row : CloudJob) (backend : BackendId) (bucket : String) (now : Int) : CloudJob :=
  { row with backendId := some backend, stagingBucket := some bucket, updatedAt := now }

-- The upsert of `ComputeAgentBackend.dispatch`.
def computeUpsert (row : Option CloudJob) (backend : BackendId) (now : Int) : CloudJob :=
  { row.getD (.fresh .submitted now) with
    backendId := some backend
    status := .submitted
    updatedAt := now }

-- Where a dispatch sends the file, with what it stages there.
inductive Placement where
  | kueue (s3Key : String) (upload : UploadId) (bucket : String)
  | compute
deriving DecidableEq

def dispatchRow (row : Option CloudJob) (backend : BackendId) (placement : Placement) (now : Int) : CloudJob :=
  match placement with
  | .kueue s3Key upload bucket => stampBackend (uploadingUpsert row s3Key upload bucket now) backend bucket now
  | .compute => computeUpsert row backend now

@[simp]
theorem dispatchRow_backendId (row : Option CloudJob) (backend : BackendId) (placement : Placement) (now : Int) :
    (dispatchRow row backend placement now).backendId = some backend := by
  cases placement <;> rfl

@[simp]
theorem dispatchRow_lastExitCode (row : Option CloudJob) (backend : BackendId) (placement : Placement) (now : Int) :
    (dispatchRow row backend placement now).lastExitCode = row.bind CloudJob.lastExitCode := by
  cases placement <;> cases row <;> rfl

@[simp]
theorem dispatchRow_lastFailedAt (row : Option CloudJob) (backend : BackendId) (placement : Placement) (now : Int) :
    (dispatchRow row backend placement now).lastFailedAt = row.bind CloudJob.lastFailedAt := by
  cases placement <;> cases row <;> rfl

/-! ## The upload callback, the submit and the reapers -/

-- The flip of `process_uploaded`, pinned to the upload it completed.
def uploadedFlip (row : CloudJob) (upload : UploadId) (now : Int) : Option CloudJob :=
  if row.status = .uploading ∧ row.uploadId = some upload then
    some { row with status := .uploaded, updatedAt := now }
  else none

-- The conflict arm of the submit upsert, guarded on the status.
def submitUpsert (row : CloudJob) (name : String) (now : Int) : Option CloudJob :=
  if row.status = .uploaded ∨ row.status = .submitted then
    some { row with
      status := .submitted
      kueueWorkload := some name
      cloudPhase := some .queuedBehindQuota
      startedAt := none
      updatedAt := now }
  else none

-- The row that the submit upsert inserts where there is none.
def insertedRow (s3Key name : String) (now : Int) : CloudJob :=
  { CloudJob.fresh .submitted now with
    s3Key := some s3Key
    kueueWorkload := some name
    cloudPhase := some .queuedBehindQuota }

-- `_reap_stranded_staging`: the row as the reaper read it under the drain lock.
def reapStaging (row : CloudJob) (cap : Nat) (now : Int) : Option CloudJob :=
  if row.status.staging then
    spillAwaiting row (min (row.attempts + 1) cap) [row.status] row.uploadId true now
  else none

-- `_reap_stranded_submitted`
def reapSubmitted (row : CloudJob) (cap : Nat) (now : Int) : Option CloudJob :=
  spillAwaiting row (min (row.attempts + 1) cap) [.submitted] none false now

theorem reapStaging_eq_some {row reaped : CloudJob} {cap : Nat} {now : Int} :
    reapStaging row cap now = some reaped ↔ row.status.staging ∧
      reaped = { row with
        status := .awaiting, attempts := min (row.attempts + 1) cap, cloudPhase := none, updatedAt := now } := by
  simp only [reapStaging, spillAwaiting, List.mem_singleton, true_and, implies_true, if_true,
    Option.ite_none_right_eq_some, Option.some.injEq]
  exact and_congr_right fun _ => eq_comm

/-! ## The failure record -/

structure TerminalFailure where
  exitCode : Option Int
  reason : String
deriving DecidableEq

-- `_record_failure`; no instant marks the record of a deferred re-drive.
def recordFailure (row : CloudJob) (failure : TerminalFailure) (failedAt : Option Int) : CloudJob :=
  { row with
    lastExitCode := failure.exitCode
    lastFailureReason := some failure.reason
    lastFailedAt := failedAt }

-- `_effective_failure`
def effectiveFailure (row : CloudJob) (failure : TerminalFailure) : TerminalFailure :=
  match failure.exitCode, row.lastFailedAt, row.lastFailureReason with
  | none, none, some reason => { exitCode := row.lastExitCode, reason := reason }
  | _, _, _ => failure

end Phaze.Cloud
