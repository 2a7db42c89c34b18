import Phaze.Drain.Caps

set_option autoImplicit false

/-!
# The submit of a kueue Job

`tasks/submit_cloud_job.py` with the slot allocation of `services/burst_telemetry_slots.py`, against the
`cloud_job` table and the clusters. A run reads the row's backend, reserves a telemetry slot, POSTs the Job
under its deterministic name, and upserts the row; each is a transaction or a call of its own, and every
other writer of the table may come between any two of them. A POST of a Job that exists leaves it as it is.

The reconcile pass selects its rows, and later reads and commits each of them under the drain's lock. The
other holders of that lock wait for the commit; the callbacks and the submits do not.
-/

namespace Phaze.Submit

open Phaze.Cloud
open Phaze.Drain (Backend BackendKind)
open Phaze.Drain.Caps (Write)
open Phaze.Staging (CloudJobStatus)

structure Settings where
  backends : List Backend
  cloud : Cloud.Settings

def Settings.kind (settings : Settings) (backend : BackendId) : Option BackendKind :=
  (settings.backends.find? fun entry => entry.id = backend).map Backend.kind

-- `burst_slot_bound`
def Settings.burstSlotBound (settings : Settings) : Nat :=
  max 1 ((settings.backends.filter fun entry => entry.kind = .kueue).map Backend.cap).sum

/-! ## The telemetry slots -/

section Slots

variable {File : Type} [DecidableEq File]

-- The other rows in flight that have the slot in their column.
def holders (table : Table File CloudJob) (file : File) (slot : Nat) : Finset File :=
  table.matching fun other row => other ≠ file && row.telemetrySlot = some slot && inFlight row.status

def lowestFree (table : Table File CloudJob) (file : File) (bound : Nat) : Option Nat :=
  (List.range bound).find? fun slot => holders table file slot = ∅

def chooseSlot (table : Table File CloudJob) (file : File) (bound : Nat) (current : Option Nat) : Option Nat :=
  match current with
  | some slot =>
      if slot < bound ∧ holders table file slot = ∅ then some slot else lowestFree table file bound
  | none => lowestFree table file bound

-- `allocate_slot` writes what it chose to the row, and nothing where the pool is full or the row is gone.
def allocateSlot (table : Table File CloudJob) (file : File) (bound : Nat) (now : Int) :
    Option Nat × Table File CloudJob :=
  match table.lookup file with
  | none => (none, table)
  | some row =>
      match chooseSlot table file bound row.telemetrySlot with
      | none => (none, table)
      | some slot => (some slot, table.insert file { row with telemetrySlot := some slot, updatedAt := now })

end Slots

/-! ## The commit of a reconciled row -/

-- A column the session has not changed keeps what the table has by now.
def flushColumn {Column : Type} [DecidableEq Column] (read written current : Column) : Column :=
  if written = read then current else written

def flush (read written current : CloudJob) : CloudJob :=
  { s3Key := flushColumn read.s3Key written.s3Key current.s3Key
    status := flushColumn read.status written.status current.status
    uploadId := flushColumn read.uploadId written.uploadId current.uploadId
    kueueWorkload := flushColumn read.kueueWorkload written.kueueWorkload current.kueueWorkload
    attempts := flushColumn read.attempts written.attempts current.attempts
    nodeLossRedrives := flushColumn read.nodeLossRedrives written.nodeLossRedrives current.nodeLossRedrives
    nodeLossPending := flushColumn read.nodeLossPending written.nodeLossPending current.nodeLossPending
    inadmissible := flushColumn read.inadmissible written.inadmissible current.inadmissible
    cloudPhase := flushColumn read.cloudPhase written.cloudPhase current.cloudPhase
    backendId := flushColumn read.backendId written.backendId current.backendId
    stagingBucket := flushColumn read.stagingBucket written.stagingBucket current.stagingBucket
    telemetrySlot := flushColumn read.telemetrySlot written.telemetrySlot current.telemetrySlot
    lastExitCode := flushColumn read.lastExitCode written.lastExitCode current.lastExitCode
    lastFailureReason := flushColumn read.lastFailureReason written.lastFailureReason current.lastFailureReason
    lastFailedAt := flushColumn read.lastFailedAt written.lastFailedAt current.lastFailedAt
    redriveAfter := flushColumn read.redriveAfter written.redriveAfter current.redriveAfter
    startedAt := flushColumn read.startedAt written.startedAt current.startedAt
    updatedAt := if written = read then current.updatedAt else written.updatedAt }

-- `_reconcile_one` on the row it has read, committed over the row there is. Its spill is a statement of
-- its own, which compares the status of the row there is.
def commitReconcile (cloud : Cloud.Settings) (read current : CloudJob) (seen : Observation) : CloudJob :=
  let outcome := reconcileOne cloud { read with status := current.status } seen
  match outcome.spilled with
  | some attempts =>
      { flush read outcome.row current with status := .awaiting, attempts := attempts, cloudPhase := none }
  | none => flush read outcome.row current

/-! ## The runs -/

inductive Stage (File : Type) where
  | idle
  | resolved (file : File) (backend : BackendId)
  | allocated (file : File) (backend : BackendId) (slot : Option Nat)
  | posted (file : File) (backend : BackendId)
  -- The upsert matched no row; the status it read after that.
  | missed (file : File) (backend : BackendId) (status : Option CloudJobStatus)
deriving DecidableEq

def Stage.file {File : Type} : Stage File → Option File
  | .idle => none
  | .resolved file _ | .allocated file _ _ | .posted file _ | .missed file _ _ => some file

abbrev ProcessId := Nat

structure State (File : Type) where
  table : Table File CloudJob
  -- The Jobs that exist, by cluster, with the slot they were created with; and those ever POSTed.
  jobs : File → BackendId → Option (Option Nat)
  posted : File → BackendId → Bool
  runs : ProcessId → Stage File
  restaging : List File
  selected : List File
  -- The row a reconcile pass has read under the drain's lock; none where it is deleted by now.
  reading : Option (File × Option CloudJob)

inductive Action (File : Type) where
  | hold (file : File) (attempts : Nat) (now : Int)
  | delete (file : File)
  | dispatch (file : File) (backend : BackendId) (placement : Placement) (now : Int)
  | uploadFailed (file : File)
  -- `KueueBackend.reconcile`: the rows of a pass, then each row of it.
  | select (file : File)
  | read (file : File)
  | commit (seen : Observation)
  | rollback
  | write (file : File) (write : Write)
  | jobGone (file : File) (backend : BackendId)
  -- `submit_cloud_job`, one await at a time.
  | resolve (process : ProcessId) (file : File)
  | allocate (process : ProcessId) (now : Int)
  | post (process : ProcessId)
  | upsert (process : ProcessId) (now : Int)
  | deleteJob (process : ProcessId)
  | giveUp (process : ProcessId)

section Steps

variable {File : Type} [DecidableEq File]

def State.initial : State File :=
  { table := ∅
    jobs := fun _ _ => none
    posted := fun _ _ => false
    runs := fun _ => .idle
    restaging := []
    selected := []
    reading := none }

def State.setRun (state : State File) (process : ProcessId) (stage : Stage File) : State File :=
  { state with runs := Function.update state.runs process stage }

def State.setJob (state : State File) (file : File) (backend : BackendId) (job : Option (Option Nat)) :
    State File :=
  { state with jobs := Function.update state.jobs file (Function.update (state.jobs file) backend job) }

def Placement.kind : Placement → BackendKind
  | .kueue .. => .kueue
  | .compute => .compute

variable (settings : Settings) (jobName stagedObjectKey : File → String) (state : State File)

def dispatch (file : File) (backend : BackendId) (placement : Placement) (now : Int) : Option (State File) :=
  if state.reading.isNone ∧ settings.kind backend = some (Placement.kind placement) then
    (state.table.lookup file).bind fun row =>
      if row.status = .awaiting then
        some { state with table := state.table.insert file (dispatchRow (some row) backend placement now) }
      else none
  else none

-- Whether the handler behind the write has come that far; the submit and the reconcile have their own steps.
def State.ready (file : File) : Write → Bool
  | .submit .. | .reconcile _ => false
  | .restage .. => file ∈ state.restaging
  | .reapStaging _ | .reapSubmitted _ => state.reading.isNone
  | _ => true

def write (file : File) (write : Write) : Option (State File) :=
  if state.ready file write then
    ((state.table.lookup file).bind (write.apply settings.cloud)).map fun row =>
      { state with table := state.table.insert file row }
  else none

def read (file : File) : Option (State File) :=
  if state.reading.isNone ∧ file ∈ state.selected then
    (state.table.lookup file).map fun row => { state with reading := some (file, some row) }
  else none

-- The commit of a row that is gone writes nothing.
def commit (seen : Observation) : Option (State File) :=
  match state.reading with
  | none => none
  | some (file, read) =>
      match read, state.table.lookup file with
      | some read, some row =>
          some { state with
            table := state.table.insert file (commitReconcile settings.cloud read row seen), reading := none }
      | _, _ => some { state with reading := none }

-- The analyze terminal deletes an `awaiting` row.
def delete (file : File) : Option (State File) :=
  if (state.table.lookup file).any fun row => row.status = .awaiting then
    some { state with
      table := state.table.erase file
      reading := state.reading.map fun (other, row) => (other, if other = file then none else row) }
  else none

-- `_resolve_backend_kube` raises where the row's backend is no kueue backend.
def resolve (process : ProcessId) (file : File) : Option (State File) :=
  if state.runs process = .idle then
    match (state.table.lookup file).bind CloudJob.backendId with
    | some backend =>
        if settings.kind backend = some .kueue then some (state.setRun process (.resolved file backend)) else none
    | none => none
  else none

def allocate (process : ProcessId) (now : Int) : Option (State File) :=
  match state.runs process with
  | .resolved file backend =>
      let allocated := allocateSlot state.table file settings.burstSlotBound now
      some ({ state with table := allocated.2 }.setRun process (.allocated file backend allocated.1))
  | _ => none

-- `submit_job`: a 409 keeps the Job that exists.
def post (process : ProcessId) : Option (State File) :=
  match state.runs process with
  | .allocated file backend slot =>
      let job := (state.jobs file backend).getD slot
      some ({ state with
          posted := Function.update state.posted file (Function.update (state.posted file) backend true) }.setJob
            file backend (some job) |>.setRun process (.posted file backend))
  | _ => none

def upsert (process : ProcessId) (now : Int) : Option (State File) :=
  match state.runs process with
  | .posted file backend =>
      match state.table.lookup file with
      | none =>
          some ({ state with
            table := state.table.insert file (insertedRow (stagedObjectKey file) (jobName file) now) }.setRun
              process .idle)
      | some row =>
          match submitUpsert row (jobName file) now with
          | some row => some ({ state with table := state.table.insert file row }.setRun process .idle)
          | none => some (state.setRun process (.missed file backend (some row.status)))
  | _ => none

-- The Job of a spilled or finished row is deleted; a status in between leaves it alone.
def deleteJob (process : ProcessId) : Option (State File) :=
  match state.runs process with
  | .missed file backend status =>
      if status = some .awaiting ∨ status = some .succeeded ∨ status = some .failed then
        some ((state.setJob file backend none).setRun process .idle)
      else some (state.setRun process .idle)
  | _ => none

def step : Action File → Option (State File)
  | .hold file attempts now =>
      some { state with table := state.table.insert file (holdAwaiting (state.table.lookup file) attempts now) }
  | .delete file => delete state file
  | .dispatch file backend placement now => dispatch settings state file backend placement now
  | .uploadFailed file =>
      if (state.table.lookup file).any fun row => row.status = .uploading then
        some { state with restaging := file :: state.restaging }
      else none
  | .select file =>
      if (state.table.lookup file).any fun row => row.status = .submitted || row.status = .running then
        some { state with selected := file :: state.selected }
      else none
  | .read file => read state file
  | .commit seen => commit settings state seen
  | .rollback => some { state with reading := none }
  | .write file applied => write settings state file applied
  | .jobGone file backend => some (state.setJob file backend none)
  | .resolve process file => resolve settings state process file
  | .allocate process now => allocate settings state process now
  | .post process => post state process
  | .upsert process now => upsert jobName stagedObjectKey state process now
  | .deleteJob process => deleteJob state process
  | .giveUp process => some (state.setRun process .idle)

end Steps

/-! ## A cluster and a compute agent -/

def twoLanes : Settings :=
  { backends := [{ id := "cluster", kind := .kueue, rank := 1, cap := 2 }, { id := "agent", kind := .compute, rank := 2, cap := 2 }]
    cloud := { cloudSubmitMaxAttempts := 3, cloudNodeLossMaxRedrives := 1, cloudRedriveBackoffSec := [] } }

def analyzeJob (file : Nat) : String := "phaze-analyze-" ++ toString file

def stagedKey (file : Nat) : String := "phaze-staging/" ++ toString file

-- A held file goes to the cluster, and its upload completes.
def staged (file : Nat) : List (Action Nat) :=
  [.dispatch file "cluster" (.kueue (stagedKey file) "upload" "bucket") 0, .write file (.uploaded "upload" 0)]

def submitted (process : ProcessId) (file : Nat) : List (Action Nat) :=
  [.resolve process file, .allocate process 0, .post process, .upsert process 0]

end Phaze.Submit
