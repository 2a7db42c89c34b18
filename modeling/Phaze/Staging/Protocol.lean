import Phaze.Staging.Bucket

/-!
# The staging of one file

The `cloud_job` row of a file and the handlers that move it: the two upload
callbacks (`services/agent_s3_reports.py`), the re-drive and the staging core
(`services/cloud_staging.py`), a drain tick's `KueueBackend.dispatch` and the
staging reaper (`services/backends/kueue.py`). A handler advances one statement
or S3 call at a time, and any other handler may run in between.

A transaction that has written the row holds its row lock until it ends. Nobody
else writes the row before that, and everybody else reads the committed row.
-/

set_option autoImplicit false

namespace Phaze.Staging

inductive CloudJobStatus where
  | awaiting
  | uploading
  | uploaded
  | submitted
  | running
  | succeeded
  | failed
deriving DecidableEq, Repr

-- `STAGING` of `services/backends/base.py`.
def CloudJobStatus.staging : CloudJobStatus → Bool
  | .uploading => true
  | .uploaded => true
  | _ => false

structure CloudJob where
  status : CloudJobStatus
  uploadId : Option UploadId
  attempts : Nat
deriving DecidableEq, Repr

structure Settings where
  pushMaxAttempts : Nat
  cloudSubmitMaxAttempts : Nat

-- Who runs the staging core: a re-drive, which stamps its attempt when it commits, or the drain.
inductive Origin where
  | redrive (attempt : Nat)
  | drain
deriving DecidableEq, Repr

-- What a handler does next.
inductive Stage where
  | done
  -- `process_uploaded`
  | uploadedRead (parts : List (Nat × String))
  | completing (upload : UploadId)
  | completed (upload : UploadId)
  | flipped
  -- The spill of an over-cap failure and of an empty parts list, and `_best_effort_cleanup`.
  | spilling (upload : Option UploadId)
  | spilled (upload : Option UploadId)
  | cleanupAbort (upload : UploadId)
  | cleanupDelete
  -- `process_upload_failed` and `redrive_upload`
  | failedLock
  | failedDecide
  | overCapRead
  | underCapRead (attempt : Nat)
  | redriveAbort (attempt : Nat) (upload : UploadId)
  -- `_stage_file_to_s3`
  | staging (origin : Origin)
  | presigning (origin : Origin) (fresh : UploadId)
  | compensating (fresh : UploadId)
  | staged (origin : Origin) (fresh : UploadId)
  | dropping (fresh : UploadId)
  | flushing
  | held
  -- A drain tick at this file
  | drainLock
  | drainSelect
  -- `_reap_stranded_staging` and `_cleanup_reaped_staging_object`
  | reaperLock
  | reaperRead
  | reaping (status : CloudJobStatus) (upload : Option UploadId) (attempts : Nat)
  | reaped (upload : Option UploadId)
  | reapAbort (upload : UploadId)
  | reapProbe (upload : Option UploadId)
  | reapDelete
deriving DecidableEq, Repr

abbrev ProcessId := Nat

structure Process where
  stage : Stage
  -- Whether `resolve_bucket_config` finds the recorded bucket in this handler's settings.
  resolves : Bool

structure State where
  row : CloudJob
  -- The row as its writer has it, not yet committed; the writer holds the row lock.
  draft : Option (ProcessId × CloudJob)
  -- `redrive_attempt` of the `s3_upload` ledger row, if there is one.
  ledger : Option Nat
  -- The advisory locks of the failure callback and of the drain.
  failureLock : Option ProcessId
  drainLock : Option ProcessId
  bucket : Bucket
  processes : ProcessId → Process

-- A file held for the cloud: an `awaiting` row, and nothing staged yet.
def State.initial (attempts : Nat) (ledger : Option Nat) : State :=
  { row := { status := .awaiting, uploadId := none, attempts := attempts }
    draft := none
    ledger := ledger
    failureLock := none
    drainLock := none
    bucket := .empty
    processes := fun _ => { stage := .done, resolves := true } }

inductive Handler where
  | uploaded (parts : List (Nat × String))
  | uploadFailed
  | drain
  | reaper

-- How the statement or call that a handler waits for comes back. `raised` is an error or a gate
-- that refuses (no agent, a live job, a file too large, a presign that fails).
inductive Event where
  | ran
  | raised
  | committed (ledgerCleared : Bool)
  | answered (answer : Answer)
  | issued (id : UploadId) (answer : Answer)

inductive Action where
  | start (process : ProcessId) (handler : Handler) (resolves : Bool)
  | resume (process : ProcessId) (event : Event)
  | crash (process : ProcessId)

def Handler.entry : Handler → Stage
  | .uploaded parts => .uploadedRead parts
  | .uploadFailed => .failedLock
  | .drain => .drainLock
  | .reaper => .reaperLock

/-! ## What the statements decide -/

-- `_upload_id_to_complete`.
def uploadIdToComplete (row : CloudJob) : Option UploadId :=
  if row.status = .uploading then row.uploadId else none

-- `hold_awaiting_cloud` in spill mode: `none` where the update matches no row.
def holdAwaitingCloud (row : CloudJob) (attempts : Nat) (expectStatus : List CloudJobStatus)
    (expectUploadId : Option UploadId) : Option CloudJob :=
  if row.status ∈ expectStatus ∧ (expectUploadId.isSome → row.uploadId = expectUploadId) then
    some { row with status := .awaiting, attempts := attempts }
  else
    none

-- `_decide_upload_failure`: the attempt this callback is.
def decideUploadFailure (ledger : Option Nat) : Nat :=
  ledger.getD 0 + 1

-- `_uploading_cloud_job_upsert`: it asks nothing of the row it overwrites.
def uploadingUpsert (row : CloudJob) (upload : UploadId) : CloudJob :=
  { row with status := .uploading, uploadId := some upload }

/-! ## The machine the handlers run on -/

-- What a handler asks for, and what it does after that.
inductive Effect where
  | goto (stage : Stage)
  | lockFailure (stage : Stage)
  | lockDrain (stage : Stage)
  | s3 (call : Call) (answer : Answer) (stage : Stage)
  | write (row : CloudJob) (stage : Stage)
  | commit (ledger : Option Nat) (stage : Stage)
  | rollback (stage : Stage)
  -- A write of the ledger by the queue, in a session of its own.
  | hook (ledger : Option Nat) (stage : Stage)

namespace State

def goto (state : State) (process : ProcessId) (stage : Stage) : State :=
  { state with
    processes := Function.update state.processes process
      { (state.processes process) with stage := stage } }

-- Whether the process may write the row: nobody else holds its lock.
def rowFree (state : State) (process : ProcessId) : Bool :=
  match state.draft with
  | none => true
  | some (writer, _) => writer == process

-- The row as the process would leave it by committing now.
def version (state : State) (process : ProcessId) : CloudJob :=
  match state.draft with
  | none => state.row
  | some (writer, row) => if writer = process then row else state.row

-- The end of a transaction: its locks are free, and its draft is gone.
def endTransaction (state : State) (process : ProcessId) (row : CloudJob) (ledger : Option Nat) :
    State :=
  { state with
    row := row
    ledger := ledger
    draft := state.draft.filter fun draft => draft.1 != process
    failureLock := state.failureLock.filter fun holder => holder != process
    drainLock := state.drainLock.filter fun holder => holder != process }

def apply (state : State) (process : ProcessId) : Effect → State
  | .goto stage => state.goto process stage
  | .lockFailure stage => { state with failureLock := some process }.goto process stage
  | .lockDrain stage => { state with drainLock := some process }.goto process stage
  | .s3 call answer stage =>
    { state with bucket := state.bucket.attempt answer call }.goto process stage
  | .write row stage => { state with draft := some (process, row) }.goto process stage
  | .commit ledger stage =>
    (state.endTransaction process (state.version process) ledger).goto process stage
  | .rollback stage => (state.endTransaction process state.row state.ledger).goto process stage
  | .hook ledger stage => { state with ledger := ledger }.goto process stage

end State

def Effect.stage : Effect → Stage
  | .goto stage => stage
  | .lockFailure stage => stage
  | .lockDrain stage => stage
  | .s3 _ _ stage => stage
  | .write _ stage => stage
  | .commit _ stage => stage
  | .rollback stage => stage
  | .hook _ stage => stage

theorem apply_stage (state : State) (process other : ProcessId) (effect : Effect) :
    ((state.apply process effect).processes other).stage =
      if other = process then effect.stage else (state.processes other).stage := by
  by_cases same : other = process
  · subst same
    cases effect <;> simp [State.apply, State.goto, Effect.stage]
  · cases effect <;> simp [State.apply, State.goto, State.endTransaction, same]

/-! ## The handlers -/

-- The stage after an S3 call whose failure ends the handler.
def Answer.andThen (answer : Answer) (stage : Stage) : Stage :=
  if answer = .ok then stage else .done

-- `_best_effort_cleanup`, from its start.
def cleanup (resolves : Bool) : Option UploadId → Stage
  | some upload => if resolves then .cleanupAbort upload else .done
  | none => if resolves then .cleanupDelete else .done

-- `_cleanup_reaped_staging_object`, from its start.
def reapCleanup (resolves : Bool) : Option UploadId → Stage
  | some upload => if resolves then .reapAbort upload else .done
  | none => if resolves then .reapProbe none else .done

def writeOr (row : Option CloudJob) (stage : Stage) : Effect :=
  match row with
  | some row => .write row stage
  | none => .rollback .done

section Handlers

variable (settings : Settings) (state : State)

-- `process_uploaded`, after its read of the row.
def uploadedRead (parts : List (Nat × String)) (resolves : Bool) : Effect :=
  match uploadIdToComplete state.row with
  | none => .rollback .done
  | some upload =>
    if parts = [] then .goto (.spilling (some upload))
    else if resolves then .rollback (.completing upload)
    else .rollback .done

-- The `UPLOADING -> UPLOADED` update, pinned to the upload that was completed.
def uploadedFlip (upload : UploadId) : Effect :=
  if state.row.status = .uploading ∧ state.row.uploadId = some upload then
    .write { state.row with status := .uploaded } .flipped
  else
    .rollback .done

-- The re-drive of a row that is still UPLOADING, up to the abort of its upload.
def underCapRead (attempt : Nat) (resolves : Bool) : Effect :=
  if state.row.status = .uploading ∧ resolves then
    match state.row.uploadId with
    | some upload => .goto (.redriveAbort attempt upload)
    | none => .goto (.staging (.redrive attempt))
  else
    .rollback .done

-- The candidate of a drain tick, `FOR UPDATE SKIP LOCKED`, if the cloud may still have it.
def drainSelect (resolves : Bool) : Effect :=
  if state.draft = none ∧ state.row.status = .awaiting ∧
      state.row.attempts < settings.cloudSubmitMaxAttempts ∧ resolves then
    .write state.row (.staging .drain)
  else
    .rollback .done

-- The ledger row after the staging commit: a re-drive stamps its attempt on it.
def stagedLedger : Origin → Option Nat
  | .redrive attempt => state.ledger.map fun _ => attempt
  | .drain => state.ledger

def clearedLedger (cleared : Bool) : Option Nat :=
  if cleared then none else state.ledger

-- What the handler does when the statement or call it waits for comes back. `none`: it still
-- waits, for a lock that another process holds.
def next (process : ProcessId) (event : Event) : Option Effect :=
  let resolves := (state.processes process).resolves
  let free := state.rowFree process
  match (state.processes process).stage, event with
  | .done, _ => none
  | .uploadedRead parts, .ran => some (uploadedRead state parts resolves)
  | .completing upload, .answered answer =>
    some (.s3 (.complete upload) answer (answer.andThen (.completed upload)))
  | .completed upload, .ran => if free then some (uploadedFlip state upload) else none
  | .flipped, .committed cleared => some (.commit (clearedLedger state cleared) .done)
  | .spilling upload, .ran =>
    if free then
      some (writeOr (holdAwaitingCloud state.row settings.cloudSubmitMaxAttempts
        [.uploading, .uploaded] none) (.spilled upload))
    else none
  | .spilled upload, .committed cleared =>
    some (.commit (clearedLedger state cleared) (cleanup resolves upload))
  | .cleanupAbort upload, .answered answer =>
    some (.s3 (.abort upload) answer (answer.andThen .cleanupDelete))
  | .cleanupDelete, .answered answer => some (.s3 .deleteObject answer .done)
  | .failedLock, .ran =>
    if state.failureLock = none then some (.lockFailure .failedDecide) else none
  | .failedDecide, .ran =>
    let attempt := decideUploadFailure state.ledger
    some (.goto (if settings.pushMaxAttempts < attempt then .overCapRead else .underCapRead attempt))
  | .overCapRead, .ran => some (.goto (.spilling state.row.uploadId))
  | .underCapRead attempt, .ran => some (underCapRead state attempt resolves)
  | .redriveAbort attempt upload, .answered answer =>
    some (.s3 (.abort upload) answer (.staging (.redrive attempt)))
  | .staging origin, .issued fresh answer =>
    if state.bucket.uploads fresh = .unknown then
      some (.s3 (.create fresh) answer (if answer = .ok then .presigning origin fresh else .held))
    else none
  | .staging _, .raised => some (.goto .held)
  | .presigning origin fresh, .ran =>
    if free then some (.write (uploadingUpsert state.row fresh) (.staged origin fresh)) else none
  | .presigning _ fresh, .raised => some (.goto (.compensating fresh))
  | .compensating fresh, .answered answer => some (.s3 (.abort fresh) answer .held)
  | .staged origin _, .committed _ => some (.commit (stagedLedger state origin) .flushing)
  -- A failed commit of the re-drive rolls back before it drops the upload, the drain after.
  | .staged (.redrive _) fresh, .raised => some (.rollback (.dropping fresh))
  | .staged .drain fresh, .raised => some (.goto (.dropping fresh))
  | .dropping fresh, .answered answer => some (.s3 (.abort fresh) answer .held)
  -- The enqueue hook writes the ledger row of the job and keeps its attempt counter.
  | .flushing, .ran => some (.hook (some (state.ledger.getD 0)) .done)
  | .held, .ran => some (.rollback .done)
  | .drainLock, .ran => if state.drainLock = none then some (.lockDrain .drainSelect) else none
  | .drainSelect, .ran => some (drainSelect settings state resolves)
  | .reaperLock, .ran => if state.drainLock = none then some (.lockDrain .reaperRead) else none
  | .reaperRead, .ran =>
    if state.row.status.staging then
      some (.goto (.reaping state.row.status state.row.uploadId state.row.attempts))
    else
      some (.rollback .done)
  | .reaping status upload attempts, .ran =>
    if free then
      some (writeOr (holdAwaitingCloud state.row
        (min (attempts + 1) settings.cloudSubmitMaxAttempts) [status] upload) (.reaped upload))
    else none
  | .reaped upload, .committed cleared =>
    some (.commit (clearedLedger state cleared) (reapCleanup resolves upload))
  | .reapAbort upload, .answered answer =>
    some (.s3 (.abort upload) answer (answer.andThen (.reapProbe (some upload))))
  | .reapProbe upload, .ran =>
    if state.row.status = .awaiting ∧ state.row.uploadId = upload then some (.goto .reapDelete)
    else some (.rollback .done)
  | .reapDelete, .answered answer => some (.s3 .deleteObject answer .done)
  | _, .raised => some (.rollback .done)
  | _, _ => none

def step : Action → Option State
  | .start process handler resolves =>
    if (state.processes process).stage = .done then
      some { state with
        processes := Function.update state.processes process ⟨handler.entry, resolves⟩ }
    else none
  | .resume process event => (next settings state process event).map (state.apply process)
  | .crash process => some (state.apply process (.rollback .done))

def run (state : State) : List Action → Option State
  | [] => some state
  | action :: rest => (step settings state action).bind fun next => run next rest

end Handlers

end Phaze.Staging
