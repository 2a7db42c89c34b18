import Mathlib.Data.List.Nodup

set_option autoImplicit false

/-!
# The per-stage clauses of the database

The SQL half of the completion rules, from `services/stage_status.py`: what the tables say about
one file. A clause is an `EXISTS` over a table, correlated to the file.
-/

namespace Phaze.Recovery

-- The functions whose ledger key names a file, and the others.
inductive Function where
  | processFile | extractFileMetadata | pushFile | s3Upload | submitCloudJob
  | other (name : String)
  deriving DecidableEq, Repr

def Function.name : Function → String
  | .processFile => "process_file"
  | .extractFileMetadata => "extract_file_metadata"
  | .pushFile => "push_file"
  | .s3Upload => "s3_upload"
  | .submitCloudJob => "submit_cloud_job"
  | .other name => name

-- The two enrich stages; the downstream ones have no ledger key of their own.
inductive Stage where
  | analyze | metadata
  deriving DecidableEq, Repr

inductive CloudJobStatus where
  | uploading | uploaded | failed | submitted | running | succeeded | awaiting
  deriving DecidableEq, Repr

inductive SaqStatus where
  | new | queued | active | aborting | aborted | failed | complete
  deriving DecidableEq, Repr

/-! ## The tables -/

-- File ids are the canonical text of a UUID, times count microseconds.
structure AnalysisResult where
  fileId : String
  analysisCompletedAt : Option Int
  failedAt : Option Int

structure FileMetadata where
  fileId : String
  failedAt : Option Int

structure CloudJob where
  fileId : String
  status : CloudJobStatus

structure StageSkip where
  fileId : String
  stage : Stage

structure SchedulingLedger where
  key : String
  function : Function
  -- `payload["file_id"]`, where there is one
  fileId : Option String
  enqueuedAt : Int
  terminalAt : Option Int
  deriving DecidableEq

structure SaqJob where
  key : String
  status : SaqStatus

structure Database where
  files : List String
  analysis : List AnalysisResult
  metadata : List FileMetadata
  cloudJobs : List CloudJob
  stageSkips : List StageSkip
  ledger : List SchedulingLedger
  saqJobs : List SaqJob
  metadataUnique : (metadata.map FileMetadata.fileId).Nodup
  ledgerKeys : (ledger.map SchedulingLedger.key).Nodup

/-! ## The clauses -/

section Clauses

variable (db : Database)

def stageToFunction : Stage → Function
  | .metadata => .extractFileMetadata
  | .analyze => .processFile

def failureIsTerminal : Stage → Bool
  | .analyze => true
  | .metadata => true

def ledgerKeyForFunction (function : Function) (file : String) : String := function.name ++ ":" ++ file

def doneClause (stage : Stage) (file : String) : Bool :=
  match stage with
  | .analyze => db.analysis.any fun row => row.fileId = file && row.analysisCompletedAt.isSome
  | .metadata => db.metadata.any fun row => row.fileId = file && row.failedAt.isNone

def skippedClause (stage : Stage) (file : String) : Bool :=
  db.stageSkips.any fun row => row.fileId = file && row.stage = stage

def failedClause (stage : Stage) (file : String) : Bool :=
  match stage with
  | .analyze => db.analysis.any fun row => row.fileId = file && row.failedAt.isSome
  | .metadata => db.metadata.any fun row => row.fileId = file && row.failedAt.isSome

def inflightForFunction (function : Function) (file : String) : Bool :=
  db.ledger.any fun row => row.key = ledgerKeyForFunction function file

def inflightClause (stage : Stage) (file : String) : Bool := inflightForFunction db (stageToFunction stage) file

def domainCompletedClause (stage : Stage) (file : String) : Bool :=
  doneClause db stage file || skippedClause db stage file ||
    (failureIsTerminal stage && failedClause db stage file)

def SaqStatus.live : SaqStatus → Bool
  | .queued | .active => true
  | _ => false

def liveJobForFunction (function : Function) (file : String) : Bool :=
  db.saqJobs.any fun job => job.key = ledgerKeyForFunction function file && job.status.live

def liveJobClause (stage : Stage) (file : String) : Bool := liveJobForFunction db (stageToFunction stage) file

-- `_CLOUD_BUSY_STATUSES`: `IN_FLIGHT` and the files held for the drain.
def CloudJobStatus.busy : CloudJobStatus → Bool
  | .uploading | .uploaded | .submitted | .running | .awaiting => true
  | _ => false

def cloudBusyClause (file : String) : Bool :=
  db.cloudJobs.any fun job => job.fileId = file && job.status.busy

def notRunningClause (stage : Stage) (file : String) : Bool :=
  match stage with
  | .analyze => !liveJobClause db stage file && !cloudBusyClause db file
  | .metadata => !liveJobClause db stage file

-- A retry the operator asked for after the failure that is on record.
def metadataOrphanedRetryClause (file : String) : Bool :=
  db.ledger.any fun ledger =>
    ledger.key = ledgerKeyForFunction .extractFileMetadata file &&
      db.metadata.any fun row =>
        row.fileId = file && row.failedAt.any fun failedAt => failedAt < ledger.enqueuedAt

-- An analysis that is older than the attempt the ledger owes.
def analyzeOrphanedBackfillClause (file : String) : Bool :=
  db.ledger.any fun ledger =>
    ledger.key = ledgerKeyForFunction .processFile file && ledger.terminalAt.isNone &&
      db.analysis.any fun row =>
        row.fileId = file && row.analysisCompletedAt.any fun completedAt => completedAt < ledger.enqueuedAt

def recoveryDomainCompletedClause (stage : Stage) (file : String) : Bool :=
  match stage with
  | .analyze =>
      domainCompletedClause db stage file &&
        (skippedClause db stage file || !analyzeOrphanedBackfillClause db file)
  | .metadata => domainCompletedClause db stage file && !metadataOrphanedRetryClause db file

def orphanedClause (stage : Stage) (file : String) : Bool :=
  inflightClause db stage file && notRunningClause db stage file && !recoveryDomainCompletedClause db stage file

def resolvedLedgerClause (stage : Stage) (file : String) : Bool :=
  inflightClause db stage file && notRunningClause db stage file && recoveryDomainCompletedClause db stage file

def cloudLaneCompletedClause (file : String) : Bool :=
  (db.cloudJobs.any fun job => job.fileId = file && job.status = .succeeded) ||
    domainCompletedClause db .analyze file

def resolvedCloudLedgerClause (function : Function) (file : String) : Bool :=
  inflightForFunction db function file && !liveJobForFunction db function file && !cloudBusyClause db file &&
    cloudLaneCompletedClause db file

end Clauses

end Phaze.Recovery
