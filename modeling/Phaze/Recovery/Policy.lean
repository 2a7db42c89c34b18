import Phaze.Recovery.Clauses

set_option autoImplicit false

/-!
# Recovery and the reaper

The two consumers of the ledger: `recover_orphaned_work` classifies rows with sets it reads once
(`tasks/recovery_policy.py`, `tasks/recovery_queries.py`), `reap_resolved_ledger_rows` deletes rows
lane by lane (`tasks/ledger_reaper.py`).
-/

namespace Phaze.Recovery

/-! ## Recovery -/

structure DoneSets where
  analyzeDone : List String
  metadataDomainCompleted : List String
  metadataFailedAt : List (String × Int)
  metadataSkipped : List String
  cloudLaneDone : List String

-- `uuid.UUID` and back: the canonical text of the id a string spells, if it spells one.
variable (uuid : String → Option String)

def ledgerFids (rows : List SchedulingLedger) : List String :=
  (rows.filterMap fun row => row.fileId.bind uuid).eraseDups

section Sets

variable (db : Database)

def buildDoneSets (fids : List String) : DoneSets :=
  let named := db.files.filter fun file => file ∈ fids
  { analyzeDone := named.filter fun file => recoveryDomainCompletedClause db .analyze file
    metadataDomainCompleted := named.filter fun file => domainCompletedClause db .metadata file
    metadataFailedAt := (db.metadata.filter fun row => row.fileId ∈ fids).filterMap fun row =>
      row.failedAt.map fun failedAt => (row.fileId, failedAt)
    metadataSkipped := named.filter fun file => skippedClause db .metadata file
    cloudLaneDone := named.filter fun file => cloudLaneCompletedClause db file }

def liveJobKeys : List String := (db.saqJobs.filter fun job => job.status.live).map SaqJob.key

def inFlightCloudJobIds : List String :=
  (db.cloudJobs.filter fun job => job.status ∈ [.uploading, .uploaded, .submitted, .running]).map CloudJob.fileId

def awaitingCloudJobIds : List String :=
  (db.cloudJobs.filter fun job => job.status = .awaiting).map CloudJob.fileId

end Sets

-- A force-skip wins over a failure on record.
def isMetadataDomainCompleted (file : String) (enqueuedAt : Int) (doneSets : DoneSets) : Bool :=
  if file ∈ doneSets.metadataSkipped then true
  else if file ∉ doneSets.metadataDomainCompleted then false
  else
    match doneSets.metadataFailedAt.lookup file with
    | none => true
    | some failedAt => enqueuedAt ≤ failedAt

def Function.domainCompletedStage : Function → Bool
  | .processFile | .extractFileMetadata | .pushFile | .s3Upload => true
  | _ => false

def Function.cloudOwned : Function → Bool
  | .processFile | .pushFile | .s3Upload | .submitCloudJob => true
  | _ => false

def Function.cloudLane : Function → Bool
  | .pushFile | .s3Upload => true
  | _ => false

def isDomainCompleted (row : SchedulingLedger) (doneSets : DoneSets) : Bool :=
  if !row.function.domainCompletedStage then false
  else
    match row.fileId with
    | none => false
    | some file =>
        if row.function = .processFile then file ∈ doneSets.analyzeDone
        else if row.function.cloudLane then file ∈ doneSets.cloudLaneDone
        else isMetadataDomainCompleted file row.enqueuedAt doneSets

def isOwnedByTheCloudLane (row : SchedulingLedger) (inFlight awaitingCloud : List String) : Bool :=
  if !row.function.cloudOwned then false
  else row.fileId.any fun file => file ∈ inFlight || file ∈ awaitingCloud

def isOrphaned (row : SchedulingLedger) (live : List String) (doneSets : DoneSets)
    (inFlight awaitingCloud : List String) : Bool :=
  !decide (row.key ∈ live) && !isDomainCompleted row doneSets &&
    !isOwnedByTheCloudLane row inFlight awaitingCloud

-- The test `recover_orphaned_work` puts to every row of the ledger.
def recovers (db : Database) (row : SchedulingLedger) : Bool :=
  isOrphaned row (liveJobKeys db) (buildDoneSets db (ledgerFids uuid db.ledger)) (inFlightCloudJobIds db)
    (awaitingCloudJobIds db)

/-! ## The reaper -/

-- Each lane is a function: the two of the enrich stages, then the cloud lane.
def reapLanes : List Function := [.processFile, .extractFileMetadata, .pushFile, .s3Upload]

def resolvedClause (db : Database) (function : Function) (file : String) : Bool :=
  match function with
  | .processFile => resolvedLedgerClause db .analyze file
  | .extractFileMetadata => resolvedLedgerClause db .metadata file
  | function => resolvedCloudLedgerClause db function file

def resolvedKeys (db : Database) (function : Function) : List String :=
  (db.files.filter fun file => resolvedClause db function file).map (ledgerKeyForFunction function)

def reapKeys (db : Database) (keys : List String) : Database :=
  { db with
    ledger := db.ledger.filter fun row => row.key ∉ keys
    ledgerKeys := db.ledgerKeys.sublist (List.filter_sublist.map _) }

def reapResolvedLedgerRows (db : Database) : Database :=
  reapLanes.foldl (fun db function => reapKeys db (resolvedKeys db function)) db

end Phaze.Recovery
