import Phaze.Drain.Selection

set_option autoImplicit false

/-!
# One drain tick

`stage_cloud_window` of `tasks/release_awaiting_cloud.py`, with the two dispatches it calls
(`services/backends/kueue.py` over `services/cloud_staging.py`, `services/backends/compute_agent.py`).
A dispatch is the list of its calls and statements in source order; a failing one performs those before
the one that raises. A tick is one transaction, committed once after the walk.
-/

namespace Phaze.Drain

open Phaze.Cloud
open Phaze.Cloud.Chains (CloudBudget)
open Phaze.Staging (UploadId)

/-! ## A dispatch -/

inductive Step where
  -- `pick_bucket` and its resolution, `select_active_agent`, the size check.
  | bucket
  | agent
  | size
  | multipart
  | presign
  | upsert
  | destination
  | payload
  | queue
  | park
  | stamp
deriving DecidableEq

def steps : BackendKind → List Step
  | .kueue => [.bucket, .agent, .size, .multipart, .presign, .upsert, .payload, .queue, .park, .stamp]
  | .compute => [.agent, .upsert, .destination, .queue, .payload, .park]
  | .localLane => []

-- `NoActiveAgentError` at the gate, an exception of the body, a statement that aborts the transaction.
inductive Failure where
  | noActiveAgent
  | raises (step : Step)
  | poisons (step : Step)
deriving DecidableEq

def Failure.step : Failure → Step
  | .noActiveAgent => .agent
  | .raises step | .poisons step => step

inductive LocalOutcome where
  | staged
  | skipped
  | raised
  | poisoned
deriving DecidableEq

-- A locked candidate of the tick, with what the tick will meet on it.
structure Candidate (File : Type) where
  file : File
  row : CloudJob
  budget : Option CloudBudget
  now : Int
  -- Whether a statement outside the dispatch raises: the budget read, the attempt lock, the recheck.
  readsRaise : Bool
  -- The attempt lock is held and `cloud_candidate_available`.
  eligible : Bool
  s3Key : String
  upload : UploadId
  bucket : String
  writtenAt : Int
  failure : Option Failure
  localOutcome : LocalOutcome

section Dispatch

variable {File : Type}

-- What stands in the transaction for the candidate.
structure Draft where
  row : CloudJob
  written : Bool
  parked : Bool
deriving DecidableEq

def perform (candidate : Candidate File) (backend : Backend) (draft : Draft) : Step → Draft
  | .upsert =>
      { draft with
        row := match backend.kind with
          | .kueue => uploadingUpsert (some draft.row) candidate.s3Key candidate.upload candidate.bucket
              candidate.writtenAt
          | .compute | .localLane => computeUpsert (some draft.row) backend.id candidate.writtenAt
        written := true }
  | .park => { draft with parked := true }
  | .stamp => { draft with row := stampBackend draft.row backend.id candidate.bucket candidate.writtenAt }
  | .bucket | .agent | .size | .multipart | .presign | .destination | .payload | .queue => draft

-- A failure at a point the body does not have is one before its first call.
def performed (candidate : Candidate File) (kind : BackendKind) : List Step :=
  match candidate.failure with
  | none => steps kind
  | some failure => if failure.step ∈ steps kind then (steps kind).takeWhile (· ≠ failure.step) else []

def dispatchDraft (candidate : Candidate File) (backend : Backend) : Draft :=
  (performed candidate backend.kind).foldl (perform candidate backend)
    { row := candidate.row, written := false, parked := false }

end Dispatch

/-! ## The walk -/

-- What the walk came to at a candidate. `late`: the dispatch raised after its upsert.
inductive Event (File : Type) where
  | held (file : File)
  | dispatched (file : File)
  | raised (file : File) (late : Bool)
  | vanished
  | poisoned
  | aborted
deriving DecidableEq

instance {File : Type} [DecidableEq File] : LawfulBEq (Event File) :=
  inferInstance

structure Walk (File : Type) where
  slots : List BackendSlot
  writes : List (File × CloudJob)
  -- The parked enqueues: `s3_upload` on a kueue backend, `push_file` on a compute one.
  parked : List (File × BackendKind)
  staged : Nat
  skipped : Nat
  scanned : Nat

section Walking

variable {File : Type} [DecidableEq File]

def Walk.start (slots : List BackendSlot) : Walk File :=
  { slots := slots, writes := [], parked := [], staged := 0, skipped := 0, scanned := 0 }

def Walk.skip (walk : Walk File) (count : Nat) : Walk File :=
  { walk with skipped := walk.skipped + count }

def claimSlot (slots : List BackendSlot) (backend : BackendId) : List BackendSlot :=
  slots.map fun slot =>
    if slot.backend.id = backend then { slot with remaining := slot.remaining - 1 } else slot

def Walk.claim (walk : Walk File) (backend : BackendId) : Walk File :=
  { walk with slots := claimSlot walk.slots backend }

def Walk.write (walk : Walk File) (file : File) (kind : BackendKind) (draft : Draft) : Walk File :=
  { walk with
    writes := if draft.written then walk.writes ++ [(file, draft.row)] else walk.writes
    parked := if draft.parked then walk.parked ++ [(file, kind)] else walk.parked }

def freeSlots (slots : List BackendSlot) : Nat :=
  (slots.map fun slot => if slot.available then slot.remaining else 0).sum

variable (settings : Settings)

-- `LocalBackend.dispatch` writes no `cloud_job` row; a missing agent is a hold that takes the slot.
def stageLocal (walk : Walk File) (candidate : Candidate File) (backend : Backend) : Walk File × Event File :=
  match candidate.localOutcome with
  | .staged => ({ walk.claim backend.id with staged := walk.staged + 1 }, .dispatched candidate.file)
  | .skipped => ((walk.claim backend.id).skip 1, .dispatched candidate.file)
  | .raised => (walk.skip 1, .held candidate.file)
  | .poisoned => (walk.skip 1, .poisoned)

-- The dispatch to a cloud backend; `held` is how much of the page is left, this candidate included.
def stageCloud (walk : Walk File) (candidate : Candidate File) (backend : Backend) (held : Nat) :
    Walk File × Event File :=
  let draft := dispatchDraft candidate backend
  let walk := walk.write candidate.file backend.kind draft
  match candidate.failure with
  | none => ({ walk.claim backend.id with staged := walk.staged + 1 }, .dispatched candidate.file)
  | some .noActiveAgent => (walk.skip held, .vanished)
  | some (.raises _) => (walk.skip 1, .raised candidate.file draft.written)
  | some (.poisons _) => (walk.skip 1, .poisoned)

-- The loop body of `_stage_candidate_page`.
def stageCandidate (walk : Walk File) (candidate : Candidate File) (held : Nat) : Walk File × Event File :=
  if candidate.readsRaise then (walk, .aborted)
  else
    match selectBackendWithReason settings candidate.row.updatedAt candidate.row.attempts walk.slots
        candidate.now candidate.budget with
    | .error _ => (walk.skip 1, .held candidate.file)
    | .ok backend =>
        if backend.kind = .localLane then stageLocal walk candidate backend
        else if candidate.eligible then stageCloud walk candidate backend held
        else (walk.skip 1, .held candidate.file)

-- `_stage_candidate_page`. In an aborted transaction the next candidate's first read raises.
def stageCandidatePage (walk : Walk File) : List (Candidate File) → Walk File × List (Event File)
  | [] => (walk, [])
  | candidate :: rest =>
      let (walk, event) := stageCandidate settings walk candidate (rest.length + 1)
      match event with
      | .vanished | .aborted => (walk, [event])
      | .poisoned => (walk, if rest = [] then [event] else [event, .aborted])
      | .held _ | .dispatched _ | .raised .. =>
          let (walk, events) := stageCandidatePage walk rest
          (walk, event :: events)

def minCandidatePage : Nat := 20

def maxCandidateScan : Nat := 500

inductive NextPage where
  | stop
  | abort
  | page (limit : Nat)
deriving DecidableEq

-- `_next_candidate_page`, after a page of that length; `last`: nothing is behind it. In an aborted
-- transaction its query raises.
def nextCandidatePage (walk : Walk File) (events : List (Event File)) (pageLength pageLimit : Nat) (last : Bool) :
    NextPage :=
  if .vanished ∈ events ∨ .aborted ∈ events then .stop
  else if freeSlots walk.slots = 0 ∨ pageLength < pageLimit ∨ maxCandidateScan ≤ walk.scanned then .stop
  else if .poisoned ∈ events then .abort
  else if last then .stop
  else .page (min (max (freeSlots walk.slots) minCandidatePage) (maxCandidateScan - walk.scanned))

-- `_walk_candidate_pages`; `rest` is the queue behind the page.
def walkCandidatePages : Nat → Walk File → List (Candidate File) → Nat → List (Candidate File) →
    Walk File × List (Event File)
  | 0, walk, _, _, _ => (walk, [])
  | fuel + 1, walk, page, pageLimit, rest =>
      let (walk, events) := stageCandidatePage settings { walk with scanned := walk.scanned + page.length } page
      match nextCandidatePage walk events page.length pageLimit rest.isEmpty with
      | .stop => (walk, events)
      | .abort => (walk, events ++ [.aborted])
      | .page limit =>
          let (walk, later) := walkCandidatePages fuel walk (rest.take limit) limit (rest.drop limit)
          (walk, events ++ later)

/-! ## The tick -/

structure Tick (File : Type) where
  -- The registry has a cloud backend, and the force-local override is off.
  enabled : Bool
  fileserverOnline : Bool
  slots : List BackendSlot
  -- The awaiting candidates in FIFO order, from where the walk starts.
  candidates : List (Candidate File)
  commitRaises : Bool
  -- Whether the COMMIT of a transaction that a statement has aborted raises, or just rolls back.
  abortedCommitRaises : Bool

structure Outcome (File : Type) where
  table : Table File CloudJob
  fired : List (File × BackendKind)
  staged : Nat
  skipped : Nat

def commitWrites (table : Table File CloudJob) (writes : List (File × CloudJob)) : Table File CloudJob :=
  writes.foldl (fun table write => table.insert write.1 write.2) table

def Tick.firstPage (tick : Tick File) : List (Candidate File) :=
  tick.candidates.take (freeSlots tick.slots)

def Tick.walks (tick : Tick File) : Bool :=
  tick.enabled && freeSlots tick.slots ≠ 0 && !tick.firstPage.isEmpty && tick.fileserverOnline

def Tick.walk (tick : Tick File) : Walk File × List (Event File) :=
  if tick.walks then
    walkCandidatePages settings (tick.candidates.length + 1) (.start tick.slots) tick.firstPage
      (freeSlots tick.slots) (tick.candidates.drop (freeSlots tick.slots))
  else (.start tick.slots, [])

-- `stage_cloud_window`
def stageCloudWindow (tick : Tick File) (table : Table File CloudJob) : Outcome File :=
  if tick.walks then
    let (walk, events) := tick.walk settings
    let rollback : Outcome File :=
      { table := table, fired := [], staged := 0, skipped := max walk.scanned tick.firstPage.length }
    if .aborted ∈ events then rollback
    else if .poisoned ∈ events then
      if tick.abortedCommitRaises then rollback
      else { table := table, fired := walk.parked, staged := walk.staged, skipped := walk.skipped }
    else if tick.commitRaises then rollback
    else
      { table := commitWrites table walk.writes
        fired := walk.parked
        staged := walk.staged
        skipped := walk.skipped }
  else
    { table := table
      fired := []
      staged := 0
      skipped := if tick.enabled && freeSlots tick.slots ≠ 0 then tick.firstPage.length else 0 }

end Walking

end Phaze.Drain
