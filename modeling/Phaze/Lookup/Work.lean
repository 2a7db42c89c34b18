import Phaze.Provider.Source
import Phaze.Shared.Keyset

set_option autoImplicit false

/-!
# Remote lookup work

`services/remote_lookup_batches.py`: the rows of one recording and provider, the claim of a worker, what it makes
of a lookup, and the expansion of a batch. Instants and delays are microseconds.
-/

namespace Phaze.Lookup

open Provider (Uuid)

inductive WorkStatus where
  | queued
  | running
  | deferred
  | blocked
  | completed
  | failed
deriving DecidableEq

-- `ACTIVE`
def WorkStatus.active : WorkStatus → Bool
  | .queued | .running | .deferred | .blocked => true
  | .completed | .failed => false

/-! ## What a lookup returns -/

structure OperatorOutcome where
  status : String
  code : String
  retryAfter : Option Nat
deriving DecidableEq

structure LookupResult where
  mediaId : Uuid
  providerId : String
  outcome : OperatorOutcome
  warnings : List OperatorOutcome
deriving DecidableEq

def second : Nat := 1000000

structure Verdict where
  status : WorkStatus
  code : String
  payload : Option LookupResult
  delay : Option Nat
  transient : Bool
deriving DecidableEq

-- `http_` and the status of each response that stops the provider; `none` without a binding.
def stopCodes (stopStatuses : Option (List Nat)) : List String :=
  ["transport_stopped", "robots_disallow", "challenge", "disabled_provider", "credential_missing", "run_budget_exhausted"] ++
    (stopStatuses.getD []).map fun status => "http_" ++ toString status

def blocks (stops : List String) (outcome : OperatorOutcome) : Bool :=
  stops.contains outcome.code ||
    ("robots_".toList.isPrefixOf outcome.code.toList && stops.contains (String.ofList (outcome.code.toList.drop 7)))

-- `max(1.0, retry_after_seconds or 60.0)`
def retryDelay (retry : OperatorOutcome) : Nat :=
  match retry.retryAfter with
  | none | some 0 => 60 * second
  | some duration => max second duration

def judge (stops : List String) (result : LookupResult) : Verdict :=
  let outcomes := result.outcome :: result.warnings
  let retry := outcomes.find? fun item => item.status = "retry"
  let blocked := outcomes.find? (blocks stops)
  { status := if blocked.isSome then .blocked else if retry.isSome then .deferred else .completed
    code := ((blocked.or retry).getD result.outcome).code
    payload := some result
    delay := retry.map retryDelay
    transient := retry.any fun item => item.code ≠ "paced" && item.code ≠ "durable_budget_exhausted" }

-- An exception of the lookup.
def workerError : Verdict where
  status := .deferred
  code := "worker_error"
  payload := none
  delay := some (60 * second)
  transient := true

/-! ## A row -/

structure Work where
  id : Uuid
  mediaId : Uuid
  providerId : String
  status : WorkStatus
  code : Option String
  notBefore : Option Int
  leaseUntil : Option Int
  failures : Nat
  contextDigest : Option String
  result : Option LookupResult
deriving DecidableEq

def Work.queued (id mediaId : Uuid) (providerId : String) : Work where
  id := id
  mediaId := mediaId
  providerId := providerId
  status := .queued
  code := none
  notBefore := none
  leaseUntil := none
  failures := 0
  contextDigest := none
  result := none

def Work.active (work : Work) : Bool :=
  work.status.active

-- The key of `uq_remote_lookup_active_pair`.
def Work.pair (work : Work) : Uuid × String :=
  (work.mediaId, work.providerId)

inductive Claim where
  | inactive
  | busy
  | deferred
  | completed (row : Work)
  | running (row : Work)

-- `reason` is what `eligibility` returns, `digest` that of the recording's context.
def claim (now : Int) (reason : Option String) (digest : String) (work : Work) : Claim :=
  if !work.active then .inactive
  else if work.leaseUntil.any fun lease => now < lease then .busy
  else if work.notBefore.any fun earliest => now < earliest then .deferred
  else
    match reason with
    | some reason => .completed { work with status := .completed, code := some reason }
    | none =>
        if work.contextDigest.any fun stored => stored ≠ digest then
          .completed { work with status := .completed, code := some "recording_metadata_changed" }
        else
          .running { work with
            contextDigest := some digest
            status := .running
            leaseUntil := some (now + 120 * second) }

-- The second transaction; it looks at nothing but `failures`.
def record (now : Int) (verdict : Verdict) (work : Work) : Work :=
  let failures := if verdict.transient then work.failures + 1 else work.failures
  let exhausted := verdict.transient && 5 ≤ failures
  { work with
    failures := failures
    status := if exhausted then .failed else verdict.status
    code := some verdict.code
    result := verdict.payload
    leaseUntil := none
    notBefore := if exhausted then none else verdict.delay.map fun delay => now + delay }

/-! ## A batch -/

structure Batch where
  id : Uuid
  providers : List String
  cursor : Option Uuid
  upperBound : Option Uuid
  expanded : Bool
  selected : Nat
  existing : Nat
  excluded : Nat
deriving DecidableEq

structure Membership where
  batchId : Uuid
  workId : Uuid
deriving DecidableEq

-- `CHUNK`
def chunkSize : Nat := 100

-- The rows that one chunk writes.
structure Chunk where
  works : List Work
  memberships : List Membership
  batch : Batch

-- `ON CONFLICT DO NOTHING`
def enroll (memberships : List Membership) (membership : Membership) : List Membership :=
  if membership ∈ memberships then memberships else memberships ++ [membership]

def selectWork (media : Uuid) (chunk : Chunk) (provider : String) : Chunk :=
  match chunk.works.find? fun work => work.pair = (media, provider) && work.active with
  | none =>
      let work := Work.queued chunk.works.length media provider
      { works := chunk.works ++ [work]
        memberships := enroll chunk.memberships { batchId := chunk.batch.id, workId := work.id }
        batch := { chunk.batch with selected := chunk.batch.selected + 1 } }
  | some work =>
      { chunk with
        memberships := enroll chunk.memberships { batchId := chunk.batch.id, workId := work.id }
        batch := { chunk.batch with existing := chunk.batch.existing + 1 } }

def examine (excluded : Uuid → Bool) (chunk : Chunk) (media : Uuid) : Chunk :=
  let looked :=
    if excluded media then { chunk with batch := { chunk.batch with excluded := chunk.batch.excluded + 1 } }
    else chunk.batch.providers.foldl (selectWork media) chunk
  { looked with batch := { looked.batch with cursor := some media } }

def chunkIds (files : List Uuid) (batch : Batch) : List Uuid :=
  match batch.upperBound with
  | none => []
  | some upper => Keyset.page id (files.filter fun file => file ≤ upper) chunkSize batch.cursor

def expandChunk (excluded : Uuid → Bool) (files : List Uuid) (chunk : Chunk) : Chunk :=
  let ids := chunkIds files chunk.batch
  let done := ids.foldl (examine excluded) chunk
  { done with batch := { done.batch with expanded := ids.length < chunkSize } }

end Phaze.Lookup
