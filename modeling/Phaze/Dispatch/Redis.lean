import Mathlib
import Phaze.Execution.Primitives

set_option autoImplicit false

/-!
# The progress hashes and their scripts

The Redis side of Execute Approved, from `routers/agent_exec_batches.py`. Each script is one
indivisible step. Nothing expires.
-/

namespace Phaze.Dispatch

open Execution (FailedAtStep)

inductive Status where
  | running | complete | completeWithErrors
  deriving DecidableEq, Repr

inductive TerminalStep where
  | copied | verified | deleted
  | failed (failedAtStep : FailedAtStep)
  deriving DecidableEq, Repr

inductive Field (Agent : Type) where
  | total | completed | failed | copied | verified | deleted
  | subjobsCompleted | subjobsExpected
  | agentTotal (agent : Agent)
  | agentCompleted (agent : Agent)
  | agentFailed (agent : Agent)
  deriving DecidableEq

/-- A counter that was never set reads as zero; only `agent:*:total` is ever tested for being
there, which is what `members` answers. -/
structure BatchHash (Agent : Type) where
  counter : Field Agent → Nat
  members : Agent → Bool
  status : Status

/-- One progress event. The request id is one for each sub-job and proposal, so these two stand
for it. -/
structure Event (Agent : Type) where
  job : Nat
  item : Nat
  agent : Agent
  step : TerminalStep
  subBatchTerminal : Bool
  deriving DecidableEq

def Event.request {Agent : Type} (event : Event Agent) : Nat × Nat := (event.job, event.item)

structure Redis (Batch Agent : Type) where
  sentinel : Option Batch
  hash : Batch → Option (BatchHash Agent)
  applied : Batch → List (Event Agent)

inductive ClaimReply where
  | refused | claimed | reconciled
  deriving DecidableEq, Repr

section Hash

variable {Agent : Type} [DecidableEq Agent]

def hincrby (hash : BatchHash Agent) (field : Field Agent) (by_ : Nat) : BatchHash Agent :=
  { hash with counter := Function.update hash.counter field (hash.counter field + by_) }

-- `_compute_increments`: the steps before the one an event reports are implied.
def computeIncrements (agent : Agent) : TerminalStep → List (Field Agent × Nat)
  | .deleted => [(.copied, 1), (.verified, 1), (.deleted, 1), (.completed, 1), (.agentCompleted agent, 1)]
  | .verified => [(.copied, 1), (.verified, 1)]
  | .copied => [(.copied, 1)]
  | .failed failedAtStep =>
      [(.failed, 1), (.agentFailed agent, 1)] ++
        match failedAtStep with
        | .verify => [(.copied, 1)]
        | .delete => [(.copied, 1), (.verified, 1)]
        | .copy => []

def applyArgs (event : Event Agent) : List (Field Agent × Nat) :=
  computeIncrements event.agent event.step ++
    if event.subBatchTerminal then [(.subjobsCompleted, 1)] else []

def applyAll (hash : BatchHash Agent) (increments : List (Field Agent × Nat)) : BatchHash Agent :=
  increments.foldl (fun hash increment => hincrby hash increment.1 increment.2) hash

end Hash

section Scripts

variable {Batch Agent : Type} [DecidableEq Batch] [DecidableEq Agent]

def Redis.setHash (redis : Redis Batch Agent) (batch : Batch) (hash : Option (BatchHash Agent)) :
    Redis Batch Agent :=
  { redis with hash := Function.update redis.hash batch hash }

def promote (redis : Redis Batch Agent) (batch : Batch) : Redis Batch Agent :=
  match redis.hash batch with
  | none => redis
  | some hash =>
      if hash.counter .subjobsCompleted < hash.counter .subjobsExpected then redis
      else
        let status := if hash.counter .failed = 0 then Status.complete else .completeWithErrors
        let promoted := redis.setHash batch (some { hash with status := status })
        if redis.sentinel = some batch then { promoted with sentinel := none } else promoted

-- `_CLAIM_DISPATCH_LUA`: take the sentinel, also from a holder that can no longer release it.
def claimDispatch (redis : Redis Batch Agent) (batch : Batch) : ClaimReply × Redis Batch Agent :=
  match redis.sentinel with
  | none => (.claimed, { redis with sentinel := some batch })
  | some held =>
      match redis.hash held with
      | none => (.reconciled, { redis with sentinel := some batch })
      | some hash =>
          if hash.status = .complete ∨ hash.status = .completeWithErrors then
            (.reconciled, { redis with sentinel := some batch })
          else if hash.counter .subjobsExpected ≤ hash.counter .subjobsCompleted then
            (.reconciled, { promote redis held with sentinel := some batch })
          else (.refused, redis)

def releaseDispatch (redis : Redis Batch Agent) (batch : Batch) : Redis Batch Agent :=
  if redis.sentinel = some batch then { redis with sentinel := none } else redis

instance (applied : List (Event Agent)) (event : Event Agent) :
    Decidable (event.request ∈ applied.map Event.request) :=
  inferInstance

-- The counting half of the script: a request whose marker is set changes no counter.
def countOnce (redis : Redis Batch Agent) (batch : Batch) (hash : BatchHash Agent) (event : Event Agent) :
    Redis Batch Agent :=
  if event.request ∈ (redis.applied batch).map Event.request then redis
  else
    { redis.setHash batch (some (applyAll hash (applyArgs event))) with
      applied := Function.update redis.applied batch (redis.applied batch ++ [event]) }

-- `_APPLY_INCREMENTS_LUA`: a terminal event promotes, also when it is a duplicate.
def applyIncrements (redis : Redis Batch Agent) (batch : Batch) (event : Event Agent) : Redis Batch Agent :=
  match redis.hash batch with
  | none => redis
  | some hash =>
      let counted := countOnce redis batch hash event
      if event.subBatchTerminal then promote counted batch else counted

-- `post_exec_batch_progress`: a missing hash answers 404, an agent outside the dispatch 403.
def postExecBatchProgress (redis : Redis Batch Agent) (batch : Batch) (event : Event Agent) :
    Redis Batch Agent :=
  match redis.hash batch with
  | none => redis
  | some hash => if hash.members event.agent then applyIncrements redis batch event else redis

end Scripts

end Phaze.Dispatch
