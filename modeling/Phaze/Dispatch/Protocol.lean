import Phaze.Dispatch.Redis
import Phaze.Shared.Chunks

set_option autoImplicit false

/-!
# The Execute Approved protocol

`dispatch_approved_batch` of `services/execution_dispatch_protocol.py` with every await a step of
its own, the sub-jobs it enqueues, and the progress events they send. Any number of calls run at
once; an await may raise before or after the server did its work.
-/

namespace Phaze.Dispatch

section Plan

structure Groups (Agent Proposal : Type) where
  byAgent : List (Agent × List Proposal)
  distinct : (byAgent.map Prod.fst).Nodup

def Groups.single {Agent Proposal : Type} (agent : Agent) (proposals : List Proposal) :
    Groups Agent Proposal :=
  ⟨[(agent, proposals)], List.nodup_singleton agent⟩

structure PendingChunk (Agent Proposal : Type) where
  agent : Agent
  chunkIndex : Nat
  chunk : List Proposal

structure EnqueueResult (Agent : Type) where
  enqueuedOk : Nat
  undispatchedByAgent : Agent → Nat
  totalUndispatched : Nat

variable {Agent Proposal : Type}

def chunkSize : Nat := 500

def chunkProposals (items : List Proposal) : List (List Proposal) := items.toChunks chunkSize

def buildChunkPlan (groups : Groups Agent Proposal) : List (Agent × List (List Proposal)) :=
  groups.byAgent.map fun group => (group.1, chunkProposals group.2)

def pendingChunks (plan : List (Agent × List (List Proposal))) : List (PendingChunk Agent Proposal) :=
  plan.flatMap fun entry => entry.2.zipIdx.map fun chunk => ⟨entry.1, chunk.2, chunk.1⟩

def Groups.pending (groups : Groups Agent Proposal) : List (PendingChunk Agent Proposal) :=
  pendingChunks (buildChunkPlan groups)

theorem agent_mem_of_pending {groups : Groups Agent Proposal} {chunk : PendingChunk Agent Proposal}
    (planned : chunk ∈ groups.pending) : chunk.agent ∈ groups.byAgent.map Prod.fst := by
  simp only [Groups.pending, pendingChunks, buildChunkPlan, List.mem_flatMap, List.mem_map] at planned
  obtain ⟨_, ⟨group, member, rfl⟩, _, _, rfl⟩ := planned
  exact List.mem_map_of_mem member

theorem chunk_ne_nil_of_pending {groups : Groups Agent Proposal} {chunk : PendingChunk Agent Proposal}
    (planned : chunk ∈ groups.pending) : chunk.chunk ≠ [] := by
  simp only [Groups.pending, pendingChunks, buildChunkPlan, List.mem_flatMap, List.mem_map] at planned
  obtain ⟨_, ⟨group, _, rfl⟩, ⟨items, index⟩, found, rfl⟩ := planned
  obtain ⟨_, _, same⟩ := List.mem_zipIdx found
  exact Shared.ne_nil_of_mem_toChunks chunkSize (same ▸ List.getElem_mem _)

variable [DecidableEq Agent]

-- `_init_fields`; the start time and the summary for display are not counted with.
def initFields (groups : Groups Agent Proposal) : BatchHash Agent where
  counter
    | .total => (groups.byAgent.map fun group => group.2.length).sum
    | .subjobsExpected => groups.pending.length
    | .agentTotal agent => ((groups.byAgent.lookup agent).getD []).length
    | _ => 0
  members := fun agent => agent ∈ groups.byAgent.map Prod.fst
  status := .running

-- What the loop has accumulated when `_enqueue_one_chunk` returned these values for the first
-- chunks of the plan.
def enqueueResult (pending : List (PendingChunk Agent Proposal)) (returned : List Bool) :
    EnqueueResult Agent where
  enqueuedOk := returned.count true
  undispatchedByAgent := fun agent =>
    ((pending.zip returned).map fun entry =>
      if entry.2 = false ∧ entry.1.agent = agent then entry.1.chunk.length else 0).sum
  totalUndispatched :=
    ((pending.zip returned).map fun entry => if entry.2 = false then entry.1.chunk.length else 0).sum

-- The transaction of `_reconcile_undispatched`.
def reconcileUndispatched (hash : BatchHash Agent) (result : EnqueueResult Agent) : BatchHash Agent where
  counter
    | .subjobsExpected => result.enqueuedOk
    | .agentFailed agent => hash.counter (.agentFailed agent) + result.undispatchedByAgent agent
    | .failed => hash.counter .failed + result.totalUndispatched
    | field => hash.counter field
  members := hash.members
  status := if result.enqueuedOk = 0 then .completeWithErrors else hash.status

end Plan

inductive Fate where
  | replied | raisedAfter | raisedBefore
  deriving DecidableEq, Repr

def Fate.applied : Fate → Bool
  | .replied | .raisedAfter => true
  | .raisedBefore => false

def Fate.answered : Fate → Bool
  | .replied => true
  | _ => false

/-- What becomes of one enqueue. An ambiguous one raised `AmbiguousEnqueueError`, an interrupted
one a `BaseException`; either may have landed on the broker. -/
inductive EnqueueOutcome where
  | landed | failed
  | ambiguous (there : Bool)
  | interrupted (there : Bool)
  deriving DecidableEq, Repr

def EnqueueOutcome.lands : EnqueueOutcome → Bool
  | .landed => true
  | .failed => false
  | .ambiguous there => there
  | .interrupted there => there

/-- Where a call is. `returned` holds what `_enqueue_one_chunk` returned for the chunks so far; from
`settling` on also what the handler put in for the chunk in flight and those after it. A shielded
settle runs on when the call is cancelled, and the call counts as exited when it is over. -/
inductive Pc where
  | seeding | claiming | dropping | unclaimed
  | enqueuing (returned : List Bool)
  | settling (returned : List Bool)
  | finishing (returned : List Bool)
  | exited (returned : List Bool) (settled : Bool)
  deriving DecidableEq, Repr

structure Call (Agent Proposal : Type) where
  groups : Groups Agent Proposal
  pc : Pc

structure State (Batch Agent Proposal : Type) where
  redis : Redis Batch Agent
  call : Batch → Option (Call Agent Proposal)
  -- The sub-jobs that really are on the broker, by their place in the plan.
  landed : Batch → Nat → Bool
  -- The proposals a running sub-job has reported in its current execution.
  worker : Batch → Nat → Nat
  -- The events on their way; each may arrive late, twice or never.
  sent : Batch → List (Event Agent)

inductive Action (Batch Agent Proposal : Type) where
  | start (batch : Batch) (groups : Groups Agent Proposal)
  | seed (batch : Batch) (fate : Fate)
  | claim (batch : Batch) (fate : Fate)
  | drop (batch : Batch) (fate : Fate)
  | enqueue (batch : Batch) (outcome : EnqueueOutcome)
  | settle (batch : Batch) (fate : Fate)
  | finish (batch : Batch) (fate : Fate)
  | report (batch : Batch) (job : Nat) (step : TerminalStep)
  | replay (batch : Batch) (job : Nat)
  | deliver (batch : Batch) (event : Event Agent)

def Action.batch {Batch Agent Proposal : Type} : Action Batch Agent Proposal → Batch
  | .start batch _ | .seed batch _ | .claim batch _ | .drop batch _ | .enqueue batch _
  | .settle batch _ | .finish batch _ | .report batch _ _ | .replay batch _ | .deliver batch _ => batch

def Action.heard {Batch Agent Proposal : Type} : Action Batch Agent Proposal → Option (Event Agent)
  | .deliver _ event => some event
  | _ => none

section Step

variable {Batch Agent Proposal : Type} [DecidableEq Batch] [DecidableEq Agent]

def State.initial : State Batch Agent Proposal where
  redis := ⟨none, fun _ => none, fun _ => []⟩
  call := fun _ => none
  landed := fun _ _ => false
  worker := fun _ _ => 0
  sent := fun _ => []

namespace State

variable (state : State Batch Agent Proposal)

def goto (batch : Batch) (groups : Groups Agent Proposal) (pc : Pc) : State Batch Agent Proposal :=
  { state with call := Function.update state.call batch (some ⟨groups, pc⟩) }

def perform (fate : Fate) (effect : Redis Batch Agent → Redis Batch Agent) : State Batch Agent Proposal :=
  if fate.applied then { state with redis := effect state.redis } else state

def land (batch : Batch) (job : Nat) (landed : Bool) : State Batch Agent Proposal :=
  let jobs := Function.update (state.landed batch) job true
  if landed then { state with landed := Function.update state.landed batch jobs } else state

def setWorker (batch : Batch) (job : Nat) (items : Nat) : State Batch Agent Proposal :=
  let workers := Function.update (state.worker batch) job items
  { state with worker := Function.update state.worker batch workers }

def send (batch : Batch) (event : Event Agent) : State Batch Agent Proposal :=
  { state with sent := Function.update state.sent batch (state.sent batch ++ [event]) }

end State

def advance (groups : Groups Agent Proposal) (returned : List Bool) : Pc :=
  if returned.length < groups.pending.length then .enqueuing returned
  else if (enqueueResult groups.pending returned).totalUndispatched = 0 then .exited returned false
  else .settling returned

-- Where one attempt leads. An interruption counts the chunk in flight as landed and the chunks
-- after it as never dispatched.
def afterEnqueue (groups : Groups Agent Proposal) (returned : List Bool) : EnqueueOutcome → Pc
  | .landed => advance groups (returned ++ [true])
  | .ambiguous _ => advance groups (returned ++ [true])
  | .failed => advance groups (returned ++ [false])
  | .interrupted _ =>
      .settling (returned ++ true :: List.replicate (groups.pending.length - returned.length - 1) false)

def settleEffect (batch : Batch) (groups : Groups Agent Proposal) (returned : List Bool)
    (redis : Redis Batch Agent) : Redis Batch Agent :=
  redis.setHash batch ((redis.hash batch).map fun hash =>
    reconcileUndispatched hash (enqueueResult groups.pending returned))

def finishEffect (batch : Batch) (groups : Groups Agent Proposal) (returned : List Bool)
    (redis : Redis Batch Agent) : Redis Batch Agent :=
  if (enqueueResult groups.pending returned).enqueuedOk = 0 then releaseDispatch redis batch
  else promote redis batch

def nextEvent (chunk : PendingChunk Agent Proposal) (job item : Nat) (step : TerminalStep) : Event Agent :=
  ⟨job, item, chunk.agent, step, item + 1 = chunk.chunk.length⟩

def step (state : State Batch Agent Proposal) :
    Action Batch Agent Proposal → Option (State Batch Agent Proposal)
  | .start batch groups =>
      if (state.call batch).isNone ∧ groups.byAgent ≠ [] then some (state.goto batch groups .seeding) else none
  | .seed batch fate =>
      match state.call batch with
      | some ⟨groups, .seeding⟩ =>
          let seeded := state.perform fate (·.setHash batch (some (initFields groups)))
          some (seeded.goto batch groups (if fate.answered then .claiming else .unclaimed))
      | _ => none
  | .claim batch fate =>
      match state.call batch with
      | some ⟨groups, .claiming⟩ =>
          let claimed := state.perform fate fun redis => (claimDispatch redis batch).2
          let won := fate.answered && (claimDispatch state.redis batch).1 ≠ .refused
          some (claimed.goto batch groups (if won then advance groups [] else .dropping))
      | _ => none
  | .drop batch fate =>
      match state.call batch with
      | some ⟨groups, .dropping⟩ =>
          some ((state.perform fate (·.setHash batch none)).goto batch groups .unclaimed)
      | _ => none
  | .enqueue batch outcome =>
      match state.call batch with
      | some ⟨groups, .enqueuing returned⟩ =>
          some ((state.land batch returned.length outcome.lands).goto batch groups
            (afterEnqueue groups returned outcome))
      | _ => none
  | .settle batch fate =>
      match state.call batch with
      | some ⟨groups, .settling returned⟩ =>
          some ((state.perform fate (settleEffect batch groups returned)).goto batch groups
            (if fate.answered then .finishing returned else .exited returned fate.applied))
      | _ => none
  | .finish batch fate =>
      match state.call batch with
      | some ⟨groups, .finishing returned⟩ =>
          some ((state.perform fate (finishEffect batch groups returned)).goto batch groups
            (.exited returned true))
      | _ => none
  | .report batch job step =>
      match state.call batch with
      | some call =>
          match call.groups.pending[job]? with
          | some chunk =>
              let item := state.worker batch job
              if state.landed batch job ∧ item < chunk.chunk.length then
                some ((state.send batch (nextEvent chunk job item step)).setWorker batch job (item + 1))
              else none
          | none => none
      | none => none
  | .replay batch job =>
      if state.landed batch job then some (state.setWorker batch job 0) else none
  | .deliver batch event =>
      if event ∈ state.sent batch then
        some { state with redis := postExecBatchProgress state.redis batch event }
      else none

def Steps (before after : State Batch Agent Proposal) : Prop :=
  ∃ action, step before action = some after

def Reachable (state : State Batch Agent Proposal) : Prop :=
  Relation.ReflTransGen Steps State.initial state

def run (state : State Batch Agent Proposal) :
    List (Action Batch Agent Proposal) → Option (State Batch Agent Proposal)
  | [] => some state
  | action :: rest => (step state action).bind fun next => run next rest

theorem run_append (state : State Batch Agent Proposal) (earlier later : List (Action Batch Agent Proposal)) :
    run state (earlier ++ later) = (run state earlier).bind fun next => run next later := by
  induction earlier generalizing state with
  | nil => rfl
  | cons action rest ih =>
      simp only [List.cons_append, run, Option.bind_assoc]
      exact congrArg _ (funext ih)

theorem steps_of_run {actions : List (Action Batch Agent Proposal)} {before after : State Batch Agent Proposal}
    (ran : run before actions = some after) : Relation.ReflTransGen Steps before after := by
  induction actions generalizing before with
  | nil =>
      cases ran
      exact .refl
  | cons action rest ih =>
      obtain ⟨next, taken, later⟩ := Option.bind_eq_some_iff.mp ran
      exact .head ⟨action, taken⟩ (ih later)

end Step

end Phaze.Dispatch
