import Phaze.Dispatch.Settlement

set_option autoImplicit false

/-!
# What the counters add up to

The counters of a batch are kept by the seed, the settling transaction and the events. Each
proposal is counted once, by its own event or with the chunk that was never dispatched.
-/

namespace Phaze.Dispatch

open Shared (slots mem_slots length_le_of_slots length_eq_of_slots sum_by_key sum_map_zip map_fst_zipIdx
  flatten_toChunks)

variable {Batch Agent Proposal : Type} [DecidableEq Batch] [DecidableEq Agent]

/-! ## One event -/

section Event

def Event.ends (event : Event Agent) : Bool :=
  match event.step with
  | .deleted | .failed _ => true
  | _ => false

theorem gain_laws (event : Event Agent) :
    gain event .completed = gain event .deleted ∧
    gain event .deleted ≤ gain event .verified ∧ gain event .verified ≤ gain event .copied ∧
    gain event .completed + gain event .failed = (if event.ends then 1 else 0) ∧
    gain event .total = 0 := by
  obtain ⟨job, item, agent, step, terminal⟩ := event
  cases step with
  | failed failedAtStep =>
      cases failedAtStep <;> cases terminal <;> simp [gain, applyArgs, computeIncrements, Event.ends]
  | _ => cases terminal <;> simp [gain, applyArgs, computeIncrements, Event.ends]

theorem gain_agent (event : Event Agent) (agent : Agent) :
    gain event (.agentCompleted agent) = (if event.agent = agent then gain event .completed else 0) ∧
    gain event (.agentFailed agent) = (if event.agent = agent then gain event .failed else 0) ∧
    gain event (.agentTotal agent) = 0 := by
  obtain ⟨job, item, mine, step, terminal⟩ := event
  cases step with
  | failed failedAtStep => cases failedAtStep <;> cases terminal <;> simp [gain, applyArgs, computeIncrements]
  | _ => cases terminal <;> simp [gain, applyArgs, computeIncrements]

end Event

/-! ## The chunks of a plan as rows -/

section Rows

variable {groups : Groups Agent Proposal}

def rows (groups : Groups Agent Proposal) (chosen : Nat → Agent → Bool) : List Nat :=
  groups.pending.zipIdx.map fun entry => if chosen entry.2 entry.1.agent then entry.1.chunk.length else 0

omit [DecidableEq Agent] in
theorem getElem?_rows {chosen : Nat → Agent → Bool} {job : Nat} {chunk : PendingChunk Agent Proposal}
    (planned : groups.pending[job]? = some chunk) :
    (rows groups chosen)[job]? = some (if chosen job chunk.agent then chunk.chunk.length else 0) := by
  simp [rows, planned]

omit [DecidableEq Agent] in
theorem rows_congr {chosen other : Nat → Agent → Bool}
    (same : ∀ job chunk, groups.pending[job]? = some chunk → chosen job chunk.agent = other job chunk.agent) :
    rows groups chosen = rows groups other := by
  refine List.map_congr_left fun entry member => ?_
  rw [same entry.2 entry.1 (List.mem_zipIdx_iff_getElem?.mp member)]

omit [DecidableEq Agent] in
theorem sum_rows_split (groups : Groups Agent Proposal) (chosen other : Nat → Agent → Bool) :
    (rows groups chosen).sum =
      (rows groups fun job agent => chosen job agent && other job agent).sum +
        (rows groups fun job agent => chosen job agent && !other job agent).sum := by
  rw [rows, rows, rows, ← List.sum_map_add]
  refine congrArg List.sum (List.map_congr_left fun entry _ => ?_)
  cases chosen entry.2 entry.1.agent <;> cases other entry.2 entry.1.agent <;> simp

omit [DecidableEq Agent] in
theorem sum_chunkProposals (items : List Proposal) : ((chunkProposals items).map List.length).sum = items.length := by
  rw [← List.length_flatten, chunkProposals, flatten_toChunks]

omit [DecidableEq Agent] in
theorem sum_rows_agent (which : Agent → Bool) :
    (rows groups fun _ agent => which agent).sum =
      (groups.byAgent.map fun group => if which group.1 then group.2.length else 0).sum := by
  have chunks : ∀ group : Agent × List Proposal,
      ((chunkProposals group.2).zipIdx.map fun chunk => if which group.1 then chunk.1.length else 0).sum =
        if which group.1 then group.2.length else 0 := by
    intro group
    cases which group.1 with
    | true => simp [map_fst_zipIdx List.length, sum_chunkProposals]
    | false => simp
  have flat : rows groups (fun _ agent => which agent) =
      groups.pending.map fun chunk => if which chunk.agent then chunk.chunk.length else 0 :=
    map_fst_zipIdx
      (fun chunk : PendingChunk Agent Proposal => if which chunk.agent then chunk.chunk.length else 0)
      groups.pending
  rw [flat, Groups.pending, pendingChunks, buildChunkPlan, List.map_flatMap, List.flatMap_map, List.flatMap,
    List.sum_flatten, List.map_map]
  refine congrArg List.sum (List.map_congr_left fun group _ => ?_)
  simp only [Function.comp_apply, List.map_map]
  exact chunks group

-- The settling transaction counted the chunk as failed.
def writtenOff (returned : List Bool) (settled : Bool) (job : Nat) : Bool := settled && returned[job]? == some false

omit [DecidableEq Agent] in
theorem sum_undispatched (returned : List Bool) (which : Agent → Bool) :
    ((groups.pending.zip returned).map fun entry =>
      if entry.2 = false ∧ which entry.1.agent = true then entry.1.chunk.length else 0).sum =
        (rows groups fun job agent => which agent && writtenOff returned true job).sum := by
  have side := sum_map_zip (fun (chunk : PendingChunk Agent Proposal) flag =>
    if flag = false ∧ which chunk.agent = true then chunk.chunk.length else 0) groups.pending returned 0
  rw [side, rows]
  refine congrArg List.sum (List.map_congr_left fun entry _ => ?_)
  cases found : returned[entry.2]? with
  | none => simp [writtenOff, found]
  | some flag => cases flag <;> cases which entry.1.agent <;> simp [writtenOff, found]

theorem baseHash_failed (returned : List Bool) (settled : Bool) :
    (baseHash groups returned settled).counter .failed =
      (rows groups fun job _ => writtenOff returned settled job).sum := by
  cases settled with
  | false => simp [baseHash, initFields, rows, writtenOff]
  | true =>
      have missing := @sum_undispatched Agent Proposal groups returned fun _ => true
      simp only [and_true, Bool.true_and] at missing
      rw [← missing]
      exact Nat.zero_add _

theorem baseHash_agentFailed (returned : List Bool) (settled : Bool) (agent : Agent) :
    (baseHash groups returned settled).counter (.agentFailed agent) =
      (rows groups fun job each => decide (each = agent) && writtenOff returned settled job).sum := by
  cases settled with
  | false => simp [baseHash, initFields, rows, writtenOff]
  | true =>
      have missing := @sum_undispatched Agent Proposal groups returned fun each => decide (each = agent)
      simp only [decide_eq_true_eq] at missing
      rw [← missing]
      exact Nat.zero_add _

theorem baseHash_total (returned : List Bool) (settled : Bool) :
    (baseHash groups returned settled).counter .total = (rows groups fun _ _ => true).sum := by
  rw [sum_rows_agent]
  cases settled <;> simp [baseHash, initFields, reconcileUndispatched]

theorem baseHash_agentTotal (returned : List Bool) (settled : Bool) (agent : Agent) :
    (baseHash groups returned settled).counter (.agentTotal agent) =
      (rows groups fun _ each => decide (each = agent)).sum := by
  have seeded : ∀ byAgent : List (Agent × List Proposal), (byAgent.map Prod.fst).Nodup →
      ((byAgent.lookup agent).getD []).length =
        (byAgent.map fun group => if decide (group.1 = agent) then group.2.length else 0).sum := by
    intro byAgent distinct
    induction byAgent with
    | nil => rfl
    | cons group rest ih =>
        obtain ⟨fresh, later⟩ := List.nodup_cons.mp distinct
        by_cases mine : group.1 = agent
        · subst mine
          have others : (rest.map fun other => if decide (other.1 = group.1) then other.2.length else 0).sum = 0 := by
            refine List.sum_eq_zero fun size member => ?_
            obtain ⟨other, found, rfl⟩ := List.mem_map.mp member
            have different : other.1 ≠ group.1 := fun same => fresh (same ▸ List.mem_map_of_mem found)
            simp [different]
          rw [List.map_cons, List.sum_cons, others, List.lookup_cons_self]
          simp
        · have different : (agent == group.1) = false := by simpa using Ne.symm mine
          rw [List.lookup_cons, different, List.map_cons, List.sum_cons, ← ih later]
          simp [mine]
  rw [sum_rows_agent, ← seeded groups.byAgent groups.distinct]
  cases settled <;> rfl

end Rows

/-! ## One batch -/

/-- The laws of an `exec:{batch_id}` hash. -/
structure Conserved (groups : Groups Agent Proposal) (hash : BatchHash Agent) : Prop where
  deleted : hash.counter .deleted = hash.counter .completed
  completed : hash.counter .completed =
    (groups.byAgent.map fun group => hash.counter (.agentCompleted group.1)).sum
  failed : hash.counter .failed = (groups.byAgent.map fun group => hash.counter (.agentFailed group.1)).sum
  verified : hash.counter .deleted ≤ hash.counter .verified
  copied : hash.counter .verified ≤ hash.counter .copied
  agent : ∀ agent, hash.counter (.agentCompleted agent) + hash.counter (.agentFailed agent) ≤
    hash.counter (.agentTotal agent)
  total : hash.counter .completed + hash.counter .failed ≤ hash.counter .total

section Laws

variable {view : View Agent Proposal} {groups : Groups Agent Proposal} {returned : List Bool}
  {settled : Bool} {hash : BatchHash Agent}

def reports (applied : List (Event Agent)) (which : Agent → Bool) : List (Nat × Nat) :=
  (applied.filter fun event => which event.agent).map Event.request

omit [DecidableEq Agent] in
theorem reports_nodup {applied : List (Event Agent)} (once : (applied.map Event.request).Nodup)
    (which : Agent → Bool) : (reports applied which).Nodup :=
  once.sublist (List.filter_sublist.map _)

theorem Counted.reports_subset (counted : Counted view groups returned settled hash) (which : Agent → Bool) :
    reports view.applied which ⊆
      slots (rows groups fun job agent => which agent && !writtenOff returned settled job) := by
  intro name member
  obtain ⟨event, found, rfl⟩ := List.mem_map.mp member
  obtain ⟨applied, chosen⟩ := List.mem_filter.mp found
  have ok := counted.events event (.inl applied)
  obtain ⟨chunk, planned, inside, agent, -⟩ := ok.chunk
  have kept : writtenOff returned settled event.job = false := by
    simp [writtenOff, counted.landed event.job ok.there]
  refine mem_slots.mpr ⟨chunk.chunk.length, ?_, inside⟩
  rw [show event.request.1 = event.job from rfl, getElem?_rows planned]
  simp [kept, ← agent, chosen]

theorem Counted.reports_le (counted : Counted view groups returned settled hash) (which : Agent → Bool) :
    (reports view.applied which).length +
        (rows groups fun job agent => which agent && writtenOff returned settled job).sum ≤
      (rows groups fun _ agent => which agent).sum := by
  rw [sum_rows_split groups (fun _ agent => which agent) fun job _ => writtenOff returned settled job, Nat.add_comm]
  exact Nat.add_le_add_left
    (length_le_of_slots (reports_nodup counted.once which) (counted.reports_subset which)) _

theorem gains_ends_le (applied : List (Event Agent)) :
    gains applied .completed + gains applied .failed ≤ applied.length := by
  induction applied with
  | nil => exact le_rfl
  | cons event rest ih =>
      have one := (gain_laws event).2.2.2.1
      simp only [gains, List.map_cons, List.sum_cons, List.length_cons] at ih ⊢
      split at one <;> omega

theorem gains_agent (applied : List (Event Agent)) (agent : Agent) :
    gains applied (.agentCompleted agent) =
      gains (applied.filter fun event => decide (event.agent = agent)) .completed ∧
    gains applied (.agentFailed agent) =
      gains (applied.filter fun event => decide (event.agent = agent)) .failed := by
  induction applied with
  | nil => exact ⟨rfl, rfl⟩
  | cons event rest ih =>
      obtain ⟨completed, failed, -⟩ := gain_agent event agent
      by_cases mine : event.agent = agent <;>
        simp_all [gains]

theorem gains_total (applied : List (Event Agent)) : gains applied .total = 0 := by
  refine List.sum_eq_zero fun amount member => ?_
  obtain ⟨event, -, rfl⟩ := List.mem_map.mp member
  exact (gain_laws event).2.2.2.2

theorem gains_agentTotal (applied : List (Event Agent)) (agent : Agent) : gains applied (.agentTotal agent) = 0 := by
  refine List.sum_eq_zero fun amount member => ?_
  obtain ⟨event, -, rfl⟩ := List.mem_map.mp member
  exact (gain_agent event agent).2.2

theorem Counted.events_only (counted : Counted view groups returned settled hash) :
    hash.counter .deleted = gains view.applied .deleted ∧
    hash.counter .completed = gains view.applied .completed ∧
    hash.counter .verified = gains view.applied .verified ∧
    hash.counter .copied = gains view.applied .copied ∧
    ∀ agent, hash.counter (.agentCompleted agent) = gains view.applied (.agentCompleted agent) := by
  simp only [counted.counter]
  cases settled <;> simp [baseHash, initFields, reconcileUndispatched]

theorem Counted.agent_known (counted : Counted view groups returned settled hash) {event : Event Agent}
    (applied : event ∈ view.applied) : event.agent ∈ groups.byAgent.map Prod.fst := by
  obtain ⟨chunk, planned, -, agent, -⟩ := (counted.events event (.inl applied)).chunk
  exact agent ▸ agent_mem_of_pending (List.mem_of_getElem? planned)

theorem Counted.completed_by_agent (counted : Counted view groups returned settled hash) :
    hash.counter .completed = (groups.byAgent.map fun group => hash.counter (.agentCompleted group.1)).sum := by
  obtain ⟨-, completed, -, -, byAgent⟩ := counted.events_only
  have split := sum_by_key groups.distinct Event.agent (gain · .completed) view.applied
    fun event applied => counted.agent_known applied
  rw [List.map_map] at split
  rw [completed, gains, ← split]
  refine congrArg List.sum (List.map_congr_left fun group _ => ?_)
  rw [byAgent]
  exact congrArg List.sum (List.map_congr_left fun event _ => ((gain_agent event group.1).1).symm)

theorem Counted.failed_by_agent (counted : Counted view groups returned settled hash) :
    hash.counter .failed = (groups.byAgent.map fun group => hash.counter (.agentFailed group.1)).sum := by
  have events := sum_by_key groups.distinct Event.agent (gain · .failed) view.applied
    fun event applied => counted.agent_known applied
  have chunks := sum_by_key groups.distinct (fun entry : PendingChunk Agent Proposal × Nat => entry.1.agent)
    (fun entry => if writtenOff returned settled entry.2 then entry.1.chunk.length else 0) groups.pending.zipIdx
    fun entry member => agent_mem_of_pending (List.fst_mem_of_mem_zipIdx member)
  rw [List.map_map] at events chunks
  rw [counted.counter, baseHash_failed, rows, gains, ← events, ← chunks, ← List.sum_map_add]
  refine congrArg List.sum (List.map_congr_left fun group _ => ?_)
  rw [counted.counter, baseHash_agentFailed, rows, gains]
  refine congrArg₂ (· + ·) (congrArg List.sum (List.map_congr_left fun entry _ => ?_))
    (congrArg List.sum (List.map_congr_left fun event _ => ((gain_agent event group.1).2.1).symm))
  by_cases mine : entry.1.agent = group.1 <;> simp [mine]

theorem Counted.conserved (counted : Counted view groups returned settled hash) : Conserved groups hash := by
  obtain ⟨deleted, completed, verified, copied, byAgent⟩ := counted.events_only
  refine ⟨?_, counted.completed_by_agent, counted.failed_by_agent, ?_, ?_, fun agent => ?_, ?_⟩
  · rw [deleted, completed]
    exact congrArg List.sum (List.map_congr_left fun event _ => (gain_laws event).1.symm)
  · rw [deleted, verified]
    exact List.sum_le_sum fun event _ => (gain_laws event).2.1
  · rw [verified, copied]
    exact List.sum_le_sum fun event _ => (gain_laws event).2.2.1
  · have room := counted.reports_le fun each => decide (each = agent)
    obtain ⟨done, missed⟩ := gains_agent view.applied agent
    have ended := gains_ends_le (view.applied.filter fun event => decide (event.agent = agent))
    rw [byAgent, counted.counter, counted.counter (.agentTotal agent), baseHash_agentFailed, baseHash_agentTotal,
      gains_agentTotal, done, missed]
    rw [reports, List.length_map] at room
    omega
  · have room := counted.reports_le fun _ => true
    have ended := gains_ends_le view.applied
    rw [completed, counted.counter, counted.counter .total, baseHash_failed, baseHash_total, gains_total]
    simp only [reports, List.filter_true, List.length_map, Bool.true_and] at room
    omega

/-- The proposals of the chunks that were counted as dispatched and never reached the broker. -/
def inDoubt (groups : Groups Agent Proposal) (returned : List Bool) (landed : Nat → Bool) : Nat :=
  (rows groups fun job _ => returned[job]? == some true && !landed job).sum

-- Every proposal of every sub-job on the broker was moved or failed.
def Finished (groups : Groups Agent Proposal) (landed : Nat → Bool) (applied : List (Event Agent)) : Prop :=
  ∀ job chunk item, landed job = true → groups.pending[job]? = some chunk → item < chunk.chunk.length →
    ∃ event ∈ applied, event.request = (job, item) ∧ event.ends = true

theorem Counted.all_end (counted : Counted view groups returned settled hash)
    (finished : Finished groups view.landed view.applied) {event : Event Agent} (applied : event ∈ view.applied) :
    event.ends = true := by
  have ok := counted.events event (.inl applied)
  obtain ⟨chunk, planned, inside, -⟩ := ok.chunk
  obtain ⟨other, found, same, ends⟩ := finished event.job chunk event.item ok.there planned inside
  obtain rfl : other = event := List.inj_on_of_nodup_map counted.once found applied same
  exact ends

theorem Counted.finished_length (counted : Counted view groups returned settled hash)
    (finished : Finished groups view.landed view.applied) :
    gains view.applied .completed + gains view.applied .failed = (rows groups fun job _ => view.landed job).sum := by
  have every : gains view.applied .completed + gains view.applied .failed = view.applied.length := by
    have ones : ∀ event ∈ view.applied, gain event .completed + gain event .failed = 1 := by
      intro event applied
      rw [(gain_laws event).2.2.2.1, if_pos (counted.all_end finished applied)]
    rw [gains, gains, ← List.sum_map_add, List.map_congr_left ones]
    simp
  have names : (view.applied.map Event.request).length = (rows groups fun job _ => view.landed job).sum := by
    refine length_eq_of_slots counted.once ?_ ?_
    · intro name member
      obtain ⟨event, applied, rfl⟩ := List.mem_map.mp member
      have ok := counted.events event (.inl applied)
      obtain ⟨chunk, planned, inside, -⟩ := ok.chunk
      refine mem_slots.mpr ⟨chunk.chunk.length, ?_, inside⟩
      rw [show event.request.1 = event.job from rfl, getElem?_rows planned]
      simp [ok.there]
    · rintro ⟨job, item⟩ member
      obtain ⟨size, found, inside⟩ := mem_slots.mp member
      obtain ⟨chunk, planned, rfl⟩ : ∃ chunk, groups.pending[job]? = some chunk ∧
          (if view.landed job then chunk.chunk.length else 0) = size := by
        simpa [rows] using found
      cases there : view.landed job with
      | false => simp [there] at inside
      | true =>
          simp only [there, if_true] at inside
          obtain ⟨event, applied, same, -⟩ := finished job chunk item there planned inside
          exact List.mem_map.mpr ⟨event, applied, same⟩
  rw [every, ← names, List.length_map]

-- When all is reported and settled, only the proposals in doubt are missing from the total.
theorem Counted.balance (counted : Counted view groups returned settled hash)
    (all : returned.length = groups.pending.length) (fine : settled = true ∨ false ∉ returned)
    (finished : Finished groups view.landed view.applied) :
    hash.counter .completed + hash.counter .failed + inDoubt groups returned view.landed =
      hash.counter .total := by
  have kept : ∀ job < groups.pending.length, (!writtenOff returned settled job) = (returned[job]? == some true) := by
    intro job planned
    have there : returned[job]? = some returned[job] := List.getElem?_eq_getElem _
    rcases fine with rfl | every
    · rw [writtenOff, there]
      cases returned[job] <;> rfl
    · have landed : returned[job] = true := by
        cases flag : returned[job] with
        | true => rfl
        | false => exact absurd (flag ▸ List.getElem_mem _) every
      simp [writtenOff, there, landed]
  have landed : (rows groups fun job _ => !writtenOff returned settled job && view.landed job) =
      rows groups fun job _ => view.landed job := by
    refine rows_congr fun job chunk planned => ?_
    cases there : view.landed job with
    | false => exact Bool.and_false _
    | true => simp [writtenOff, counted.landed job there]
  have lost : (rows groups fun job _ => !writtenOff returned settled job && !view.landed job) =
      rows groups fun job _ => returned[job]? == some true && !view.landed job := by
    refine rows_congr fun job chunk planned => ?_
    rw [kept job (List.getElem?_eq_some_iff.mp planned).1]
  have whole := sum_rows_split groups (fun _ _ => true) fun job _ => writtenOff returned settled job
  have rest := sum_rows_split groups (fun job _ => !writtenOff returned settled job)
    fun job _ => view.landed job
  simp only [Bool.true_and] at whole
  rw [landed, lost] at rest
  have done := counted.finished_length finished
  rw [counted.events_only.2.1, counted.counter, counted.counter .total, baseHash_failed, baseHash_total,
    gains_total, whole, rest, ← done, inDoubt]
  omega

omit [DecidableEq Agent] in
theorem View.promote_counter (view : View Agent Proposal) (present : view.hash = some hash) :
    ∃ after, view.promote.hash = some after ∧ after.counter = hash.counter := by
  by_cases short : hash.counter .subjobsCompleted < hash.counter .subjobsExpected
  · exact ⟨hash, by simp [View.promote, present, short], rfl⟩
  · simp [View.promote, present, short]

theorem View.post_duplicate (view : View Agent Proposal) (present : view.hash = some hash) {event : Event Agent}
    (seen : event.request ∈ view.applied.map Event.request) :
    ∃ after, (view.post event).hash = some after ∧ after.counter = hash.counter := by
  simp only [View.post, present, View.countOnce, if_pos seen]
  split
  · split
    · exact view.promote_counter present
    · exact ⟨hash, present, rfl⟩
  · exact ⟨hash, present, rfl⟩

end Laws

/-! ## Every run -/

theorem progress_conserved {state : State Batch Agent Proposal} (reachable : Reachable state) {batch : Batch}
    {groups : Groups Agent Proposal} {pc : Pc} {hash : BatchHash Agent}
    (call : state.call batch = some ⟨groups, pc⟩) (present : state.redis.hash batch = some hash) :
    Conserved groups hash ∧
    (∀ event : Event Agent, event.request ∈ (state.redis.applied batch).map Event.request →
      ∃ after, (postExecBatchProgress state.redis batch event).hash batch = some after ∧
        after.counter = hash.counter) ∧
    ∀ returned settled, pc = .exited returned settled → settled = true ∨ false ∉ returned →
      Finished groups (state.landed batch) (state.redis.applied batch) →
      hash.counter .completed + hash.counter .failed + inDoubt groups returned (state.landed batch) =
        hash.counter .total := by
  have valid := reachable_inv reachable batch
  refine ⟨?_, fun event seen => ?_, ?_⟩
  · obtain ⟨planned, _, returned, settled, there, -, counted⟩ := valid.counted present
    obtain rfl : planned = groups := congrArg Call.groups (Option.some.inj (there.symm.trans call))
    exact counted.conserved
  · have posted := congrArg View.hash (@view_post Batch Agent Proposal _ _ state batch event)
    obtain ⟨after, found, same⟩ := (state.view batch).post_duplicate present seen
    exact ⟨after, posted.trans found, same⟩
  · rintro returned settled rfl fine finished
    simp only [Valid, show (state.view batch).call = _ from call] at valid
    obtain ⟨all, found, counted, -⟩ := valid
    obtain rfl : found = hash := Option.some.inj (counted.present.symm.trans present)
    exact counted.balance all fine finished

namespace Phantom

def groups : Groups Nat Nat := .single 0 [10, 11]

def actions : List (Action Nat Nat Nat) :=
  [ .start 1 groups, .seed 1 .replied, .claim 1 .replied, .enqueue 1 (.ambiguous false) ]

theorem ran : (run State.initial actions).isSome = true := by decide

def final : State Nat Nat Nat := (run State.initial actions).get ran

theorem reached : Reachable final := steps_of_run (Option.some_get ran).symm

theorem exited : final.call 1 = some ⟨groups, .exited [true] false⟩ := rfl

end Phantom

theorem progress_short : ¬ ∀ (state : State Nat Nat Nat) (batch : Nat) (groups : Groups Nat Nat)
    (returned : List Bool) (settled : Bool) (hash : BatchHash Nat), Reachable state →
    state.call batch = some ⟨groups, .exited returned settled⟩ → state.redis.hash batch = some hash →
    settled = true ∨ false ∉ returned → Finished groups (state.landed batch) (state.redis.applied batch) →
    hash.counter .completed + hash.counter .failed = hash.counter .total := by
  intro balanced
  have counters : (Phantom.final.redis.hash 1).map
      (fun hash => (hash.counter .completed + hash.counter .failed, hash.counter .total)) = some (0, 2) := by
    decide
  obtain ⟨hash, present, values⟩ := Option.map_eq_some_iff.mp counters
  obtain ⟨sum, total⟩ := Prod.mk.inj values
  have none : ∀ job, Phantom.final.landed 1 job = false := fun _ => rfl
  have balance := balanced _ 1 _ _ _ hash Phantom.reached Phantom.exited present (.inr (by decide))
    fun job _ _ landed _ _ => by simp [none job] at landed
  omega

namespace Balanced

def groups : Groups Nat Nat := ⟨[(0, [10]), (1, [11, 12]), (2, [13])], by decide⟩

def actions : List (Action Nat Nat Nat) :=
  [ .start 1 groups, .seed 1 .replied, .claim 1 .replied, .enqueue 1 .landed, .enqueue 1 .failed,
    .enqueue 1 (.ambiguous false), .settle 1 .replied, .finish 1 .replied, .report 1 0 .deleted,
    .deliver 1 ⟨0, 0, 0, .deleted, true⟩, .deliver 1 ⟨0, 0, 0, .deleted, true⟩ ]

theorem ran : (run State.initial actions).isSome = true := by decide

def final : State Nat Nat Nat := (run State.initial actions).get ran

theorem reached : Reachable final := steps_of_run (Option.some_get ran).symm

theorem exited : final.call 1 = some ⟨groups, .exited [true, false, true] true⟩ := rfl

theorem finished : Finished groups (final.landed 1) (final.redis.applied 1) := by
  intro job chunk item landed planned inside
  have only : job = 0 := by
    by_contra other
    have away : final.landed 1 job = Function.update (fun _ => false) 0 true job := rfl
    rw [away, Function.update_of_ne other] at landed
    cases landed
  subst only
  have first : groups.pending[0]? = some ⟨0, 0, [10]⟩ := rfl
  obtain rfl : chunk = ⟨0, 0, [10]⟩ := Option.some.inj (planned.symm.trans first)
  obtain rfl : item = 0 := by simpa using inside
  exact ⟨⟨0, 0, 0, .deleted, true⟩, by decide, rfl, rfl⟩

end Balanced

theorem progress_conserved_balanced : ∃ hash, Balanced.final.redis.hash 1 = some hash ∧
    Conserved Balanced.groups hash ∧ hash.counter .completed + hash.counter .failed + 1 = hash.counter .total := by
  have there : (Balanced.final.redis.hash 1).isSome = true := by decide
  obtain ⟨hash, present⟩ := Option.isSome_iff_exists.mp there
  obtain ⟨conserved, -, balance⟩ := progress_conserved Balanced.reached Balanced.exited present
  refine ⟨hash, present, conserved, ?_⟩
  have missing : inDoubt Balanced.groups [true, false, true] (Balanced.final.landed 1) = 1 := by decide
  rw [← missing]
  exact balance _ _ rfl (.inl rfl) Balanced.finished

end Phaze.Dispatch
