import Phaze.Dispatch.Protocol

set_option autoImplicit false

/-!
# A step, seen from one batch

A batch is touched by its own call and its own events; from outside only the claim of another
batch reaches it. `step_views` says so once, and what a step can do is then a case analysis over
`Moves` and `Touched`.
-/

namespace Phaze.Dispatch

variable {Batch Agent Proposal : Type} [DecidableEq Batch] [DecidableEq Agent]

/-! ## Counting -/

def gain (event : Event Agent) (field : Field Agent) : Nat :=
  ((applyArgs event).map fun increment => if increment.1 = field then increment.2 else 0).sum

def gains (events : List (Event Agent)) (field : Field Agent) : Nat := (events.map (gain · field)).sum

theorem hincrby_counter (hash : BatchHash Agent) (field other : Field Agent) (by_ : Nat) :
    (hincrby hash field by_).counter other =
      hash.counter other + if field = other then by_ else 0 := by
  by_cases same : field = other
  · subst same
    simp [hincrby]
  · simp [hincrby, same, Function.update_of_ne (Ne.symm same)]

theorem applyAll_counter (hash : BatchHash Agent) (increments : List (Field Agent × Nat)) (field : Field Agent) :
    (applyAll hash increments).counter field =
      hash.counter field +
        (increments.map fun increment => if increment.1 = field then increment.2 else 0).sum := by
  induction increments generalizing hash with
  | nil => simp [applyAll]
  | cons increment rest ih =>
      have later := ih (hincrby hash increment.1 increment.2)
      rw [hincrby_counter] at later
      rw [List.map_cons, List.sum_cons, ← Nat.add_assoc, ← later]
      rfl

theorem applyAll_rest (hash : BatchHash Agent) (increments : List (Field Agent × Nat)) :
    (applyAll hash increments).members = hash.members ∧ (applyAll hash increments).status = hash.status := by
  induction increments generalizing hash with
  | nil => exact ⟨rfl, rfl⟩
  | cons increment rest ih => exact ih (hincrby hash increment.1 increment.2)

@[simp] theorem gain_subjobsExpected (event : Event Agent) : gain event .subjobsExpected = 0 := by
  obtain ⟨job, item, agent, step, terminal⟩ := event
  cases step with
  | failed failedAtStep => cases failedAtStep <;> cases terminal <;> rfl
  | _ => cases terminal <;> rfl

@[simp] theorem gain_subjobsCompleted (event : Event Agent) :
    gain event .subjobsCompleted = if event.subBatchTerminal then 1 else 0 := by
  obtain ⟨job, item, agent, step, terminal⟩ := event
  cases step with
  | failed failedAtStep => cases failedAtStep <;> cases terminal <;> rfl
  | _ => cases terminal <;> rfl

theorem gains_append (events : List (Event Agent)) (event : Event Agent) (field : Field Agent) :
    gains (events ++ [event]) field = gains events field + gain event field := by
  simp [gains]

theorem gains_subjobsExpected (events : List (Event Agent)) : gains events .subjobsExpected = 0 := by
  simp [gains]

/-! ## One batch -/

/-- A batch as the rest of the system sees it. -/
structure View (Agent Proposal : Type) where
  held : Bool
  hash : Option (BatchHash Agent)
  applied : List (Event Agent)
  call : Option (Call Agent Proposal)
  landed : Nat → Bool
  sent : List (Event Agent)

def State.view (state : State Batch Agent Proposal) (batch : Batch) : View Agent Proposal where
  held := decide (state.redis.sentinel = some batch)
  hash := state.redis.hash batch
  applied := state.redis.applied batch
  call := state.call batch
  landed := state.landed batch
  sent := state.sent batch

/-! ## The scripts, seen from one batch -/

def View.promote (view : View Agent Proposal) : View Agent Proposal :=
  match view.hash with
  | none => view
  | some hash =>
      if hash.counter .subjobsCompleted < hash.counter .subjobsExpected then view
      else
        let status := if hash.counter .failed = 0 then Status.complete else .completeWithErrors
        { view with hash := some { hash with status := status }, held := false }

def View.countOnce (view : View Agent Proposal) (hash : BatchHash Agent) (event : Event Agent) :
    View Agent Proposal :=
  if event.request ∈ view.applied.map Event.request then view
  else { view with hash := some (applyAll hash (applyArgs event)), applied := view.applied ++ [event] }

def View.post (view : View Agent Proposal) (event : Event Agent) : View Agent Proposal :=
  match view.hash with
  | none => view
  | some hash =>
      if hash.members event.agent then
        if event.subBatchTerminal then (view.countOnce hash event).promote else view.countOnce hash event
      else view

def View.Stale (view : View Agent Proposal) : Prop :=
  ∀ hash, view.hash = some hash →
    hash.status ≠ .running ∨ hash.counter .subjobsExpected ≤ hash.counter .subjobsCompleted

section Views

variable (state : State Batch Agent Proposal) {batch other : Batch}

omit [DecidableEq Agent] in
theorem view_promote : ({ state with redis := promote state.redis batch }).view batch =
    (state.view batch).promote := by
  simp only [State.view, promote, View.promote]
  cases present : state.redis.hash batch with
  | none => simp [present]
  | some hash =>
      dsimp only
      by_cases short : hash.counter .subjobsCompleted < hash.counter .subjobsExpected
      · simp [short, present]
      · by_cases held : state.redis.sentinel = some batch <;> simp [short, held, Redis.setHash]

omit [DecidableEq Agent] in
theorem view_promote_of_ne (different : other ≠ batch) :
    ({ state with redis := promote state.redis batch }).view other = state.view other := by
  simp only [State.view, promote]
  cases present : state.redis.hash batch with
  | none => rfl
  | some hash =>
      dsimp only
      by_cases short : hash.counter .subjobsCompleted < hash.counter .subjobsExpected
      · simp [short]
      · by_cases held : state.redis.sentinel = some batch <;>
          simp [short, held, Redis.setHash, Function.update_of_ne different, different.symm]

omit [DecidableEq Agent] in
theorem view_release : ({ state with redis := releaseDispatch state.redis batch }).view batch =
    { state.view batch with held := false } := by
  by_cases held : state.redis.sentinel = some batch <;> simp [State.view, releaseDispatch, held]

omit [DecidableEq Agent] in
theorem view_release_of_ne (different : other ≠ batch) :
    ({ state with redis := releaseDispatch state.redis batch }).view other = state.view other := by
  by_cases held : state.redis.sentinel = some batch <;>
    simp [State.view, releaseDispatch, held, different.symm]

theorem view_countOnce (hash : BatchHash Agent) (event : Event Agent) :
    ({ state with redis := countOnce state.redis batch hash event }).view batch =
      (state.view batch).countOnce hash event := by
  by_cases duplicate : event.request ∈ (state.redis.applied batch).map Event.request
  · have seen : event.request ∈ (state.view batch).applied.map Event.request := duplicate
    rw [countOnce, View.countOnce, if_pos duplicate, if_pos seen]
  · have unseen : event.request ∉ (state.view batch).applied.map Event.request := duplicate
    rw [countOnce, View.countOnce, if_neg duplicate, if_neg unseen]
    simp only [State.view, Redis.setHash, Function.update_self]
    rfl

theorem view_countOnce_of_ne (hash : BatchHash Agent) (event : Event Agent) (different : other ≠ batch) :
    ({ state with redis := countOnce state.redis batch hash event }).view other = state.view other := by
  by_cases duplicate : event.request ∈ (state.redis.applied batch).map Event.request
  · rw [countOnce, if_pos duplicate]
  · rw [countOnce, if_neg duplicate]
    simp only [State.view, Redis.setHash, Function.update_of_ne different]
    rfl

theorem view_post (event : Event Agent) :
    ({ state with redis := postExecBatchProgress state.redis batch event }).view batch =
      (state.view batch).post event := by
  cases present : state.redis.hash batch with
  | none => simp [postExecBatchProgress, View.post, State.view, present]
  | some hash =>
      have known : (state.view batch).hash = some hash := present
      by_cases member : hash.members event.agent = true
      · simp only [postExecBatchProgress, applyIncrements, present, member, if_true, View.post, known]
        split
        · exact (view_promote _).trans (congrArg View.promote (view_countOnce state hash event))
        · exact view_countOnce state hash event
      · simp only [postExecBatchProgress, present, member, View.post, known]
        rfl

theorem view_post_of_ne (event : Event Agent) (different : other ≠ batch) :
    ({ state with redis := postExecBatchProgress state.redis batch event }).view other =
      state.view other := by
  cases present : state.redis.hash batch with
  | none => simp [postExecBatchProgress, present]
  | some hash =>
      by_cases member : hash.members event.agent = true
      · simp only [postExecBatchProgress, applyIncrements, present, member, if_true]
        split
        · exact (view_promote_of_ne _ different).trans (view_countOnce_of_ne state hash event different)
        · exact view_countOnce_of_ne state hash event different
      · simp [postExecBatchProgress, present, member]

omit [DecidableEq Agent] in
theorem view_claim (free : state.redis.sentinel ≠ some batch) :
    ({ state with redis := (claimDispatch state.redis batch).2 }).view batch =
      if (claimDispatch state.redis batch).1 = .refused then state.view batch
      else { state.view batch with held := true } := by
  cases sentinel : state.redis.sentinel with
  | none => simp [claimDispatch, sentinel, State.view]
  | some holder =>
      have different : batch ≠ holder := fun same => free (same ▸ sentinel)
      cases present : state.redis.hash holder with
      | none => simp [claimDispatch, sentinel, present, State.view]
      | some hash =>
          by_cases ended : hash.status = .complete ∨ hash.status = .completeWithErrors
          · simp [claimDispatch, sentinel, present, ended, State.view]
          · by_cases reached : hash.counter .subjobsExpected ≤ hash.counter .subjobsCompleted
            · have promoted := view_promote_of_ne state different
              simp only [State.view, View.mk.injEq] at promoted
              simp [claimDispatch, sentinel, present, ended, reached, State.view, promoted]
            · simp [claimDispatch, sentinel, present, ended, reached]

omit [DecidableEq Agent] in
-- The batch that held the sentinel loses it only if it was stale.
theorem view_claim_of_ne (different : other ≠ batch) :
    ({ state with redis := (claimDispatch state.redis batch).2 }).view other = state.view other ∨
      (state.view other).Stale ∧
        (({ state with redis := (claimDispatch state.redis batch).2 }).view other =
            { state.view other with held := false } ∨
          ({ state with redis := (claimDispatch state.redis batch).2 }).view other =
            (state.view other).promote) := by
  cases sentinel : state.redis.sentinel with
  | none => exact .inl (by simp [claimDispatch, sentinel, State.view, different.symm])
  | some holder =>
      by_cases mine : holder = other
      · subst mine
        cases present : state.redis.hash holder with
        | none =>
            refine .inr ⟨fun hash found => ?_, .inl ?_⟩
            · cases present.symm.trans found
            · simp [claimDispatch, sentinel, present, State.view, different.symm]
        | some hash =>
            by_cases ended : hash.status = .complete ∨ hash.status = .completeWithErrors
            · refine .inr ⟨fun found same => .inl ?_, .inl ?_⟩
              · obtain rfl : hash = found := Option.some.inj (present.symm.trans same)
                rcases ended with ended | ended <;> simp [ended]
              · simp [claimDispatch, sentinel, present, ended, State.view, different.symm]
            · by_cases reached : hash.counter .subjobsExpected ≤ hash.counter .subjobsCompleted
              · refine .inr ⟨fun found same => .inr ?_, .inr ?_⟩
                · obtain rfl : hash = found := Option.some.inj (present.symm.trans same)
                  exact reached
                · rw [← view_promote]
                  simp [claimDispatch, sentinel, present, ended, reached, State.view, promote, different.symm,
                    Redis.setHash, Nat.not_lt.mpr reached]
              · exact .inl (by simp [claimDispatch, sentinel, present, ended, reached])
      · left
        cases present : state.redis.hash holder with
        | none => simp [claimDispatch, sentinel, present, State.view, mine, different.symm]
        | some hash =>
            by_cases ended : hash.status = .complete ∨ hash.status = .completeWithErrors
            · simp [claimDispatch, sentinel, present, ended, State.view, mine, different.symm]
            · by_cases reached : hash.counter .subjobsExpected ≤ hash.counter .subjobsCompleted
              · have promoted := view_promote_of_ne state (Ne.symm mine)
                simp only [State.view, View.mk.injEq] at promoted
                simp [claimDispatch, sentinel, present, ended, reached, State.view, promoted, mine, different.symm]
              · simp [claimDispatch, sentinel, present, ended, reached]

omit [DecidableEq Agent] in
@[simp] theorem view_goto (groups : Groups Agent Proposal) (pc : Pc) :
    (state.goto batch groups pc).view batch = { state.view batch with call := some ⟨groups, pc⟩ } := by
  simp only [State.view, State.goto, Function.update_self]
  rfl

omit [DecidableEq Agent] in
theorem view_goto_of_ne (groups : Groups Agent Proposal) (pc : Pc) (different : other ≠ batch) :
    (state.goto batch groups pc).view other = state.view other := by
  simp only [State.view, State.goto, Function.update_of_ne different]
  rfl

omit [DecidableEq Batch] [DecidableEq Agent] in
theorem view_perform [DecidableEq Batch] (fate : Fate) (effect : Redis Batch Agent → Redis Batch Agent)
    (batch : Batch) : (state.perform fate effect).view batch =
      if fate.applied then ({ state with redis := effect state.redis }).view batch else state.view batch := by
  unfold State.perform
  split <;> rfl

omit [DecidableEq Agent] in
theorem view_setHash (hash : Option (BatchHash Agent)) :
    ({ state with redis := state.redis.setHash batch hash }).view batch =
      { state.view batch with hash := hash } := by
  simp only [State.view, Redis.setHash, Function.update_self]
  rfl

omit [DecidableEq Agent] in
theorem view_setHash_of_ne (hash : Option (BatchHash Agent)) (different : other ≠ batch) :
    ({ state with redis := state.redis.setHash batch hash }).view other = state.view other := by
  simp only [State.view, Redis.setHash, Function.update_of_ne different]
  rfl

omit [DecidableEq Agent] in
theorem view_land (job : Nat) (lands : Bool) : (state.land batch job lands).view batch =
    { state.view batch with
      landed := if lands then Function.update (state.view batch).landed job true
        else (state.view batch).landed } := by
  cases lands <;> simp [State.view, State.land]

omit [DecidableEq Agent] in
theorem view_land_of_ne (job : Nat) (lands : Bool) (different : other ≠ batch) :
    (state.land batch job lands).view other = state.view other := by
  cases lands <;> simp [State.view, State.land, Function.update_of_ne different]

omit [DecidableEq Agent] in
theorem view_send (event : Event Agent) : (state.send batch event).view batch =
    { state.view batch with sent := (state.view batch).sent ++ [event] } := by
  simp only [State.view, State.send, Function.update_self]
  rfl

omit [DecidableEq Agent] in
theorem view_send_of_ne (event : Event Agent) (different : other ≠ batch) :
    (state.send batch event).view other = state.view other := by
  simp only [State.view, State.send, Function.update_of_ne different]
  rfl

omit [DecidableEq Agent] in
theorem view_setWorker (job items : Nat) (other : Batch) :
    (state.setWorker batch job items).view other = state.view other := rfl

end Views

omit [DecidableEq Agent] in
theorem View.promote_rest (view : View Agent Proposal) :
    view.promote.call = view.call ∧ view.promote.applied = view.applied ∧ view.promote.sent = view.sent ∧
      view.promote.landed = view.landed ∧ (view.hash = none → view.promote.hash = none) ∧
      (view.held = false → view.promote.held = false) := by
  unfold View.promote
  split
  · exact ⟨rfl, rfl, rfl, rfl, id, id⟩
  · rename_i present
    split
    · exact ⟨rfl, rfl, rfl, rfl, id, id⟩
    · refine ⟨rfl, rfl, rfl, rfl, ?_, fun _ => rfl⟩
      intro absent
      cases present.symm.trans absent

theorem View.post_call (view : View Agent Proposal) (event : Event Agent) :
    (view.post event).call = view.call := by
  have counting : ∀ hash, (view.countOnce hash event).call = view.call := by
    intro hash
    unfold View.countOnce
    split <;> rfl
  unfold View.post
  split
  · rfl
  · split
    · split
      · rw [(View.promote_rest _).1, counting]
      · rw [counting]
    · rfl

/-! ## The two ways a batch can change -/

/-- What a step of the batch itself does. -/
inductive Moves (view : View Agent Proposal) : Action Batch Agent Proposal → View Agent Proposal → Prop where
  | start (batch : Batch) (groups : Groups Agent Proposal) (fresh : view.call = none) :
      Moves view (.start batch groups) { view with call := some ⟨groups, .seeding⟩ }
  | seed (batch : Batch) (fate : Fate) (groups : Groups Agent Proposal)
      (at_ : view.call = some ⟨groups, .seeding⟩) :
      Moves view (.seed batch fate) { view with
        hash := if fate.applied then some (initFields groups) else view.hash
        call := some ⟨groups, if fate.answered then .claiming else .unclaimed⟩ }
  | won (batch : Batch) (fate : Fate) (groups : Groups Agent Proposal)
      (at_ : view.call = some ⟨groups, .claiming⟩) :
      Moves view (.claim batch fate) { view with held := true, call := some ⟨groups, advance groups []⟩ }
  | lost (batch : Batch) (fate : Fate) (groups : Groups Agent Proposal)
      (at_ : view.call = some ⟨groups, .claiming⟩) (held : Bool) :
      Moves view (.claim batch fate) { view with held := held, call := some ⟨groups, .dropping⟩ }
  | drop (batch : Batch) (fate : Fate) (groups : Groups Agent Proposal)
      (at_ : view.call = some ⟨groups, .dropping⟩) :
      Moves view (.drop batch fate) { view with
        hash := if fate.applied then none else view.hash
        call := some ⟨groups, .unclaimed⟩ }
  | enqueue (batch : Batch) (outcome : EnqueueOutcome) (groups : Groups Agent Proposal) (returned : List Bool)
      (at_ : view.call = some ⟨groups, .enqueuing returned⟩) :
      Moves view (.enqueue batch outcome) { view with
        landed := if outcome.lands then Function.update view.landed returned.length true else view.landed
        call := some ⟨groups, afterEnqueue groups returned outcome⟩ }
  | settle (batch : Batch) (fate : Fate) (groups : Groups Agent Proposal) (returned : List Bool)
      (at_ : view.call = some ⟨groups, .settling returned⟩) :
      Moves view (.settle batch fate) { view with
        hash := if fate.applied then view.hash.map fun hash =>
            reconcileUndispatched hash (enqueueResult groups.pending returned)
          else view.hash
        call := some ⟨groups, if fate.answered then .finishing returned else .exited returned fate.applied⟩ }
  | release (batch : Batch) (fate : Fate) (groups : Groups Agent Proposal) (returned : List Bool)
      (at_ : view.call = some ⟨groups, .finishing returned⟩) (empty : returned.count true = 0) :
      Moves view (.finish batch fate) { view with held := false, call := some ⟨groups, .exited returned true⟩ }
  | promote (batch : Batch) (fate : Fate) (groups : Groups Agent Proposal) (returned : List Bool)
      (at_ : view.call = some ⟨groups, .finishing returned⟩) :
      Moves view (.finish batch fate) { view.promote with call := some ⟨groups, .exited returned true⟩ }
  | unfinished (batch : Batch) (fate : Fate) (groups : Groups Agent Proposal) (returned : List Bool)
      (at_ : view.call = some ⟨groups, .finishing returned⟩) :
      Moves view (.finish batch fate) { view with call := some ⟨groups, .exited returned true⟩ }
  | report (batch : Batch) (call : Call Agent Proposal) (chunk : PendingChunk Agent Proposal) (job item : Nat)
      (terminal : TerminalStep) (at_ : view.call = some call) (landed : view.landed job = true)
      (planned : call.groups.pending[job]? = some chunk) (left : item < chunk.chunk.length) :
      Moves view (.report batch job terminal) { view with sent := view.sent ++ [nextEvent chunk job item terminal] }
  | replay (batch : Batch) (job : Nat) : Moves view (.replay batch job) view
  | deliver (batch : Batch) (event : Event Agent) (sent : event ∈ view.sent) :
      Moves view (.deliver batch event) (view.post event)

/-- What a step of another batch does. -/
inductive Touched (view : View Agent Proposal) : View Agent Proposal → Prop where
  | untouched : Touched view view
  | surrendered (stale : view.Stale) : Touched view { view with held := false }
  | promoted (stale : view.Stale) : Touched view view.promote

omit [DecidableEq Agent] in
theorem Touched.call {view after : View Agent Proposal} (touched : Touched view after) :
    after.call = view.call := by
  cases touched with
  | untouched | surrendered => rfl
  | promoted => exact view.promote_rest.1

section Step

variable {state next : State Batch Agent Proposal} {batch other : Batch}

-- The views after a step: one batch moved, the others were at most touched.
def Views (state next : State Batch Agent Proposal) (batch : Batch) (action : Action Batch Agent Proposal) :
    Prop :=
  Moves (state.view batch) action (next.view batch) ∧
    ∀ other, other ≠ batch → Touched (state.view other) (next.view other)

theorem Views.alone {action : Action Batch Agent Proposal}
    (moves : Moves (state.view batch) action (next.view batch))
    (others : ∀ other, other ≠ batch → next.view other = state.view other) : Views state next batch action :=
  ⟨moves, fun other different => others other different ▸ .untouched⟩

theorem claim_views {groups : Groups Agent Proposal} {fate : Fate} (call : state.call batch = some ⟨groups, .claiming⟩)
    (free : state.redis.sentinel ≠ some batch) (taken : step state (.claim batch fate) = some next) :
    Views state next batch (.claim batch fate) := by
  simp only [step, call, Option.some.injEq] at taken
  subst taken
  refine ⟨?_, fun other different => ?_⟩
  · rw [view_goto, view_perform, view_claim state free]
    cases fate with
    | replied =>
        by_cases refused : (claimDispatch state.redis batch).1 = .refused
        · simpa [refused, Fate.applied] using Moves.lost batch .replied groups call (state.view batch).held
        · simpa [refused, Fate.applied, Fate.answered] using Moves.won batch .replied groups call
    | raisedAfter =>
        simp only [Fate.applied, Fate.answered, if_true, Bool.false_and, Bool.false_eq_true, if_false]
        split
        · exact .lost batch _ groups call (state.view batch).held
        · exact .lost batch _ groups call true
    | raisedBefore => exact .lost batch _ groups call (state.view batch).held
  · rw [view_goto_of_ne _ _ _ different, view_perform]
    split
    · rcases view_claim_of_ne state different with unchanged | ⟨stale, lost | promoted⟩
      · exact unchanged ▸ .untouched
      · exact lost ▸ .surrendered stale
      · exact promoted ▸ .promoted stale
    · exact .untouched

theorem finish_views {groups : Groups Agent Proposal} {returned : List Bool} {fate : Fate}
    (call : state.call batch = some ⟨groups, .finishing returned⟩)
    (taken : step state (.finish batch fate) = some next) : Views state next batch (.finish batch fate) := by
  simp only [step, call, Option.some.injEq] at taken
  subst taken
  refine .alone ?_ fun other different => ?_
  · rw [view_goto, view_perform]
    simp only [finishEffect]
    split
    · split
      · rename_i empty
        rw [view_release]
        exact .release batch fate groups returned call empty
      · rw [view_promote]
        exact .promote batch fate groups returned call
    · exact .unfinished batch fate groups returned call
  · rw [view_goto_of_ne _ _ _ different, view_perform]
    simp only [finishEffect]
    split
    · split
      · exact view_release_of_ne state different
      · exact view_promote_of_ne state different
    · rfl

theorem report_views {job : Nat} {terminal : TerminalStep}
    (taken : step state (.report batch job terminal) = some next) :
    Views state next batch (.report batch job terminal) := by
  simp only [step] at taken
  split at taken
  · rename_i call there
    split at taken
    · rename_i chunk planned
      split at taken
      · rename_i ready
        cases taken
        refine .alone ?_ fun other different => ?_
        · rw [view_setWorker, view_send]
          exact .report batch call chunk job _ terminal there ready.1 planned ready.2
        · rw [view_setWorker, view_send_of_ne _ _ different]
      · cases taken
    · cases taken
  · cases taken

-- A transaction of the call that writes the hash of its batch.
theorem write_views {action : Action Batch Agent Proposal} {groups : Groups Agent Proposal} {pc : Pc} {fate : Fate}
    {effect : Redis Batch Agent → Redis Batch Agent} {hash : Option (BatchHash Agent)}
    (writes : effect state.redis = state.redis.setHash batch hash)
    (moves : Moves (state.view batch) action { state.view batch with
      hash := if fate.applied then hash else (state.view batch).hash
      call := some ⟨groups, pc⟩ }) : Views state ((state.perform fate effect).goto batch groups pc) batch action := by
  refine .alone ?_ fun other different => ?_
  · rw [view_goto, view_perform, writes, view_setHash]
    cases fate <;> exact moves
  · rw [view_goto_of_ne _ _ _ different, view_perform, writes, view_setHash_of_ne _ _ different, ite_self]

theorem start_views {groups : Groups Agent Proposal} (taken : step state (.start batch groups) = some next) :
    Views state next batch (.start batch groups) := by
  simp only [step] at taken
  split at taken
  · rename_i fresh
    cases taken
    refine .alone ?_ fun other different => view_goto_of_ne _ _ _ different
    rw [view_goto]
    exact .start batch groups (Option.isNone_iff_eq_none.mp fresh.1)
  · cases taken

theorem seed_views {fate : Fate} (taken : step state (.seed batch fate) = some next) :
    Views state next batch (.seed batch fate) := by
  simp only [step] at taken
  split at taken
  · rename_i groups call
    cases taken
    exact write_views rfl (.seed batch fate groups call)
  · cases taken

theorem drop_views {fate : Fate} (taken : step state (.drop batch fate) = some next) :
    Views state next batch (.drop batch fate) := by
  simp only [step] at taken
  split at taken
  · rename_i groups call
    cases taken
    exact write_views rfl (.drop batch fate groups call)
  · cases taken

theorem settle_views {fate : Fate} (taken : step state (.settle batch fate) = some next) :
    Views state next batch (.settle batch fate) := by
  simp only [step] at taken
  split at taken
  · rename_i groups returned call
    cases taken
    exact write_views rfl (.settle batch fate groups returned call)
  · cases taken

theorem enqueue_views {outcome : EnqueueOutcome} (taken : step state (.enqueue batch outcome) = some next) :
    Views state next batch (.enqueue batch outcome) := by
  simp only [step] at taken
  split at taken
  · rename_i groups returned call
    cases taken
    refine .alone ?_ fun other different => ?_
    · rw [view_goto, view_land]
      exact .enqueue batch outcome groups returned call
    · rw [view_goto_of_ne _ _ _ different, view_land_of_ne _ _ _ different]
  · cases taken

theorem deliver_views {event : Event Agent} (taken : step state (.deliver batch event) = some next) :
    Views state next batch (.deliver batch event) := by
  simp only [step] at taken
  split at taken
  · rename_i sent
    cases taken
    refine .alone ?_ fun other different => view_post_of_ne state event different
    rw [view_post]
    exact .deliver batch event sent
  · cases taken

-- Everything a step can do. A batch that is about to claim must not hold the sentinel yet.
theorem step_views {action : Action Batch Agent Proposal}
    (free : ∀ batch groups, state.call batch = some ⟨groups, .claiming⟩ → state.redis.sentinel ≠ some batch)
    (taken : step state action = some next) : Views state next action.batch action := by
  cases action with
  | start batch groups => exact start_views taken
  | seed batch fate => exact seed_views taken
  | claim batch fate =>
      cases call : state.call batch with
      | none => simp [step, call] at taken
      | some there =>
          obtain ⟨groups, pc⟩ := there
          cases pc with
          | claiming => exact claim_views call (free batch groups call) taken
          | _ => simp [step, call] at taken
  | drop batch fate => exact drop_views taken
  | enqueue batch outcome => exact enqueue_views taken
  | settle batch fate => exact settle_views taken
  | finish batch fate =>
      cases call : state.call batch with
      | none => simp [step, call] at taken
      | some there =>
          obtain ⟨groups, pc⟩ := there
          cases pc with
          | finishing returned => exact finish_views call taken
          | _ => simp [step, call] at taken
  | report batch job terminal => exact report_views taken
  | replay batch job =>
      simp only [step] at taken
      split at taken
      · cases taken
        exact .alone (.replay batch job) fun _ _ => rfl
      · cases taken
  | deliver batch event => exact deliver_views taken

end Step

end Phaze.Dispatch
