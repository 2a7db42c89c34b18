import Phaze.Dispatch.Status

set_option autoImplicit false

/-!
# How a dispatch exits

A call that claimed the sentinel lowers the target to the chunks that may be on the broker and
counts the others as failed, on the way out of a loop that was interrupted and after one that was
not. Only the first of the two is shielded: the other transaction can be cancelled before the
server ran it.
-/

namespace Phaze.Dispatch

variable {Batch Agent Proposal : Type} [DecidableEq Batch] [DecidableEq Agent]

/-! ## What a run tried -/

section History

variable {state next : State Batch Agent Proposal} {batch : Batch}
  {actions : List (Action Batch Agent Proposal)} {action : Action Batch Agent Proposal}

def attempts (batch : Batch) (actions : List (Action Batch Agent Proposal)) : List EnqueueOutcome :=
  actions.filterMap fun
    | .enqueue of outcome => if of = batch then some outcome else none
    | _ => none

-- The settling transaction raised before the server ran it.
def settleLost (batch : Batch) (actions : List (Action Batch Agent Proposal)) : Bool :=
  actions.any fun
    | .settle of .raisedBefore => of = batch
    | _ => false

def EnqueueOutcome.mayHaveLanded : EnqueueOutcome → Bool
  | .failed => false
  | _ => true

-- For each chunk of the plan whether it may be on the broker; a chunk that was never attempted is
-- not.
def mayHaveLanded (groups : Groups Agent Proposal) (outcomes : List EnqueueOutcome) : List Bool :=
  outcomes.map EnqueueOutcome.mayHaveLanded ++ List.replicate (groups.pending.length - outcomes.length) false

omit [DecidableEq Agent] in
theorem attempts_append (later : List (Action Batch Agent Proposal)) :
    attempts batch (actions ++ later) = attempts batch actions ++ attempts batch later :=
  List.filterMap_append

omit [DecidableEq Agent] in
theorem settleLost_append (later : List (Action Batch Agent Proposal)) :
    settleLost batch (actions ++ later) = (settleLost batch actions || settleLost batch later) :=
  List.any_append

omit [DecidableEq Agent] in
theorem history_of_ne (different : batch ≠ action.batch) :
    attempts batch [action] = [] ∧ settleLost batch [action] = false := by
  cases action with
  | enqueue of outcome =>
      have other : of ≠ batch := fun same => different same.symm
      simp [attempts, settleLost, other]
  | settle of fate =>
      have other : of ≠ batch := fun same => different same.symm
      cases fate <;> simp [attempts, settleLost, other]
  | _ => simp [attempts, settleLost]

def Recorded (outcomes : List EnqueueOutcome) (lost : Bool) : Option (Call Agent Proposal) → Prop
  | some ⟨_, .enqueuing returned⟩ => returned = outcomes.map EnqueueOutcome.mayHaveLanded ∧ lost = false
  | some ⟨groups, .settling returned⟩ => returned = mayHaveLanded groups outcomes ∧ lost = false
  | some ⟨groups, .finishing returned⟩ => returned = mayHaveLanded groups outcomes ∧ lost = false
  | some ⟨groups, .exited returned settled⟩ =>
      returned = mayHaveLanded groups outcomes ∧
        (settled = true ∧ lost = false ∨
          settled = false ∧ (lost = true ∨ (enqueueResult groups.pending returned).totalUndispatched = 0))
  | _ => outcomes = [] ∧ lost = false

theorem recorded_advance {groups : Groups Agent Proposal} {outcomes : List EnqueueOutcome}
    (within : outcomes.length ≤ groups.pending.length) :
    Recorded outcomes false (some ⟨groups, advance groups (outcomes.map EnqueueOutcome.mayHaveLanded)⟩) := by
  unfold advance
  split
  · exact ⟨rfl, rfl⟩
  · rename_i full
    have all : mayHaveLanded groups outcomes = outcomes.map EnqueueOutcome.mayHaveLanded := by
      have none : groups.pending.length - outcomes.length = 0 := by
        rw [List.length_map] at full
        omega
      simp [mayHaveLanded, none]
    split
    · rename_i nothing
      exact ⟨all.symm, .inr ⟨rfl, .inr nothing⟩⟩
    · exact ⟨all.symm, rfl⟩

theorem recorded_enqueue {groups : Groups Agent Proposal} {outcomes : List EnqueueOutcome}
    (short : outcomes.length < groups.pending.length) (outcome : EnqueueOutcome) :
    Recorded (outcomes ++ [outcome]) false
      (some ⟨groups, afterEnqueue groups (outcomes.map EnqueueOutcome.mayHaveLanded) outcome⟩) := by
  have within : (outcomes ++ [outcome]).length ≤ groups.pending.length := by
    rw [List.length_append]
    exact short
  have advanced := recorded_advance within
  rw [List.map_append] at advanced
  cases outcome with
  | landed | failed | ambiguous there => exact advanced
  | interrupted there =>
      refine ⟨?_, rfl⟩
      simp only [mayHaveLanded, List.map_append, List.map_cons, List.map_nil, List.length_append,
        List.length_cons, List.length_nil, List.length_map, List.append_assoc, List.singleton_append]
      rw [Nat.sub_sub]
      rfl

theorem Moves.recorded {view after : View Agent Proposal} {outcomes : List EnqueueOutcome} {lost : Bool}
    (moves : Moves view action after) (valid : Valid view) (recorded : Recorded outcomes lost view.call) :
    Recorded (outcomes ++ attempts action.batch [action]) (lost || settleLost action.batch [action])
      after.call := by
  cases moves with
  | start of groups fresh =>
      rw [fresh] at recorded
      simpa [Recorded, attempts, settleLost] using recorded
  | seed of fate groups at_ =>
      rw [at_] at recorded
      cases fate <;> simpa [Recorded, attempts, settleLost, Fate.answered] using recorded
  | won of fate groups at_ =>
      rw [at_] at recorded
      obtain ⟨rfl, rfl⟩ := recorded
      exact recorded_advance (Nat.zero_le _)
  | lost of fate groups at_ held =>
      rw [at_] at recorded
      simpa [Recorded, attempts, settleLost] using recorded
  | drop of fate groups at_ =>
      rw [at_] at recorded
      simpa [Recorded, attempts, settleLost] using recorded
  | enqueue of outcome groups returned at_ =>
      rw [at_] at recorded
      obtain ⟨rfl, rfl⟩ := recorded
      simp only [Valid, at_, List.length_map] at valid
      simpa [attempts, settleLost, Action.batch] using recorded_enqueue valid.1 outcome
  | settle of fate groups returned at_ =>
      rw [at_] at recorded
      obtain ⟨same, rfl⟩ := recorded
      cases fate <;> simp [Recorded, attempts, settleLost, Fate.answered, Fate.applied, Action.batch, same]
  | release of fate groups returned at_ | promote of fate groups returned at_
  | unfinished of fate groups returned at_ =>
      rw [at_] at recorded
      obtain ⟨same, rfl⟩ := recorded
      exact ⟨by simpa [attempts] using same, .inl ⟨rfl, rfl⟩⟩
  | report of call chunk job item terminal at_ landed planned left =>
      simpa [attempts, settleLost] using recorded
  | replay of job => simpa [attempts, settleLost] using recorded
  | deliver of event sent =>
      rw [View.post_call]
      simpa [attempts, settleLost] using recorded

theorem run_recorded (batch : Batch) (ran : run State.initial actions = some state) :
    Recorded (attempts batch actions) (settleLost batch actions) (state.call batch) := by
  induction actions using List.reverseRecOn generalizing state with
  | nil =>
      cases ran
      exact ⟨rfl, rfl⟩
  | append_singleton earlier action ih =>
      rw [run_append] at ran
      obtain ⟨before, here, after⟩ := Option.bind_eq_some_iff.mp ran
      obtain ⟨reached, taken, rfl⟩ : ∃ reached, step before action = some reached ∧ reached = state := by
        simpa [run, Option.bind_eq_some_iff] using after
      have inv := reachable_inv (steps_of_run here)
      obtain ⟨moves, touched⟩ := inv.views taken
      rw [attempts_append, settleLost_append]
      by_cases mine : batch = action.batch
      · subst mine
        exact moves.recorded (inv _) (ih here)
      · obtain ⟨none, kept⟩ := history_of_ne mine
        have same : reached.call batch = before.call batch := (touched batch mine).call
        rw [none, kept, same, List.append_nil, Bool.or_false]
        exact ih here

end History

/-! ## The target and the failures at the exit -/

section Exit

variable {state : State Batch Agent Proposal} {batch : Batch} {groups : Groups Agent Proposal}
  {actions : List (Action Batch Agent Proposal)}

/-- The target is the number of chunks that may be on the broker, the proposals of the other chunks
are counted as failures once, and the target is reached when every such chunk reports. -/
def Accounted (state : State Batch Agent Proposal) (batch : Batch) (groups : Groups Agent Proposal)
    (outcomes : List EnqueueOutcome) : Prop :=
  ∃ hash, state.redis.hash batch = some hash ∧
    hash.counter .subjobsExpected = outcomes.countP EnqueueOutcome.mayHaveLanded ∧
    hash.counter .failed = gains (state.redis.applied batch) .failed +
      (enqueueResult groups.pending (mayHaveLanded groups outcomes)).totalUndispatched ∧
    (∀ agent, hash.counter (.agentFailed agent) = gains (state.redis.applied batch) (.agentFailed agent) +
      (enqueueResult groups.pending (mayHaveLanded groups outcomes)).undispatchedByAgent agent) ∧
    ((∀ job, (mayHaveLanded groups outcomes)[job]? = some true → Delivered state batch job) →
      hash.counter .subjobsExpected ≤ hash.counter .subjobsCompleted)

omit [DecidableEq Agent] in
theorem count_mayHaveLanded (groups : Groups Agent Proposal) (outcomes : List EnqueueOutcome) :
    (mayHaveLanded groups outcomes).count true = outcomes.countP EnqueueOutcome.mayHaveLanded := by
  rw [mayHaveLanded, List.count_append, List.count_replicate]
  simp [List.count, List.countP_map, Function.comp_def]

theorem landed_of_undispatched_eq_zero {returned : List Bool} (all : returned.length = groups.pending.length)
    (nothing : (enqueueResult groups.pending returned).totalUndispatched = 0) : false ∉ returned := by
  intro failed
  obtain ⟨job, inside, found⟩ := List.getElem_of_mem failed
  have planned : job < groups.pending.length := all ▸ inside
  have entry : (groups.pending[job], false) ∈ groups.pending.zip returned := by
    rw [← found, ← List.getElem_zip (h := by simp [inside, planned])]
    exact List.getElem_mem _
  have size : groups.pending[job].chunk.length ≤ (enqueueResult groups.pending returned).totalUndispatched :=
    List.single_le_sum (fun _ _ => Nat.zero_le _) _ (List.mem_map.mpr ⟨_, entry, rfl⟩)
  rw [nothing, Nat.le_zero, List.length_eq_zero_iff] at size
  exact chunk_ne_nil_of_pending (List.getElem_mem planned) size

variable {view : View Agent Proposal} {returned : List Bool} {settled : Bool} {hash : BatchHash Agent}

theorem baseHash_counter (all : returned.length = groups.pending.length)
    (fine : settled = true ∨ false ∉ returned) :
    (baseHash groups returned settled).counter = (baseHash groups returned true).counter := by
  cases settled with
  | true => rfl
  | false =>
      have every : false ∉ returned := fine.resolve_left Bool.false_ne_true
      have landed : returned.count true = returned.length := by
        refine List.count_eq_length.mpr fun flag member => ?_
        cases flag with
        | false => exact absurd member every
        | true => rfl
      obtain ⟨total, byAgent⟩ := @undispatched_eq_zero Agent Proposal _ groups.pending returned every
      funext field
      cases field with
      | subjobsExpected => exact all.symm.trans landed.symm
      | failed => exact (congrArg (0 + ·) total).symm
      | agentFailed agent => exact (congrArg (0 + ·) (byAgent agent)).symm
      | _ => rfl

theorem Counted.accounts (counted : Counted view groups returned settled hash)
    (all : returned.length = groups.pending.length) (fine : settled = true ∨ false ∉ returned) :
    hash.counter .subjobsExpected = returned.count true ∧
    hash.counter .failed = gains view.applied .failed +
      (enqueueResult groups.pending returned).totalUndispatched ∧
    ∀ agent, hash.counter (.agentFailed agent) = gains view.applied (.agentFailed agent) +
      (enqueueResult groups.pending returned).undispatchedByAgent agent := by
  have counter : ∀ field, hash.counter field =
      (baseHash groups returned true).counter field + gains view.applied field := by
    rw [← baseHash_counter all fine]
    exact counted.counter
  refine ⟨?_, ?_, fun agent => ?_⟩
  · rw [counter, gains_subjobsExpected]
    rfl
  · rw [counter, Nat.add_comm]
    exact congrArg _ (Nat.zero_add _)
  · rw [counter, Nat.add_comm]
    exact congrArg _ (Nat.zero_add _)

theorem Counted.expected_gt (counted : Counted view groups returned false hash)
    (all : returned.length = groups.pending.length) (missing : false ∈ returned) :
    returned.count true < hash.counter .subjobsExpected := by
  rw [counted.expected, if_neg Bool.false_ne_true, ← all]
  refine lt_of_le_of_ne List.count_le_length fun same => ?_
  cases List.count_eq_length.mp same false missing

theorem exit_accounted_iff (ran : run State.initial actions = some state)
    (exited : state.call batch = some ⟨groups, .exited returned settled⟩) :
    Accounted state batch groups (attempts batch actions) ↔
      settleLost batch actions = false ∨ false ∉ mayHaveLanded groups (attempts batch actions) := by
  have recorded := run_recorded batch ran
  rw [exited] at recorded
  obtain ⟨rfl, history⟩ := recorded
  have valid := reachable_inv (steps_of_run ran) batch
  simp only [Valid, show (state.view batch).call = _ from exited] at valid
  obtain ⟨all, hash, counted, -⟩ := valid
  constructor
  · rintro ⟨found, present, expected, -⟩
    obtain rfl : hash = found := Option.some.inj (counted.present.symm.trans present)
    by_contra both
    obtain ⟨lost, missing⟩ := not_or.mp both
    have missing := not_not.mp missing
    rcases history with ⟨-, kept⟩ | ⟨rfl, -⟩
    · exact lost kept
    · have above := counted.expected_gt all missing
      rw [expected, count_mayHaveLanded] at above
      exact lt_irrefl _ above
  · intro fine
    have settledOrAll : settled = true ∨ false ∉ mayHaveLanded groups (attempts batch actions) := by
      rcases history with ⟨done, -⟩ | ⟨-, lost | nothing⟩
      · exact .inl done
      · exact .inr (fine.resolve_left (by simp [lost]))
      · exact .inr (landed_of_undispatched_eq_zero all nothing)
    obtain ⟨expected, failures, byAgent⟩ := counted.accounts all settledOrAll
    refine ⟨hash, counted.present, expected.trans (count_mayHaveLanded _ _), failures, byAgent, fun reported => ?_⟩
    rw [expected, counted.completed_of_reported reported]

end Exit

namespace Cancelled

def groups : Groups Nat Nat := ⟨[(0, [10]), (1, [11]), (2, [12])], by decide⟩

-- One chunk fails; the call is cancelled in the transaction that would say so.
def actions : List (Action Nat Nat Nat) :=
  [ .start 1 groups, .seed 1 .replied, .claim 1 .replied, .enqueue 1 .landed, .enqueue 1 .failed,
    .enqueue 1 .landed, .settle 1 .raisedBefore ]

theorem ran : (run State.initial actions).isSome = true := by decide

def final : State Nat Nat Nat := (run State.initial actions).get ran

theorem exited : final.call 1 = some ⟨groups, .exited [true, false, true] false⟩ := rfl

end Cancelled

theorem exit_unaccounted : ¬ ∀ (actions : List (Action Nat Nat Nat)) (state : State Nat Nat Nat) (batch : Nat)
    (groups : Groups Nat Nat) (returned : List Bool) (settled : Bool),
    run State.initial actions = some state → state.call batch = some ⟨groups, .exited returned settled⟩ →
      Accounted state batch groups (attempts batch actions) := by
  intro accounted
  obtain ⟨hash, present, expected, -⟩ :=
    accounted _ _ 1 _ _ _ (Option.some_get Cancelled.ran).symm Cancelled.exited
  have stands : (Cancelled.final.redis.hash 1).map (fun hash => hash.counter .subjobsExpected) = some 3 := by
    decide
  rw [show Cancelled.final.redis.hash 1 = some hash from present, Option.map_some, expected] at stands
  revert stands
  decide

namespace Interrupted

-- The call is cancelled while the second chunk is in flight; the chunk did land.
def actions : List (Action Nat Nat Nat) :=
  [ .start 1 Cancelled.groups, .seed 1 .replied, .claim 1 .replied, .enqueue 1 .landed,
    .enqueue 1 (.interrupted true), .settle 1 .replied, .finish 1 .replied ]

theorem ran : (run State.initial actions).isSome = true := by decide

def final : State Nat Nat Nat := (run State.initial actions).get ran

theorem exited : final.call 1 = some ⟨Cancelled.groups, .exited [true, true, false] true⟩ := rfl

end Interrupted

theorem exit_accounted_interrupted : Accounted Interrupted.final 1 Cancelled.groups [.landed, .interrupted true] :=
  (exit_accounted_iff (Option.some_get Interrupted.ran).symm Interrupted.exited).mpr (.inl (by decide))

end Phaze.Dispatch
