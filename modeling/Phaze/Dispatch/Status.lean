import Phaze.Dispatch.Exclusion

set_option autoImplicit false

/-!
# The status of a batch

A script that promotes decides the status from the failures counted so far. An event that is not
terminal counts without deciding again, so a failure that is heard after the promotion leaves
`complete` standing.
-/

namespace Phaze.Dispatch

variable {Batch Agent Proposal : Type} [DecidableEq Batch] [DecidableEq Agent]

@[simp] theorem gain_failed (event : Event Agent) :
    gain event .failed = match event.step with | .failed _ => 1 | _ => 0 := by
  obtain ⟨job, item, agent, step, terminal⟩ := event
  cases step with
  | failed failedAtStep => cases failedAtStep <;> cases terminal <;> rfl
  | _ => cases terminal <;> rfl

theorem undispatched_eq_zero {pending : List (PendingChunk Agent Proposal)} {returned : List Bool}
    (every : false ∉ returned) :
    (enqueueResult pending returned).totalUndispatched = 0 ∧
      ∀ agent, (enqueueResult pending returned).undispatchedByAgent agent = 0 := by
  have flags : ∀ entry ∈ pending.zip returned, entry.2 ≠ false :=
    fun entry found failed => every (failed ▸ (List.of_mem_zip found).2)
  constructor
  · refine List.sum_eq_zero fun size member => ?_
    obtain ⟨entry, found, rfl⟩ := List.mem_map.mp member
    exact if_neg (flags entry found)
  · refine fun agent => List.sum_eq_zero fun size member => ?_
    obtain ⟨entry, found, rfl⟩ := List.mem_map.mp member
    exact if_neg fun both => flags entry found both.1

section Views

variable {view after : View Agent Proposal} {groups : Groups Agent Proposal}

def View.Honest (view : View Agent Proposal) : Prop :=
  ∀ hash, view.hash = some hash → hash.status = .complete → hash.counter .failed = 0

/-- A failure, heard for the first time, of a proposal that is not the last of its sub-job, when
the batch is complete already. -/
def View.Late (view : View Agent Proposal) (event : Event Agent) : Prop :=
  ∃ hash, view.hash = some hash ∧ hash.status = .complete ∧
    event.request ∉ view.applied.map Event.request ∧ event.subBatchTerminal = false ∧
    ∃ failedAtStep, event.step = .failed failedAtStep

theorem Valid.promote_honest (valid : Valid view) : view.promote.Honest := by
  intro hash present ended
  cases before : view.hash with
  | none =>
      rw [view.promote_rest.2.2.2.2.1 before] at present
      cases present
  | some earlier =>
      obtain ⟨_, _, _, _, _, _, counted⟩ := valid.counted before
      by_cases short : earlier.counter .subjobsCompleted < earlier.counter .subjobsExpected
      · simp only [View.promote, before, short, if_true] at present
        obtain rfl : earlier = hash := Option.some.inj present
        exact absurd (counted.terminal (by simp [ended])) (Nat.not_le.mpr short)
      · simp only [View.promote, before, short, if_false, Option.some.injEq] at present
        subst present
        by_contra failures
        simp [failures] at ended

theorem View.Honest.countOnce {hash : BatchHash Agent} (honest : view.Honest) (present : view.hash = some hash)
    {event : Event Agent} (timely : ¬ view.Late event) (more : event.subBatchTerminal = false) :
    (view.countOnce hash event).Honest := by
  by_cases duplicate : event.request ∈ view.applied.map Event.request
  · rw [View.countOnce, if_pos duplicate]
    exact honest
  · rw [View.countOnce, if_neg duplicate]
    rintro counted ⟨rfl⟩ ended
    rw [(applyAll_rest hash (applyArgs event)).2] at ended
    have grown : (applyAll hash (applyArgs event)).counter .failed = hash.counter .failed + gain event .failed :=
      applyAll_counter hash (applyArgs event) .failed
    rw [grown, honest hash present ended, gain_failed, Nat.zero_add]
    split
    · rename_i failedAtStep step
      exact absurd ⟨hash, present, ended, duplicate, more, failedAtStep, step⟩ timely
    · rfl

theorem Valid.post_honest (valid : Valid view) (honest : view.Honest) {event : Event Agent}
    (sent : event ∈ view.sent) (timely : ¬ view.Late event) : (view.post event).Honest := by
  unfold View.post
  split
  · exact honest
  · rename_i hash present
    split
    · split
      · exact (valid.countOnce present sent).promote_honest
      · rename_i more
        exact honest.countOnce present timely (Bool.not_eq_true _ ▸ more)
    · exact honest

theorem Counted.settle_honest {returned : List Bool} {hash : BatchHash Agent}
    (counted : Counted view groups returned false hash) (all : returned.length = groups.pending.length)
    (honest : view.Honest) :
    (reconcileUndispatched hash (enqueueResult groups.pending returned)).status = .complete →
      (reconcileUndispatched hash (enqueueResult groups.pending returned)).counter .failed = 0 := by
  intro ended
  have complete : hash.status = .complete := by
    unfold reconcileUndispatched at ended
    split at ended
    · cases ended
    · exact ended
  have every : returned.length ≤ returned.count true :=
    calc returned.length
      _ = hash.counter .subjobsExpected := by rw [counted.expected, all]; rfl
      _ ≤ hash.counter .subjobsCompleted := counted.terminal (by simp [complete])
      _ ≤ returned.count true := counted.completed_le
  have landed : ∀ flag ∈ returned, true = flag :=
    List.count_eq_length.mp (Nat.le_antisymm List.count_le_length every)
  have none : false ∉ returned := fun failed => by cases landed false failed
  show hash.counter .failed + (enqueueResult groups.pending returned).totalUndispatched = 0
  rw [honest hash counted.present complete, (undispatched_eq_zero none).1]

theorem Valid.post_late (valid : Valid view) {event : Event Agent} (sent : event ∈ view.sent)
    (late : view.Late event) : ¬ (view.post event).Honest := by
  obtain ⟨hash, present, complete, fresh, more, failedAtStep, step⟩ := late
  obtain ⟨_, _, _, _, _, _, counted⟩ := valid.counted present
  have member := counted.member (counted.events event (.inr sent))
  have counts : (view.post event).hash = some (applyAll hash (applyArgs event)) := by
    simp [View.post, present, member, more, View.countOnce, fresh]
  have failures : (applyAll hash (applyArgs event)).counter .failed = hash.counter .failed + gain event .failed :=
    applyAll_counter hash (applyArgs event) .failed
  simp only [gain_failed, step] at failures
  intro honest
  have none := honest _ counts ((applyAll_rest hash (applyArgs event)).2.trans complete)
  rw [failures] at none
  cases none

omit [DecidableEq Batch] in
theorem Moves.honest {action : Action Batch Agent Proposal} (moves : Moves view action after)
    (valid : Valid view) (honest : view.Honest) (timely : ∀ event, action.heard = some event → ¬ view.Late event) : after.Honest := by
  cases moves with
  | seed batch fate groups at_ =>
      cases fate with
      | replied | raisedAfter =>
          rintro hash ⟨rfl⟩ -
          rfl
      | raisedBefore => exact honest
  | drop batch fate groups at_ =>
      cases fate with
      | replied | raisedAfter =>
          intro hash present
          cases present
      | raisedBefore => exact honest
  | settle batch fate groups returned at_ =>
      simp only [Valid, at_] at valid
      obtain ⟨all, hash, counted, -⟩ := valid
      have settled := counted.settle_honest all honest
      cases fate with
      | replied | raisedAfter =>
          intro after present
          simp only [Fate.applied, if_true, counted.present, Option.map_some, Option.some.injEq] at present
          exact present ▸ settled
      | raisedBefore => exact honest
  | promote batch fate groups returned at_ => exact valid.promote_honest
  | deliver batch event sent => exact valid.post_honest honest sent (timely event rfl)
  | _ => exact honest

theorem Touched.honest (touched : Touched view after) (valid : Valid view) (honest : view.Honest) :
    after.Honest := by
  cases touched with
  | untouched => exact honest
  | surrendered stale => exact honest
  | promoted stale => exact valid.promote_honest

end Views

variable {state next : State Batch Agent Proposal}

/-- A terminal status tells the truth about the counters. -/
def Honest (state : State Batch Agent Proposal) : Prop :=
  ∀ batch hash, state.redis.hash batch = some hash →
    (hash.status = .complete → hash.counter .failed = 0) ∧
    (hash.status = .complete ∨ hash.status = .completeWithErrors →
      hash.counter .subjobsExpected ≤ hash.counter .subjobsCompleted)

-- No step hears of a failure when the batch is complete already, except with a terminal event.
def Timely (state : State Batch Agent Proposal) (action : Action Batch Agent Proposal) : Prop :=
  ∀ event, action.heard = some event → ¬ (state.view action.batch).Late event

theorem honest_iff (inv : Inv state) : Honest state ↔ ∀ batch, (state.view batch).Honest := by
  constructor
  · exact fun honest batch hash present => (honest batch hash present).1
  · intro honest batch hash present
    obtain ⟨_, _, _, _, _, _, counted⟩ := (inv batch).counted present
    refine ⟨honest batch hash present, fun ended => counted.terminal ?_⟩
    rcases ended with ended | ended <;> simp [ended]

theorem step_honest_iff {action : Action Batch Agent Proposal} (inv : Inv state) (honest : Honest state)
    (taken : step state action = some next) : Honest next ↔ Timely state action := by
  rw [honest_iff (step_inv inv taken)]
  rw [honest_iff inv] at honest
  constructor
  · intro after event heard late
    cases action with
    | deliver batch spoken =>
        cases heard
        simp only [step] at taken
        split at taken
        · rename_i sent
          cases taken
          refine (inv batch).post_late sent late ?_
          rw [← view_post]
          exact after batch
        · cases taken
    | _ => cases heard
  · intro timely other
    obtain ⟨moves, touched⟩ := inv.views taken
    by_cases same : other = action.batch
    · subst same
      exact moves.honest (inv _) (honest _) timely
    · exact (touched other same).honest (inv other) (honest other)

-- A run shows only honest states exactly when all of its steps are timely.
theorem status_honest_iff {actions : List (Action Batch Agent Proposal)} {final : State Batch Agent Proposal}
    (ran : run State.initial actions = some final) :
    (∀ earlier later state, actions = earlier ++ later → run State.initial earlier = some state →
      Honest state) ↔
    ∀ earlier action later state, actions = earlier ++ action :: later →
      run State.initial earlier = some state → Timely state action := by
  constructor
  · rintro honest earlier action later state rfl here
    have inv := reachable_inv (steps_of_run here)
    rw [run_append, here, Option.bind_some] at ran
    obtain ⟨next, taken, -⟩ := Option.bind_eq_some_iff.mp ran
    have onward : run State.initial (earlier ++ [action]) = some next := by
      rw [run_append, here, Option.bind_some, run, taken]
      rfl
    refine (step_honest_iff inv (honest earlier (action :: later) state rfl here) taken).mp ?_
    exact honest (earlier ++ [action]) later next (by simp) onward
  · intro timely earlier
    -- the actions taken so far, the last one first
    induction earlier using List.reverseRecOn with
    | nil =>
        rintro later state - ⟨rfl⟩ batch hash present
        cases present
    | append_singleton earlier action ih =>
        rintro later next split ran
        rw [run_append] at ran
        obtain ⟨state, here, after⟩ := Option.bind_eq_some_iff.mp ran
        obtain ⟨reached, taken, rfl⟩ : ∃ reached, step state action = some reached ∧ reached = next := by
          simpa [run, Option.bind_eq_some_iff] using after
        have inv := reachable_inv (steps_of_run here)
        have before := ih (action :: later) state (by simp [split]) here
        exact (step_honest_iff inv before taken).mpr (timely earlier action later state (by simp [split]) here)

namespace Overtaken

def groups : Groups Nat Nat := .single 0 [10, 11]

-- The first proposal fails; its event arrives after the event of the second one.
def actions : List (Action Nat Nat Nat) :=
  [ .start 1 groups, .seed 1 .replied, .claim 1 .replied, .enqueue 1 .landed,
    .report 1 0 (.failed .copy), .report 1 0 .deleted,
    .deliver 1 ⟨0, 1, 0, .deleted, true⟩, .deliver 1 ⟨0, 0, 0, .failed .copy, false⟩ ]

theorem ran : (run State.initial actions).isSome = true := by decide

def final : State Nat Nat Nat := (run State.initial actions).get ran

theorem reached : Reachable final := steps_of_run (Option.some_get ran).symm

end Overtaken

theorem status_stale : ¬ ∀ state : State Nat Nat Nat, Reachable state → Honest state := by
  intro honest
  have shows : (Overtaken.final.redis.hash 1).map (fun hash => (hash.status, hash.counter .failed)) =
      some (.complete, 1) := by decide
  obtain ⟨hash, present, values⟩ := Option.map_eq_some_iff.mp shows
  obtain ⟨complete, failures⟩ := Prod.mk.inj values
  have none := (honest _ Overtaken.reached 1 hash present).1 complete
  omega

namespace InOrder

def actions : List (Action Nat Nat Nat) :=
  [ .start 1 Overtaken.groups, .seed 1 .replied, .claim 1 .replied, .enqueue 1 .landed,
    .report 1 0 (.failed .copy), .report 1 0 .deleted,
    .deliver 1 ⟨0, 0, 0, .failed .copy, false⟩, .deliver 1 ⟨0, 1, 0, .deleted, true⟩ ]

theorem ran : (run State.initial actions).isSome = true := by decide

def final : State Nat Nat Nat := (run State.initial actions).get ran

theorem timely {earlier later : List (Action Nat Nat Nat)} {action : Action Nat Nat Nat}
    {state : State Nat Nat Nat} (split : actions = earlier ++ action :: later)
    (here : run State.initial earlier = some state) : Timely state action := by
  have fine : ∀ k < 8, ∀ action ∈ actions[k]?, ∀ event ∈ action.heard, action.batch = 1 ∧
      (event.subBatchTerminal = true ∨
        (run State.initial (actions.take k)).bind (fun state => (state.redis.hash 1).map BatchHash.status) =
          some .running) := by decide
  have short : earlier.length < 8 := by
    have size : actions.length = 8 := rfl
    rw [split] at size
    simp at size
    omega
  have cut : actions.take earlier.length = earlier := by simp [split]
  have found : actions[earlier.length]? = some action := by simp [split]
  rintro event heard ⟨hash, present, complete, -, more, -⟩
  obtain ⟨batch, terminal | running⟩ := fine _ short action found event heard
  · rw [terminal] at more
    cases more
  · rw [cut, here] at running
    rw [batch] at present
    simp [show state.redis.hash 1 = some hash from present, complete] at running

end InOrder

theorem status_honest_inOrder : Honest InOrder.final :=
  (status_honest_iff (Option.some_get InOrder.ran).symm).mpr
    (fun _ _ _ _ split here => InOrder.timely split here) InOrder.actions [] InOrder.final (by simp)
    (Option.some_get InOrder.ran).symm

end Phaze.Dispatch
