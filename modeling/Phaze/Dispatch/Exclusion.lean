import Phaze.Dispatch.Invariant
import Phaze.Shared.Slots

set_option autoImplicit false

/-!
# One dispatch at a time

A batch that does not hold the sentinel has heard the last event of every sub-job it really
landed, so the sentinel is passed on only when no file of the batch can still move.
-/

namespace Phaze.Dispatch

open Shared (slots mem_slots length_le_of_slots slots_subset length_eq_of_slots)

variable {Batch Agent Proposal : Type} [DecidableEq Batch] [DecidableEq Agent]

section Terminal

variable {view : View Agent Proposal} {groups : Groups Agent Proposal} {returned : List Bool}
  {settled : Bool} {hash : BatchHash Agent}

-- The sub-jobs whose terminal event was counted, as names of places in one-place rows.
def reporters (applied : List (Event Agent)) : List (Nat × Nat) :=
  (applied.filter Event.subBatchTerminal).map fun event => (event.job, 0)

def expectedRows (returned : List Bool) : List Nat := returned.map fun flag => if flag then 1 else 0

omit [DecidableEq Agent] in
theorem EventOk.terminal_item {landed : Nat → Bool} {one two : Event Agent} (first : EventOk groups landed one)
    (second : EventOk groups landed two) (ends : one.subBatchTerminal = true)
    (also : two.subBatchTerminal = true) (same : one.job = two.job) : one.request = two.request := by
  obtain ⟨chunk, here, -, -, last⟩ := first.chunk
  obtain ⟨again, there, -, -, final⟩ := second.chunk
  obtain rfl : chunk = again := Option.some.inj (here.symm.trans (same ▸ there))
  have one_last : one.item + 1 = chunk.chunk.length := of_decide_eq_true (last.symm.trans ends)
  have two_last : two.item + 1 = chunk.chunk.length := of_decide_eq_true (final.symm.trans also)
  have item : one.item = two.item := by omega
  simp only [Event.request, same, item]

theorem sum_expectedRows (returned : List Bool) : (expectedRows returned).sum = returned.count true := by
  induction returned with
  | nil => rfl
  | cons flag rest ih => cases flag <;> simp_all [expectedRows, Nat.add_comm]

theorem gains_subjobsCompleted (applied : List (Event Agent)) :
    gains applied .subjobsCompleted = (reporters applied).length := by
  induction applied with
  | nil => rfl
  | cons event rest ih =>
      cases terminal : event.subBatchTerminal <;>
        simp_all [gains, reporters, Nat.add_comm]

theorem Counted.completed (counted : Counted view groups returned settled hash) :
    hash.counter .subjobsCompleted = (reporters view.applied).length := by
  rw [counted.counter, gains_subjobsCompleted]
  cases settled <;> exact Nat.zero_add _

theorem Counted.reporters_nodup (counted : Counted view groups returned settled hash) :
    (reporters view.applied).Nodup := by
  refine List.Nodup.map_on ?_ (counted.once.of_map.filter _)
  intro one first two second same
  obtain ⟨one_in, one_ends⟩ := List.mem_filter.mp first
  obtain ⟨two_in, two_ends⟩ := List.mem_filter.mp second
  have request := (counted.events one (.inl one_in)).terminal_item (counted.events two (.inl two_in))
    one_ends two_ends (Prod.mk.inj same).1
  exact List.inj_on_of_nodup_map counted.once one_in two_in request

theorem Counted.reporters_expected (counted : Counted view groups returned settled hash) :
    reporters view.applied ⊆ slots (expectedRows returned) := by
  intro name member
  obtain ⟨event, found, rfl⟩ := List.mem_map.mp member
  have there := (counted.events event (.inl (List.mem_filter.mp found).1)).there
  rw [mem_slots]
  exact ⟨1, by simp [expectedRows, counted.landed event.job there], Nat.zero_lt_one⟩

theorem Counted.completed_le (counted : Counted view groups returned settled hash) :
    hash.counter .subjobsCompleted ≤ returned.count true := by
  rw [counted.completed, ← sum_expectedRows]
  exact length_le_of_slots counted.reporters_nodup counted.reporters_expected

theorem Counted.reported (counted : Counted view groups returned settled hash)
    (within : returned.length ≤ groups.pending.length)
    (reached : hash.counter .subjobsExpected ≤ hash.counter .subjobsCompleted) {job : Nat}
    (landed : returned[job]? = some true) :
    ∃ event ∈ view.applied, event.job = job ∧ event.subBatchTerminal = true := by
  have many : (expectedRows returned).sum ≤ (reporters view.applied).length := by
    rw [sum_expectedRows, ← counted.completed]
    refine le_trans ?_ reached
    rw [counted.expected]
    split
    · exact le_rfl
    · exact List.count_le_length.trans within
  have named : (job, 0) ∈ slots (expectedRows returned) :=
    mem_slots.mpr ⟨1, by simp [expectedRows, landed], Nat.zero_lt_one⟩
  have member := slots_subset counted.reporters_nodup counted.reporters_expected many named
  obtain ⟨event, found, same⟩ := List.mem_map.mp member
  obtain ⟨applied, terminal⟩ := List.mem_filter.mp found
  exact ⟨event, applied, (Prod.mk.inj same).1, terminal⟩

theorem Counted.completed_of_reported (counted : Counted view groups returned settled hash)
    (reported : ∀ job, returned[job]? = some true →
      ∃ event ∈ view.applied, event.job = job ∧ event.subBatchTerminal = true) :
    hash.counter .subjobsCompleted = returned.count true := by
  rw [counted.completed, ← sum_expectedRows]
  refine length_eq_of_slots counted.reporters_nodup counted.reporters_expected ?_
  rintro ⟨job, place⟩ member
  obtain ⟨size, found, inside⟩ := mem_slots.mp member
  obtain ⟨flag, there, rfl⟩ : ∃ flag, returned[job]? = some flag ∧ (if flag then 1 else 0) = size := by
    simpa [expectedRows] using found
  cases flag with
  | false => simp at inside
  | true =>
      obtain rfl : place = 0 := by simpa using inside
      obtain ⟨event, applied, rfl, terminal⟩ := reported job there
      exact List.mem_map.mpr ⟨event, List.mem_filter.mpr ⟨applied, terminal⟩, rfl⟩

end Terminal

variable {state : State Batch Agent Proposal}

def Delivered (state : State Batch Agent Proposal) (batch : Batch) (job : Nat) : Prop :=
  ∃ event ∈ state.redis.applied batch, event.job = job ∧ event.subBatchTerminal = true

def Unfinished (state : State Batch Agent Proposal) (batch : Batch) : Prop :=
  ∃ job, state.landed batch job = true ∧ ¬ Delivered state batch job

theorem delivered_of_free (reachable : Reachable state) {batch : Batch} {job : Nat}
    (free : state.redis.sentinel ≠ some batch) (landed : state.landed batch job = true) :
    Delivered state batch job := by
  have busy : ¬ Quiet (state.view batch) := fun quiet => by
    have gone := quiet.landed job
    rw [show (state.view batch).landed job = true from landed] at gone
    cases gone
  obtain ⟨groups, pc, returned, settled, -, within, hash, counted, held⟩ := (reachable_inv reachable batch).busy busy
  have reached : hash.counter .subjobsExpected ≤ hash.counter .subjobsCompleted := by
    rcases held with mine | reached
    · exact absurd (of_decide_eq_true mine) free
    · exact reached
  exact counted.reported within reached (counted.landed job landed)

-- Mutual exclusion of the dispatches, for every interleaving of calls, failures and events.
theorem dispatch_exclusive (reachable : Reachable state) :
    (∀ batch job, state.redis.sentinel ≠ some batch → state.landed batch job = true →
      Delivered state batch job) ∧
    ∀ one two, Unfinished state one → Unfinished state two → one = two := by
  refine ⟨fun batch job free landed => delivered_of_free reachable free landed, ?_⟩
  have holder : ∀ batch, Unfinished state batch → state.redis.sentinel = some batch := by
    rintro batch ⟨job, landed, missing⟩
    by_contra free
    exact missing (delivered_of_free reachable free landed)
  intro one two first second
  exact Option.some.inj ((holder one first).symm.trans (holder two second))

namespace Handover

def groups : Groups Nat Nat := ⟨[(0, [10]), (1, [11])], by decide⟩

-- Batch 1 loses one chunk and an acknowledgement; batch 2 takes over when the other has reported.
def actions : List (Action Nat Nat Nat) :=
  [ .start 1 groups, .seed 1 .replied, .start 2 groups, .seed 2 .replied, .claim 1 .replied,
    .enqueue 1 (.ambiguous true), .enqueue 1 .failed, .report 1 0 .deleted, .deliver 1 ⟨0, 0, 0, .deleted, true⟩,
    .settle 1 .replied, .finish 1 .replied, .claim 2 .replied, .enqueue 2 .landed ]

theorem ran : (run State.initial actions).isSome = true := by decide

def final : State Nat Nat Nat := (run State.initial actions).get ran

theorem reached : Reachable final := steps_of_run (Option.some_get ran).symm

end Handover

theorem dispatch_exclusive_handover :
    Handover.final.redis.sentinel = some 2 ∧ Handover.final.landed 1 0 = true ∧
      Delivered Handover.final 1 0 ∧ ∀ batch, Unfinished Handover.final batch → batch = 2 := by
  have exclusive := dispatch_exclusive Handover.reached
  have holder : Handover.final.redis.sentinel = some 2 := by decide
  have landed : Handover.final.landed 1 0 = true := by decide
  have moving : Unfinished Handover.final 2 :=
    ⟨0, by decide, by
      rintro ⟨event, found, -⟩
      have none : Handover.final.redis.applied 2 = [] := by decide
      simp [none] at found⟩
  exact ⟨holder, landed, exclusive.1 1 0 (by rw [holder]; decide) landed,
    fun batch unfinished => exclusive.2 batch 2 unfinished moving⟩

end Phaze.Dispatch
