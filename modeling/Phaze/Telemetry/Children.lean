import Phaze.Shared.Runs
import Phaze.Telemetry.Slots

set_option autoImplicit false

/-!
# The children of a worker

`run_analysis_subprocess` holds a slot of the pool for the whole life of a child; the pool is resized while
children run. Children start, end and are counted in any order.
-/

namespace Phaze.Telemetry

open Tagging (Unicode)

structure Child where
  environ : Environ
  slot : Option Nat

structure State (Name : Type) where
  own : Environ
  pool : Option SlotPool
  children : Dict Name Child

variable {Name : Type} [DecidableEq Name]

def State.new (own : Environ) : State Name := { own, pool := none, children := .empty }

inductive Action (Name : Type) where
  | set_default_pool_size (size : Int)
  | start (child : Name) (environ : Environ)
  | finish (child : Name)

def set_default_pool_size (size : Int) : Option SlotPool → SlotPool
  | none => .new size
  | some pool => pool.resize size

section Step

variable (unicode : Unicode)

def step (state : State Name) : Action Name → Option (State Name)
  | .set_default_pool_size size => some { state with pool := some (set_default_pool_size size state.pool) }
  | .start name environ =>
      if name ∈ state.children.keys then none
      else
        let (environ, slot, pool) := assign unicode state.own environ state.pool
        some { state with pool, children := state.children.set name { environ, slot } }
  | .finish name =>
      (state.children.get? name).map fun child =>
        { state with
          pool := some ((default_pool unicode state.own state.pool).release child.slot)
          children := state.children.pop name }

end Step

-- Some child that runs has the slot.
def Out (state : State Name) (slot : Nat) : Prop :=
  ∃ name child, state.children.get? name = some child ∧ child.slot = some slot

structure Held (unicode : Unicode) (state : State Name) : Prop where
  apart : ∀ name other child twin slot, state.children.get? name = some child → state.children.get? other = some twin →
    child.slot = some slot → twin.slot = some slot → name = other
  out : ∀ slot, Out state slot ↔ ∃ pool ∈ state.pool, slot ∈ pool.held
  stamped : ∀ name child slot, state.children.get? name = some child → child.slot = some slot →
    resolve_slot unicode child.environ = some slot
  printable : ∀ pool ∈ state.pool, Printable pool.size
  own : Printable (max 1 (slot_max unicode state.own)).toNat

variable {unicode : Unicode} {state next : State Name} {own environ : Environ} {name : Name} {size : Int} {slot : Nat}

theorem held_new (printable : Printable (max 1 (slot_max unicode own)).toNat) :
    Held unicode (State.new own : State Name) where
  apart := by simp [State.new]
  out := by simp [State.new, Out]
  stamped := by simp [State.new]
  printable := by simp [State.new]
  own := printable

theorem Held.default_pool (held : Held unicode state) :
    Printable (default_pool unicode state.own state.pool).size ∧
      ∀ slot, slot ∈ (Telemetry.default_pool unicode state.own state.pool).held ↔ Out state slot := by
  refine ⟨?_, fun slot => ?_⟩
  next =>
    cases pool : state.pool with
    | none => exact held.own
    | some pool => exact held.printable _ pool
  next =>
    rw [held.out]
    cases pool : state.pool with
    | none => simp [Telemetry.default_pool]
    | some pool => simp [Telemetry.default_pool]

/-! ## Steps -/

theorem held_resize (held : Held unicode state) (printable : Printable (max 1 size).toNat)
    (stepped : step unicode state (.set_default_pool_size size) = some next) : Held unicode next := by
  cases stepped
  refine { apart := held.apart, out := fun slot => ?_, stamped := held.stamped, printable := ?_, own := held.own }
  next =>
    refine (held.out slot).trans ?_
    cases pool : state.pool with
    | none => simp [set_default_pool_size]
    | some pool => simp [set_default_pool_size]
  next =>
    rintro _ ⟨⟩
    cases pool : state.pool with
    | none => exact printable
    | some pool => exact printable

-- A child that takes no slot of the pool.
theorem held_start_without (held : Held unicode state) (fresh : state.children.get? name = none) {pool : Option SlotPool}
    (kept : pool = state.pool ∨ pool = some (default_pool unicode state.own state.pool)) :
    Held unicode { state with pool, children := state.children.set name { environ, slot := none } } := by
  have known : ∀ other child, (state.children.set name { environ, slot := none }).get? other = some child →
      ∀ slot, child.slot = some slot → state.children.get? other = some child := by
    intro other child found slot has
    rw [Dict.get?_set] at found
    split at found
    next =>
      cases found
      exact absurd has (by simp)
    next => exact found
  refine { apart := ?_, out := fun slot => ?_, stamped := ?_, printable := ?_, own := held.own }
  next =>
    intro first second child twin slot found other has too
    exact held.apart first second child twin slot (known first child found slot has) (known second twin other slot too) has too
  next =>
    have same : Out { state with pool, children := state.children.set name { environ, slot := none } } slot ↔
        Out state slot := by
      constructor
      next =>
        rintro ⟨other, child, found, has⟩
        exact ⟨other, child, known other child found slot has, has⟩
      next =>
        rintro ⟨other, child, found, has⟩
        refine ⟨other, child, ?_, has⟩
        have different : other ≠ name := by
          rintro rfl
          rw [fresh] at found
          exact absurd found (by simp)
        rw [Dict.get?_set, if_neg different]
        exact found
    rw [same]
    rcases kept with rfl | rfl
    next => exact held.out slot
    next =>
      rw [← held.default_pool.2 slot]
      simp
  next => exact fun other child slot found has => held.stamped other child slot (known other child found slot has) has
  next =>
    rcases kept with rfl | rfl
    next => exact held.printable
    next =>
      rintro _ ⟨⟩
      exact held.default_pool.1

theorem held_start_with (held : Held unicode state) (fresh : state.children.get? name = none)
    (acquired : (default_pool unicode state.own state.pool).acquire.1 = some slot) :
    Held unicode
      { state with
        pool := some (default_pool unicode state.own state.pool).acquire.2
        children := state.children.set name
          { environ := stamp environ slot (default_pool unicode state.own state.pool).size, slot := some slot } } := by
  obtain ⟨free, inside, _, heldAfter, sizeAfter⟩ := SlotPool.acquire_some acquired
  obtain ⟨printable, outside⟩ := held.default_pool
  have alone : ∀ other child, state.children.get? other = some child → child.slot ≠ some slot :=
    fun other child found has => free ((outside slot).mpr ⟨other, child, found, has⟩)
  refine { apart := ?_, out := fun lower => ?_, stamped := ?_, printable := ?_, own := held.own }
  next =>
    intro first second child twin lower found other has too
    rw [Dict.get?_set] at found other
    split at found
    next here =>
      split at other
      next there => exact here.trans there.symm
      next =>
        cases found
        cases has
        exact absurd too (alone second twin other)
    next =>
      split at other
      next =>
        cases other
        cases too
        exact absurd has (alone first child found)
      next => exact held.apart first second child twin lower found other has too
  next =>
    simp only [Option.mem_some_iff, exists_eq_left', heldAfter, Finset.mem_insert, outside]
    constructor
    next =>
      rintro ⟨other, child, found, has⟩
      rw [Dict.get?_set] at found
      split at found
      next =>
        cases found
        exact .inl (Option.some.inj has).symm
      next => exact .inr ⟨other, child, found, has⟩
    next =>
      rintro (rfl | ⟨other, child, found, has⟩)
      next => exact ⟨name, _, by rw [Dict.get?_set, if_pos rfl], rfl⟩
      next =>
        refine ⟨other, child, ?_, has⟩
        have different : other ≠ name := by
          rintro rfl
          rw [fresh] at found
          exact absurd found (by simp)
        rw [Dict.get?_set, if_neg different]
        exact found
  next =>
    intro other child lower found has
    rw [Dict.get?_set] at found
    split at found
    next =>
      cases found
      cases has
      exact resolve_slot_stamp inside printable
    next => exact held.stamped other child lower found has
  next =>
    rintro _ ⟨⟩
    rw [sizeAfter]
    exact printable

theorem held_start (held : Held unicode state) (stepped : step unicode state (.start name environ) = some next) :
    Held unicode next := by
  rw [step] at stepped
  split at stepped
  next => exact absurd stepped (by simp)
  next absent =>
    have fresh := Dict.get?_eq_none.mpr absent
    rcases @assign_cases unicode state.own environ state.pool with ⟨_, same⟩ | ⟨_, _, same⟩ | ⟨slot, _, acquired, same⟩
    all_goals
      rw [same] at stepped
      cases stepped
    next => exact held_start_without held fresh (.inl rfl)
    next => exact held_start_without held fresh (.inr rfl)
    next => exact held_start_with held fresh acquired

theorem held_finish (held : Held unicode state) (stepped : step unicode state (.finish name) = some next) :
    Held unicode next := by
  rw [step, Option.map_eq_some_iff] at stepped
  obtain ⟨child, found, rfl⟩ := stepped
  obtain ⟨printable, outside⟩ := held.default_pool
  have known : ∀ other twin, (state.children.pop name).get? other = some twin →
      other ≠ name ∧ state.children.get? other = some twin := by
    intro other twin there
    rw [Dict.get?_pop] at there
    split at there
    next => exact absurd there (by simp)
    next different => exact ⟨different, there⟩
  refine { apart := ?_, out := fun slot => ?_, stamped := ?_, printable := ?_, own := held.own }
  next =>
    intro first second child twin slot here there has too
    exact held.apart first second child twin slot (known first child here).2 (known second twin there).2 has too
  next =>
    simp only [Option.mem_some_iff, exists_eq_left']
    have left : Out { state with
        pool := some ((default_pool unicode state.own state.pool).release child.slot)
        children := state.children.pop name } slot ↔ Out state slot ∧ child.slot ≠ some slot := by
      constructor
      next =>
        rintro ⟨other, twin, there, has⟩
        obtain ⟨different, there⟩ := known other twin there
        exact ⟨⟨other, twin, there, has⟩, fun too => different (held.apart other name twin child slot there found has too)⟩
      next =>
        rintro ⟨⟨other, twin, there, has⟩, given⟩
        have different : other ≠ name := by
          rintro rfl
          rw [found] at there
          cases there
          exact given has
        exact ⟨other, twin, by rw [Dict.get?_pop, if_neg different]; exact there, has⟩
    rw [left, ← outside]
    cases has : child.slot with
    | none => simp [SlotPool.release]
    | some released =>
      rw [SlotPool.release_held, Finset.mem_erase, and_comm]
      simp [eq_comm]
  next => exact fun other twin slot there has => held.stamped other twin slot (known other twin there).2 has
  next =>
    rintro _ ⟨⟩
    rw [SlotPool.release_size]
    exact printable

/-! ## Runs -/

-- The sizes asked for are of numbers that `int` reads back.
def Sized : Action Name → Prop
  | .set_default_pool_size size => Printable (max 1 size).toNat
  | _ => True

instance : DecidablePred (Sized : Action Name → Prop)
  | .set_default_pool_size size => inferInstanceAs (Decidable (Printable (max 1 size).toNat))
  | .start _ _ => isTrue trivial
  | .finish _ => isTrue trivial

theorem held_step {action : Action Name} (held : Held unicode state) (sized : Sized action)
    (stepped : step unicode state action = some next) : Held unicode next := by
  cases action with
  | set_default_pool_size size => exact held_resize held sized stepped
  | start name environ => exact held_start held stepped
  | finish name => exact held_finish held stepped

theorem held_run {actions : List (Action Name)} (printable : Printable (max 1 (slot_max unicode own)).toNat)
    (sized : ∀ action ∈ actions, Sized action) (ran : Runs.run (step unicode) (State.new own) actions = some state) :
    Held unicode state :=
  Runs.run_keeps (fun _ _ _ => held_step) actions (Runs.along_of_forall sized) (held_new printable) ran

end Phaze.Telemetry
