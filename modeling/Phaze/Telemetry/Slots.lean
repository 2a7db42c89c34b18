import Mathlib.Data.List.Sort
import Phaze.Shared.Dict
import Phaze.Tagging.Texts

set_option autoImplicit false

/-!
# Telemetry slots

`telemetry/slots.py`: the free list of slot indices, and the slot and its bound in a child's environment.
-/

namespace Phaze.Telemetry

open Shared
open Tagging (Unicode strip parseInt decimalText maxStrDigits)

abbrev Environ := Dict Text Text

def SLOT_ENV : Text := "PHAZE_TELEMETRY_SLOT".toList

def SLOT_MAX_ENV : Text := "PHAZE_TELEMETRY_SLOT_MAX".toList

def DEFAULT_SLOT_MAX : Int := 4

section Reading

variable (unicode : Unicode)

-- `environ.get(name, "").strip()`
def read (environ : Environ) (name : Text) : Text := strip unicode ((environ.get? name).getD [])

def slot_max (environ : Environ) : Int :=
  let raw := read unicode environ SLOT_MAX_ENV
  if raw = [] then DEFAULT_SLOT_MAX
  else
    match parseInt unicode raw with
    | none => DEFAULT_SLOT_MAX
    | some value => if value < 1 then DEFAULT_SLOT_MAX else value

def resolve_slot (environ : Environ) : Option Nat :=
  let raw := read unicode environ SLOT_ENV
  if raw = [] then none
  else
    match parseInt unicode raw with
    | none => none
    | some slot => if slot < 0 ∨ slot_max unicode environ ≤ slot then none else some slot.toNat

end Reading

/-! ## The pool -/

structure SlotPool where
  size : Nat
  free : List Nat
  held : Finset Nat
  positive : 1 ≤ size
  increasing : free.Pairwise (· < ·)
  mem_free : ∀ slot, slot ∈ free ↔ slot < size ∧ slot ∉ held

namespace SlotPool

def new (size : Int) : SlotPool where
  size := (max 1 size).toNat
  free := List.range (max 1 size).toNat
  held := ∅
  positive := by omega
  increasing := List.pairwise_lt_range
  mem_free := by simp

-- The lowest free slot, where there is one.
def acquire (pool : SlotPool) : Option Nat × SlotPool :=
  match found : pool.free with
  | [] => (none, pool)
  | slot :: rest =>
      (some slot,
        { size := pool.size
          free := rest
          held := insert slot pool.held
          positive := pool.positive
          increasing := (List.pairwise_cons.mp (found ▸ pool.increasing)).2
          mem_free := by
            intro other
            have below := (List.pairwise_cons.mp (found ▸ pool.increasing)).1
            have mem := pool.mem_free other
            rw [found, List.mem_cons] at mem
            rw [Finset.mem_insert, not_or]
            constructor
            next =>
              intro member
              have free := mem.mp (.inr member)
              exact ⟨free.1, (Nat.ne_of_lt (below other member)).symm, free.2⟩
            next => exact fun ⟨inside, different, out⟩ => (mem.mpr ⟨inside, out⟩).resolve_left different })

def resize (pool : SlotPool) (size : Int) : SlotPool where
  size := (max 1 size).toNat
  free := (List.range (max 1 size).toNat).filter fun slot => slot ∉ pool.held
  held := pool.held
  positive := by omega
  increasing := List.pairwise_lt_range.filter _
  mem_free := by simp

theorem increasing_insert {free : List Nat} {slot : Nat} (increasing : free.Pairwise (· < ·)) (fresh : slot ∉ free) :
    ((free ++ [slot]).insertionSort (· ≤ ·)).Pairwise (· < ·) := by
  have distinct : ((free ++ [slot]).insertionSort (· ≤ ·)).Nodup := by
    rw [(List.perm_insertionSort _ _).nodup_iff, List.nodup_append]
    refine ⟨increasing.imp Nat.ne_of_lt, List.nodup_singleton _, ?_⟩
    rintro member inside _ last rfl
    rw [List.mem_singleton] at last
    exact fresh (last ▸ inside)
  have sorted := List.pairwise_insertionSort (· ≤ ·) (free ++ [slot])
  exact (sorted.and distinct).imp fun ⟨le, ne⟩ => Nat.lt_of_le_of_ne le ne

-- A slot that is not out is left alone; one past the ceiling is not handed out again.
def release (pool : SlotPool) : Option Nat → SlotPool
  | none => pool
  | some slot =>
      if out : slot ∈ pool.held then
        { size := pool.size
          free := if slot < pool.size then (pool.free ++ [slot]).insertionSort (· ≤ ·) else pool.free
          held := pool.held.erase slot
          positive := pool.positive
          increasing := by
            split
            next => exact increasing_insert pool.increasing fun member => ((pool.mem_free slot).mp member).2 out
            next => exact pool.increasing
          mem_free := by
            intro other
            rw [Finset.mem_erase, not_and_or, not_not]
            by_cases same : other = slot
            next =>
              subst same
              split
              next inside => simp [List.mem_insertionSort, inside]
              next outside => simp [pool.mem_free, outside]
            next =>
              split
              next => simp [List.mem_insertionSort, pool.mem_free, same]
              next => simp [pool.mem_free, same] }
      else pool

/-! ## What the operations do -/

variable {pool : SlotPool} {slot other : Nat} {size : Int}

theorem acquire_none (none : pool.acquire.1 = none) : pool.acquire.2 = pool ∧ ∀ slot < pool.size, slot ∈ pool.held := by
  unfold acquire at none ⊢
  split at none
  next found =>
    refine ⟨?_, fun slot inside => ?_⟩
    next => rfl
    next =>
      by_contra out
      have member := (pool.mem_free slot).mpr ⟨inside, out⟩
      rw [found] at member
      exact List.not_mem_nil member
  next => exact absurd none (by simp)

theorem acquire_some (some : pool.acquire.1 = some slot) : slot ∉ pool.held ∧ slot < pool.size ∧
    (∀ lower < slot, lower ∈ pool.held) ∧ pool.acquire.2.held = insert slot pool.held ∧
    pool.acquire.2.size = pool.size := by
  unfold acquire at some ⊢
  split at some
  next => exact absurd some (by simp)
  next first rest found =>
    have same : first = slot := by simpa using some
    subst same
    have free := (pool.mem_free first).mp (found ▸ List.mem_cons_self)
    refine ⟨free.2, free.1, ?_, ?_⟩
    next =>
      intro lower below
      by_contra out
      have member := (pool.mem_free lower).mpr ⟨Nat.lt_trans below free.1, out⟩
      rw [found, List.mem_cons] at member
      have above := (List.pairwise_cons.mp (found ▸ pool.increasing)).1
      rcases member with rfl | member
      next => exact Nat.lt_irrefl _ below
      next => exact Nat.lt_asymm below (above lower member)
    next => exact ⟨rfl, rfl⟩

@[simp]
theorem new_held : (new size).held = ∅ := rfl

@[simp]
theorem resize_held : (pool.resize size).held = pool.held := rfl

@[simp]
theorem release_size (slot : Option Nat) : (pool.release slot).size = pool.size := by
  cases slot with
  | none => rfl
  | some slot =>
    rw [release]
    split
    next => rfl
    next => rfl

theorem release_held (slot : Nat) : (pool.release (some slot)).held = pool.held.erase slot := by
  rw [release]
  split
  next => rfl
  next out => exact (Finset.erase_eq_of_notMem out).symm

end SlotPool

/-! ## Handing a slot to a child -/

section Assign

variable (unicode : Unicode)

-- `default_pool()`
def default_pool (environ : Environ) : Option SlotPool → SlotPool
  | none => .new (slot_max unicode environ)
  | some pool => pool

-- The child's environment, the slot its parent releases later, and the pool; `own` is the parent's environment.
def assign (own environ : Environ) (pool : Option SlotPool) : Environ × Option Nat × Option SlotPool :=
  if (resolve_slot unicode environ).isSome then (environ, none, pool)
  else
    let target := default_pool unicode own pool
    match target.acquire with
    | (none, target) => (environ, none, some target)
    | (some chosen, target) =>
        ((environ.set SLOT_ENV (decimalText chosen)).set SLOT_MAX_ENV (decimalText target.size), some chosen, some target)

variable {unicode} {own environ : Environ} {pool : Option SlotPool}

def stamp (environ : Environ) (slot size : Nat) : Environ :=
  (environ.set SLOT_ENV (decimalText slot)).set SLOT_MAX_ENV (decimalText size)

theorem assign_cases :
    ((resolve_slot unicode environ).isSome = true ∧ assign unicode own environ pool = (environ, none, pool)) ∨
    (resolve_slot unicode environ = none ∧ (default_pool unicode own pool).acquire.1 = none ∧
      assign unicode own environ pool = (environ, none, some (default_pool unicode own pool))) ∨
    ∃ slot, resolve_slot unicode environ = none ∧ (default_pool unicode own pool).acquire.1 = some slot ∧
      assign unicode own environ pool =
        (stamp environ slot (default_pool unicode own pool).size, some slot,
          some (default_pool unicode own pool).acquire.2) := by
  unfold assign
  cases inherited : resolve_slot unicode environ with
  | some slot => exact .inl ⟨rfl, rfl⟩
  | none =>
    refine .inr ?_
    simp only [Option.isSome_none, Bool.false_eq_true, if_false]
    generalize default_pool unicode own pool = target
    cases acquired : target.acquire with
    | mk answer after =>
      cases answer with
      | none =>
        have same : after = target := by
          have full := (@SlotPool.acquire_none target (congrArg Prod.fst acquired)).1
          rwa [acquired] at full
        rw [same]
        exact .inl ⟨trivial, rfl, rfl⟩
      | some slot =>
        have same : after.size = target.size := by
          have given := (@SlotPool.acquire_some target slot (congrArg Prod.fst acquired)).2.2.2.2
          rwa [acquired] at given
        refine .inr ⟨slot, trivial, rfl, ?_⟩
        simp only [stamp, same]

/-! ## Reading the stamp back -/

-- A number short enough for `int` to read back what `str` wrote.
def Printable (number : Nat) : Prop := (Nat.toDigits 10 number).length ≤ maxStrDigits

instance (number : Nat) : Decidable (Printable number) := inferInstanceAs (Decidable (_ ≤ _))

theorem Printable.of_le {number larger : Nat} (printable : Printable larger) (le : number ≤ larger) :
    Printable number := by
  have positive : 0 < maxStrDigits := by decide
  rw [Printable, Nat.length_toDigits_le_iff (by decide) positive] at printable ⊢
  exact Nat.lt_of_le_of_lt le printable

theorem read_decimalText {name : Text} {number : Nat} (found : environ.get? name = some (decimalText number)) :
    read unicode environ name = Nat.toDigits 10 number := by
  rw [read, found]
  exact Tagging.strip_toDigits number

theorem slot_max_stamp {slot size : Nat} (positive : 1 ≤ size) (printable : Printable size) :
    slot_max unicode (stamp environ slot size) = size := by
  have raw : read unicode (stamp environ slot size) SLOT_MAX_ENV = Nat.toDigits 10 size :=
    read_decimalText (by rw [stamp, Dict.get?_set, if_pos rfl])
  have parsed := @Tagging.parseInt_toDigits unicode size printable
  have above : ¬ (size : Int) < 1 := by omega
  simp only [slot_max, raw, Nat.toDigits_ne_nil, if_false, parsed, above]

-- A child reads the slot its parent stamped, whatever bound it would have read before.
theorem resolve_slot_stamp {slot size : Nat} (inside : slot < size) (printable : Printable size) :
    resolve_slot unicode (stamp environ slot size) = some slot := by
  have raw : read unicode (stamp environ slot size) SLOT_ENV = Nat.toDigits 10 slot := by
    apply read_decimalText
    rw [stamp, Dict.get?_set, if_neg (by decide), Dict.get?_set, if_pos rfl]
  have parsed := @Tagging.parseInt_toDigits unicode slot (printable.of_le inside.le)
  have bound := @slot_max_stamp unicode environ slot size (by omega) printable
  have kept : ¬ ((slot : Int) < 0 ∨ (size : Int) ≤ slot) := by omega
  simp only [resolve_slot, raw, Nat.toDigits_ne_nil, if_false, parsed, bound, kept, Int.toNat_natCast]

end Assign

end Phaze.Telemetry
