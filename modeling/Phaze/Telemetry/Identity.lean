import Phaze.Tagging.RoundTrip
import Phaze.Telemetry.Children

set_option autoImplicit false

/-!
# Telemetry identities

`service.instance.id` is a base, the lane of a burst pod, and the slot. Two children of one worker never export
under the same one, nor do a child of the host and a burst pod.
-/

namespace Phaze.Telemetry

open Shared
open Tagging (Unicode strip parseInt decimalText)

-- What decides whether a text is one of a list.
local instance : LawfulBEq Text := List.instLawfulBEq

def INSTANCE_ENV : Text := "PHAZE_TELEMETRY_INSTANCE".toList

def LANE_ENV : Text := "PHAZE_TELEMETRY_LANE".toList

def BURST_LANE : Text := "burst".toList

def LANES : List Text := [BURST_LANE]

def LANE_ROLE : Text := "analysis".toList

section Identity

variable (unicode : Unicode)

def resolve_lane (environ : Environ) : Option Text :=
  let raw := read unicode environ LANE_ENV
  if raw = [] then none else if raw ∉ LANES then none else some raw

def base_claims_a_lane (base : Text) : Bool := (base.splitOn '-').any fun segment => decide (segment ∈ LANES)

-- With `RESERVED_SEGMENT_ESCAPE`, an underscore.
def escape_segment (segment : Text) : Text := if segment ∈ LANES then segment ++ ['_'] else segment

def escape_reserved_lanes (base : Text) : Text := ['-'].intercalate ((base.splitOn '-').map escape_segment)

-- `telemetry/bootstrap.py`: the base the operator names, free of lanes in the role that has them.
def operator_base (environ : Environ) (role : Text) : Text :=
  let base := read unicode environ INSTANCE_ENV
  if base ≠ [] ∧ role = LANE_ROLE ∧ base_claims_a_lane base then escape_reserved_lanes base else base

def instance_base (service_name : Text) (environ : Environ) (role : Text) : Text :=
  let base := operator_base unicode environ role
  if base = [] then service_name else base

def suffixed (base : Text) : Option Text → Text
  | none => base
  | some segment => base ++ '-' :: segment

def slotText (slot : Nat) : Text := decimalText slot

def instance_id (service_name : Text) (environ : Environ) (role : Text) : Text :=
  suffixed (suffixed (instance_base unicode service_name environ role) (resolve_lane unicode environ))
    ((resolve_slot unicode environ).map slotText)

end Identity

/-! ## Segments -/

variable {unicode : Unicode} {base segment service_name role : Text} {own environ host burst : Environ}

theorem claims_suffixed (whole : '-' ∉ segment) :
    base_claims_a_lane (suffixed base (some segment)) = (base_claims_a_lane base || decide (segment ∈ LANES)) := by
  rw [base_claims_a_lane, suffixed, List.splitOn_append_cons_self, List.splitOn_eq_singleton whole, List.any_append]
  simp [base_claims_a_lane]

theorem whole_escape (whole : '-' ∉ segment) : '-' ∉ escape_segment segment := by
  rw [escape_segment]
  split
  next => simp [whole]
  next => exact whole

theorem escape_not_mem : escape_segment segment ∉ LANES := by
  rw [escape_segment]
  split
  next member =>
    rw [LANES, List.mem_singleton] at member
    subst member
    decide
  next out => exact out

theorem whole_of_mem_splitOn (member : segment ∈ base.splitOn '-') : '-' ∉ segment := by
  induction base generalizing segment with
  | nil =>
    rw [List.splitOn_nil, List.mem_singleton] at member
    subst member
    exact List.not_mem_nil
  | cons char rest ih =>
    rw [List.splitOn_cons_eq_if_modifyHead] at member
    split at member
    next =>
      rcases List.mem_cons.mp member with rfl | member
      next => exact List.not_mem_nil
      next => exact ih member
    next other =>
      obtain ⟨first, others, split⟩ := List.exists_cons_of_ne_nil (List.splitOn_ne_nil '-' rest)
      rw [split, List.modifyHead_cons] at member
      rcases List.mem_cons.mp member with rfl | member
      next =>
        have clear := ih (split ▸ List.mem_cons_self)
        rw [List.mem_cons, not_or]
        exact ⟨fun same => other (by simp [← same]), clear⟩
      next => exact ih (split ▸ List.mem_cons_of_mem _ member)

-- No segment of what was escaped is a lane.
theorem not_claims_escape : base_claims_a_lane (escape_reserved_lanes base) = false := by
  have split : (escape_reserved_lanes base).splitOn '-' = (base.splitOn '-').map escape_segment := by
    refine List.splitOn_intercalate '-' ?_ (by simp)
    intro segment member
    obtain ⟨original, among, rfl⟩ := List.mem_map.mp member
    exact whole_escape (whole_of_mem_splitOn among)
  rw [base_claims_a_lane, split, List.any_map, List.any_eq_false]
  intro segment _
  simpa using escape_not_mem

theorem not_claims_operator : base_claims_a_lane (operator_base unicode environ LANE_ROLE) = false := by
  rw [operator_base]
  split
  next => exact not_claims_escape
  next kept =>
    by_cases blank : read unicode environ INSTANCE_ENV = []
    next =>
      rw [blank]
      rfl
    next => exact Bool.eq_false_iff.mpr fun claims => kept ⟨blank, rfl, claims⟩

theorem not_claims_base (service : base_claims_a_lane service_name = false) :
    base_claims_a_lane (instance_base unicode service_name environ LANE_ROLE) = false := by
  rw [instance_base]
  split
  next => exact service
  next => exact not_claims_operator

theorem whole_slotText (slot : Nat) : '-' ∉ slotText slot := Tagging.not_mem_toDigits (by decide)

theorem slotText_not_lane (slot : Nat) : slotText slot ∉ LANES := by
  intro member
  rw [LANES, List.mem_singleton] at member
  have first : 'b' ∈ slotText slot := member ▸ List.mem_cons_self
  exact Tagging.not_mem_toDigits (by decide) first

theorem claims_slot (slot : Option Nat) :
    base_claims_a_lane (suffixed base (slot.map slotText)) = base_claims_a_lane base := by
  cases slot with
  | none => rfl
  | some slot =>
    rw [Option.map_some, claims_suffixed (whole_slotText slot), decide_eq_false (slotText_not_lane slot), Bool.or_false]

theorem lane_of_resolve {lane : Text} (found : resolve_lane unicode environ = some lane) : lane = BURST_LANE := by
  simp only [resolve_lane, Option.ite_none_left_eq_some, not_not, LANES, List.mem_singleton] at found
  obtain ⟨_, burst, same⟩ := found
  rw [← Option.some.inj same, burst]

-- A process of the host and a burst pod never export under one identity, whatever the operators named them.
theorem lanes_apart {lane : Text} (service : base_claims_a_lane service_name = false)
    (hosted : resolve_lane unicode host = none) (pod : resolve_lane unicode burst = some lane) :
    instance_id unicode service_name host LANE_ROLE ≠ instance_id unicode service_name burst LANE_ROLE := by
  intro same
  have claims := congrArg base_claims_a_lane same
  obtain rfl := lane_of_resolve pod
  rw [instance_id, instance_id, claims_slot, claims_slot, hosted, pod, claims_suffixed (by decide), suffixed,
    not_claims_base service, not_claims_base service] at claims
  exact absurd claims (by decide)

/-! ## Children of one worker -/

theorem slotText_injective {slot other : Nat} (same : slotText slot = slotText other) : slot = other := by
  have left : Nat.ofDigitChars 10 (slotText slot) 0 = slot := Nat.ofDigitChars_ten_toDigits
  have right : Nat.ofDigitChars 10 (slotText other) 0 = other := Nat.ofDigitChars_ten_toDigits
  rw [← left, same, right]

theorem instance_base_congr (same : read unicode host INSTANCE_ENV = read unicode burst INSTANCE_ENV) :
    instance_base unicode service_name host role = instance_base unicode service_name burst role := by
  rw [instance_base, instance_base, operator_base, operator_base, same]

theorem resolve_lane_congr (same : read unicode host LANE_ENV = read unicode burst LANE_ENV) :
    resolve_lane unicode host = resolve_lane unicode burst := by
  rw [resolve_lane, resolve_lane, same]

theorem instance_id_apart {slot other : Nat} (different : slot ≠ other)
    (base : read unicode host INSTANCE_ENV = read unicode burst INSTANCE_ENV)
    (lane : read unicode host LANE_ENV = read unicode burst LANE_ENV)
    (left : resolve_slot unicode host = some slot) (right : resolve_slot unicode burst = some other) :
    instance_id unicode service_name host role ≠ instance_id unicode service_name burst role := by
  intro same
  rw [instance_id, instance_id, left, right, instance_base_congr base, resolve_lane_congr lane, Option.map_some,
    Option.map_some, suffixed, suffixed, List.append_cancel_left_eq, List.cons.injEq] at same
  exact different (slotText_injective same.2)

variable {Name : Type} [DecidableEq Name] {state next : State Name} {name : Name} {child : Child}

-- What a child that starts without a slot of its own is given.
theorem start_gives (held : Held unicode state) (stepped : step unicode state (.start name environ) = some next)
    (own : resolve_slot unicode environ = none) (found : next.children.get? name = some child) :
    (child.slot = none ∧ ∀ slot < (default_pool unicode state.own state.pool).size, Out state slot) ∨
      ∃ slot, child.slot = some slot ∧ ¬ Out state slot ∧ ∀ lower < slot, Out state lower := by
  obtain ⟨_, outside⟩ := held.default_pool
  rw [step] at stepped
  split at stepped
  next => exact absurd stepped (by simp)
  next =>
    rcases @assign_cases unicode state.own environ state.pool with ⟨given, _⟩ | ⟨_, full, same⟩ | ⟨slot, _, acquired, same⟩
    next =>
      rw [own] at given
      exact absurd given (by simp)
    next =>
      rw [same] at stepped
      cases stepped
      rw [Dict.get?_set, if_pos rfl] at found
      cases found
      exact .inl ⟨rfl, fun slot inside => (outside slot).mp ((SlotPool.acquire_none full).2 slot inside)⟩
    next =>
      rw [same] at stepped
      cases stepped
      rw [Dict.get?_set, if_pos rfl] at found
      cases found
      obtain ⟨free, _, lowest, _⟩ := SlotPool.acquire_some acquired
      exact .inr ⟨slot, rfl, fun out => free ((outside slot).mpr out),
        fun lower below => (outside lower).mp (lowest lower below)⟩

-- However children start and end and however the pool is resized meanwhile, children with a slot export apart,
-- and a child is left without one only where every slot of the pool is out.
theorem children_export_apart {actions : List (Action Name)}
    (printable : Printable (max 1 (slot_max unicode own)).toNat) (sized : ∀ action ∈ actions, Sized action)
    (ran : Runs.run (step unicode) (State.new own) actions = some state) :
    (∀ name other child twin slot taken, name ≠ other → state.children.get? name = some child →
      state.children.get? other = some twin → child.slot = some slot → twin.slot = some taken →
      read unicode child.environ INSTANCE_ENV = read unicode twin.environ INSTANCE_ENV →
      read unicode child.environ LANE_ENV = read unicode twin.environ LANE_ENV →
        instance_id unicode service_name child.environ role ≠ instance_id unicode service_name twin.environ role) ∧
    ∀ name environ next child, step unicode state (.start name environ) = some next →
      resolve_slot unicode environ = none → next.children.get? name = some child →
        (child.slot = none ∧ ∀ slot < (default_pool unicode state.own state.pool).size, Out state slot) ∨
          ∃ slot, child.slot = some slot ∧ ¬ Out state slot ∧ ∀ lower < slot, Out state lower := by
  have held := held_run printable sized ran
  refine ⟨?_, fun name environ next child stepped free found => start_gives held stepped free found⟩
  intro name other child twin slot taken different found there has too base lane
  refine instance_id_apart ?_ base lane (held.stamped name child slot found has) (held.stamped other twin taken there too)
  rintro rfl
  exact different (held.apart name other child twin slot found there has too)

/-! ## A pool that shrinks under its children -/

open Tagging.Artists (ascii)

def shrinking : List (Action Nat) :=
  [.set_default_pool_size 2, .start 0 .empty, .start 1 .empty, .set_default_pool_size 1, .finish 0, .start 2 .empty]

theorem shrinking_export_apart : ∃ state child twin,
    Runs.run (step ascii) (State.new .empty) shrinking = some state ∧ state.children.get? 1 = some child ∧
      state.children.get? 2 = some twin ∧
        instance_id ascii LANE_ROLE child.environ LANE_ROLE ≠ instance_id ascii LANE_ROLE twin.environ LANE_ROLE := by
  have ran : ∃ state child twin, Runs.run (step ascii) (State.new .empty) shrinking = some state ∧
      state.children.get? 1 = some child ∧ state.children.get? 2 = some twin ∧ child.slot = some 1 ∧
        twin.slot = some 0 ∧ read ascii child.environ INSTANCE_ENV = read ascii twin.environ INSTANCE_ENV ∧
          read ascii child.environ LANE_ENV = read ascii twin.environ LANE_ENV :=
    ⟨_, _, _, rfl, rfl, rfl, rfl, rfl, rfl, rfl⟩
  obtain ⟨state, child, twin, ran, found, there, has, too, base, lane⟩ := ran
  exact ⟨state, child, twin, ran, found, there,
    (children_export_apart (by decide) (by decide) ran).1 1 2 child twin 1 0 (by decide) found there has too base lane⟩

theorem burst_is_apart : instance_id ascii LANE_ROLE (Dict.empty.set INSTANCE_ENV "host-burst".toList) LANE_ROLE ≠
    instance_id ascii LANE_ROLE ((Dict.empty.set INSTANCE_ENV "host".toList).set LANE_ENV BURST_LANE) LANE_ROLE :=
  lanes_apart (by decide) rfl rfl

end Phaze.Telemetry
