import Phaze.Cloud.Chains

set_option autoImplicit false

/-!
# Which backend a candidate goes to

`services/backend_selection.py` with the durable hold of `services/cloud_budget.py`: the pure policy
that a drain tick asks for each candidate, over the slots it counted once at its start.
-/

namespace Phaze.Drain

open Phaze.Cloud
open Phaze.Cloud.Chains (CloudBudget)

inductive BackendKind where
  | kueue
  | compute
  | localLane
deriving DecidableEq

structure Backend where
  id : BackendId
  kind : BackendKind
  rank : Int
  cap : Nat
deriving DecidableEq

structure BackendSlot where
  backend : Backend
  available : Bool
  remaining : Nat
deriving DecidableEq

structure Settings where
  cloudSubmitMaxAttempts : Nat
  cloudSpillToLocalAfterSeconds : Int
  cloudBudgetMaxChains : Nat
  cloudBudgetMaxNodeLoss : Nat
  cloudBudgetCooldownDays : Nat

inductive HoldReason where
  | noFreeSlots
  | cloudAttemptsExhausted
  | localSpillNotReached
  | cloudBudgetChains
  | cloudBudgetNodeLoss
  | cloudBudgetCooldown
deriving DecidableEq

-- A ceiling of 0 is no ceiling, and a cooldown of 0 days no cooldown.
def cloudBudgetHoldReason (settings : Settings) (budget : Option CloudBudget) (now : Int) : Option HoldReason :=
  match budget with
  | none => none
  | some budget =>
      if settings.cloudBudgetMaxChains ≠ 0 ∧ settings.cloudBudgetMaxChains ≤ budget.chainsSpent then
        some .cloudBudgetChains
      else if settings.cloudBudgetMaxNodeLoss ≠ 0 ∧ settings.cloudBudgetMaxNodeLoss ≤ budget.nodeLossSpent then
        some .cloudBudgetNodeLoss
      else if settings.cloudBudgetCooldownDays = 0 then none
      else if now - budget.budgetSpentAt < seconds (settings.cloudBudgetCooldownDays * 86400) then
        some .cloudBudgetCooldown
      else none

def BackendSlot.isLocal (slot : BackendSlot) : Bool :=
  slot.backend.kind = .localLane

-- `_utilization`; a backend of cap 0 counts as idle.
def BackendSlot.utilization (slot : BackendSlot) : Rat :=
  if slot.backend.cap = 0 then 0 else ((slot.backend.cap : Int) - slot.remaining : Int) / slot.backend.cap

-- The sort key: rank, then utilization, then id.
def BackendSlot.precedes (slot other : BackendSlot) : Bool :=
  slot.backend.rank < other.backend.rank || (slot.backend.rank = other.backend.rank &&
    (slot.utilization < other.utilization || (slot.utilization = other.utilization &&
      slot.backend.id < other.backend.id)))

-- The head of the stable sort.
def leading : List BackendSlot → Option BackendSlot
  | [] => none
  | slot :: rest =>
      match leading rest with
      | none => some slot
      | some other => if other.precedes slot then some other else some slot

def BackendSlot.eligible (slot : BackendSlot) : Bool :=
  slot.available && 0 < slot.remaining

def selectBackendWithReason (settings : Settings) (laneEnteredAt : Int) (cloudAttempts : Nat)
    (snapshot : List BackendSlot) (now : Int) (budget : Option CloudBudget) : Except HoldReason Backend :=
  let eligible := snapshot.filter BackendSlot.eligible
  if eligible = [] then .error .noFreeSlots
  else
    let barred :=
      if settings.cloudSubmitMaxAttempts ≤ cloudAttempts then some .cloudAttemptsExhausted
      else cloudBudgetHoldReason settings budget now
    let eligible := if barred.isSome then eligible.filter BackendSlot.isLocal else eligible
    match barred, eligible with
    | some reason, [] => .error reason
    | _, _ =>
        let anyNonLocalOnline := snapshot.any fun slot => slot.available && !slot.isLocal
        let waited := decide (seconds settings.cloudSpillToLocalAfterSeconds ≤ now - laneEnteredAt)
        let localOk := !anyNonLocalOnline || waited || barred.isSome
        let eligible := if localOk then eligible else eligible.filter fun slot => !slot.isLocal
        match leading eligible with
        | none => .error .localSpillNotReached
        | some slot => .ok slot.backend

theorem leading_mem {slots : List BackendSlot} {slot : BackendSlot} (leads : leading slots = some slot) :
    slot ∈ slots := by
  induction slots with
  | nil => cases leads
  | cons head rest ih =>
    unfold leading at leads
    split at leads
    · cases leads
      exact List.mem_cons_self
    next other found =>
      split at leads
      · cases leads
        exact List.mem_cons_of_mem _ (ih found)
      · cases leads
        exact List.mem_cons_self

theorem mem_of_narrowed {slots : List BackendSlot} {keeps : BackendSlot → Bool} {narrows : Bool}
    {slot : BackendSlot} (member : slot ∈ if narrows then slots.filter keeps else slots) : slot ∈ slots := by
  cases narrows
  · exact member
  · exact List.mem_of_mem_filter member

theorem mem_of_narrowed' {slots : List BackendSlot} {keeps : BackendSlot → Bool} {widens : Bool}
    {slot : BackendSlot} (member : slot ∈ if widens then slots else slots.filter keeps) : slot ∈ slots := by
  cases widens
  · exact List.mem_of_mem_filter member
  · exact member

/-- The policy only ever chooses a backend that has a slot left. -/
theorem select_eligible {settings : Settings} {laneEnteredAt now : Int} {cloudAttempts : Nat}
    {snapshot : List BackendSlot} {budget : Option CloudBudget} {backend : Backend}
    (selects : selectBackendWithReason settings laneEnteredAt cloudAttempts snapshot now budget = .ok backend) :
    ∃ slot ∈ snapshot, slot.eligible ∧ slot.backend = backend := by
  unfold selectBackendWithReason at selects
  simp only at selects
  split at selects
  · cases selects
  split at selects
  · cases selects
  split at selects
  · cases selects
  next slot leads =>
    cases selects
    have free := mem_of_narrowed (mem_of_narrowed' (leading_mem leads))
    obtain ⟨member, eligible⟩ := List.mem_filter.mp free
    exact ⟨slot, member, eligible, rfl⟩

end Phaze.Drain
