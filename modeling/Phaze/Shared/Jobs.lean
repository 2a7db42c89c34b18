import Mathlib.Data.Option.Basic

set_option autoImplicit false

/-!
# The jobs of one deterministic key

A queue keeps one job a key. An enqueue on the key of a job that has not settled
changes nothing; on a settled one it puts a new job in its place.
-/

namespace Phaze.Jobs

inductive Phase where
  | queued
  | active
  | settled
deriving DecidableEq

structure Job (Payload : Type) where
  serial : Nat
  payload : Payload
  phase : Phase
deriving DecidableEq

structure Slot (Payload : Type) where
  job : Option (Job Payload)
  -- How many jobs the key has had.
  issued : Nat
deriving DecidableEq

namespace Slot

variable {Payload : Type}

def empty : Slot Payload := { job := none, issued := 0 }

def live (slot : Slot Payload) : Option (Job Payload) :=
  slot.job.filter fun job => job.phase != .settled

def enqueue (slot : Slot Payload) (payload : Payload) : Slot Payload :=
  match slot.live with
  | some _ => slot
  | none =>
      { job := some { serial := slot.issued, payload := payload, phase := .queued }
        issued := slot.issued + 1 }

def dequeue (slot : Slot Payload) : Option (Slot Payload) :=
  match slot.job with
  | some job =>
      if job.phase = .queued then some { slot with job := some { job with phase := .active } } else none
  | none => none

def settle (slot : Slot Payload) : Option (Slot Payload) :=
  match slot.live with
  | some job => some { slot with job := some { job with phase := .settled } }
  | none => none

-- Whether the job of that number has yet to settle.
def holds (slot : Slot Payload) (serial : Nat) : Bool :=
  slot.live.any fun job => job.serial == serial

theorem enqueue_of_live {slot : Slot Payload} {job : Job Payload} (live : slot.live = some job)
    (payload : Payload) : slot.enqueue payload = slot := by
  simp [enqueue, live]

theorem enqueue_live_of_free {slot : Slot Payload} (free : slot.live = none) (payload : Payload) :
    (slot.enqueue payload).live = some { serial := slot.issued, payload := payload, phase := .queued } := by
  simp only [enqueue, free]
  rfl

theorem holds_iff {slot : Slot Payload} {serial : Nat} :
    slot.holds serial ↔ ∃ job, slot.live = some job ∧ job.serial = serial := by
  cases found : slot.live <;> simp [holds, found]

theorem live_dequeue {slot next : Slot Payload} (dequeued : slot.dequeue = some next) :
    ∃ job, slot.live = some job ∧ next.live = some { job with phase := .active } := by
  cases found : slot.job with
  | none => simp [dequeue, found] at dequeued
  | some job =>
    simp only [dequeue, found, Option.ite_none_right_eq_some, Option.some.injEq] at dequeued
    obtain ⟨queued, rfl⟩ := dequeued
    exact ⟨job, by simp [live, found, queued], by simp [live]⟩

theorem live_settle {slot next : Slot Payload} (settled : slot.settle = some next) : next.live = none := by
  cases found : slot.live with
  | none => simp [settle, found] at settled
  | some job =>
    simp only [settle, found, Option.some.injEq] at settled
    subst settled
    simp [live]

/-- A job that has yet to settle keeps its key whatever is enqueued under it. -/
theorem holds_enqueue {slot : Slot Payload} {serial : Nat} (held : slot.holds serial) (payload : Payload) :
    (slot.enqueue payload).holds serial := by
  obtain ⟨job, live, -⟩ := holds_iff.mp held
  rwa [enqueue_of_live live]

theorem holds_dequeue {slot next : Slot Payload} {serial : Nat} (held : slot.holds serial)
    (dequeued : slot.dequeue = some next) : next.holds serial := by
  obtain ⟨job, live, same⟩ := holds_iff.mp held
  obtain ⟨other, live', live''⟩ := live_dequeue dequeued
  rw [live, Option.some.injEq] at live'
  subst live'
  exact holds_iff.mpr ⟨_, live'', same⟩

/-! ## What happens to a key -/

-- The key's next state, where there is one: nothing, an enqueue, a worker's dequeue or the job's end.
def Moves (slot next : Slot Payload) : Prop :=
  next = slot ∨ (∃ payload, next = slot.enqueue payload) ∨ slot.dequeue = some next ∨
    slot.settle = some next

-- The jobs are numbered in the order they came.
def Numbered (slot : Slot Payload) : Prop :=
  ∀ job, slot.job = some job → job.serial < slot.issued

theorem live_eq_some {slot : Slot Payload} {job : Job Payload} (live : slot.live = some job) :
    slot.job = some job :=
  (Option.filter_eq_some_iff.mp live).1

/-- Only its settling takes the key from a job that has yet to settle. -/
theorem Moves.holds {slot next : Slot Payload} {serial : Nat} (moves : Moves slot next)
    (held : slot.holds serial) : next.holds serial ∨ next.live = none := by
  rcases moves with rfl | ⟨payload, rfl⟩ | dequeued | settled
  · exact .inl held
  · exact .inl (holds_enqueue held payload)
  · exact .inl (holds_dequeue held dequeued)
  · exact .inr (live_settle settled)

theorem Moves.issued_le {slot next : Slot Payload} (moves : Moves slot next) : slot.issued ≤ next.issued := by
  rcases moves with rfl | ⟨payload, rfl⟩ | dequeued | settled
  · exact Nat.le_refl _
  · unfold enqueue
    split <;> simp
  · unfold dequeue at dequeued
    grind
  · unfold settle at settled
    grind

theorem Moves.numbered {slot next : Slot Payload} (moves : Moves slot next) (numbered : Numbered slot) :
    Numbered next := by
  rcases moves with rfl | ⟨payload, rfl⟩ | dequeued | settled
  · exact numbered
  · unfold enqueue
    split
    · exact numbered
    · simp [Numbered]
  · unfold dequeue at dequeued
    grind [Numbered]
  · unfold settle at settled
    grind [Numbered, live_eq_some]

end Slot

end Phaze.Jobs
