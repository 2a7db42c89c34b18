import Phaze.Outbound.Registry
import Phaze.Shared.Texts
import Phaze.Tracklist.Snapshots

set_option autoImplicit false

/-!
# The guard under overlapping reads

`_BoundedEffects.read` in two parts, up to the await and after it. A provider has any number of reads awaited at once,
and the effects answer them in any order.
-/

namespace Phaze.Registry

open Phaze.Outbound Phaze.Percent
open Phaze.Tracklist (SourceRead Text)
open Phaze.Unicode (splitlines)

structure Budget where
  limits : DiscoveryBudget
  -- Of a `LoadBudget` alone.
  maxTracks : Option Nat
deriving DecidableEq

-- What the await of the effects comes to: a value, an `Exception`, or a `CancelledError`, which is none.
inductive Answered where
  | value (read : SourceRead)
  | raised
  | cancelled
deriving DecidableEq

-- A read is known by its number among the reads that were counted.
inductive Event where
  | call (source : SourceReference) (budget : Budget)
  | settle (ticket : Nat) (answered : Answered)
deriving DecidableEq

inductive Reply where
  | forwarded (source : SourceReference) (budget : Budget)
  | returned (read : SourceRead)
  | refused (code : String)
  | cancelled
deriving DecidableEq

structure Guard extends BoundedEffects where
  maxTracks : Option Nat
  awaited : List Nat
deriving DecidableEq

def Guard.new (budget : Budget) (allowed minted : List SourceReference) (maxSearchPage : Nat) : Guard :=
  { BoundedEffects.new budget.limits allowed minted maxSearchPage with maxTracks := budget.maxTracks, awaited := [] }

/-! ## Amounts -/

inductive Amount where
  | bytes
  | characters
  | lines
deriving DecidableEq

def Amount.ofRead : Amount → SourceRead → Nat
  | .bytes, read => read.bytesRead
  | .characters, read => (read.text.getD []).length
  | .lines, read => (splitlines (read.text.getD [])).length

def Amount.cap : Amount → DiscoveryBudget → Nat
  | .bytes, budget => budget.maxBytes
  | .characters, budget => budget.maxCharacters
  | .lines, budget => budget.maxLines

def Amount.counted : Amount → BoundedEffects → Nat
  | .bytes, effects => effects.bytesRead
  | .characters, effects => effects.charactersRead
  | .lines, effects => effects.linesRead

/-! ## A read -/

def Guard.violate (guard : Guard) (code : String) : Guard := { guard with violation := some code }

-- `budget.model_copy(update=remaining)`, after the read was counted
def Guard.remaining (guard : Guard) : Budget where
  limits := { guard.budget with
    maxBytes := guard.budget.maxBytes - guard.bytesRead
    maxCharacters := guard.budget.maxCharacters - guard.charactersRead
    maxLines := guard.budget.maxLines - guard.linesRead
    maxReads := guard.budget.maxReads - guard.reads + 1 }
  maxTracks := guard.maxTracks

def Guard.call (guard : Guard) (source : SourceReference) (budget : Budget) : Guard × Reply :=
  if !guard.authorized source then (guard.violate "unauthorized_read", .refused "unauthorized_read")
  else if budget ≠ { limits := guard.budget, maxTracks := guard.maxTracks } then
    (guard.violate "budget_changed", .refused "budget_changed")
  else
    let guard := { guard with reads := guard.reads + 1 }
    if guard.reads > guard.budget.maxReads then (guard.violate "read_cap", .refused "read_cap")
    else if !guard.remains then (guard.violate "input_cap", .refused "input_cap")
    else ({ guard with awaited := guard.reads :: guard.awaited }, .forwarded source guard.remaining)

def Guard.charged (guard : Guard) (read : SourceRead) : Guard :=
  { guard with
    bytesRead := guard.bytesRead + Amount.bytes.ofRead read
    charactersRead := guard.charactersRead + Amount.characters.ofRead read
    linesRead := guard.linesRead + Amount.lines.ofRead read }

def Guard.exceeds (guard : Guard) : Bool :=
  guard.bytesRead > guard.budget.maxBytes || guard.charactersRead > guard.budget.maxCharacters ||
    guard.linesRead > guard.budget.maxLines

def Guard.resume (guard : Guard) : Answered → Guard × Reply
  | .value read =>
      if !read.valid then (guard.violate "invalid_read", .refused "invalid_read")
      else if (guard.charged read).exceeds then ((guard.charged read).violate "input_cap", .refused "input_cap")
      else (guard.charged read, .returned read)
  | .raised => (guard.violate "invalid_read", .refused "invalid_read")
  | .cancelled => (guard, .cancelled)

-- No read that is not awaited is answered.
def Guard.step (guard : Guard) : Event → Guard × List Reply
  | .call source budget => ((guard.call source budget).1, [(guard.call source budget).2])
  | .settle ticket answered =>
      if ticket ∈ guard.awaited then
        let after := { guard with awaited := guard.awaited.erase ticket }.resume answered
        (after.1, [after.2])
      else (guard, [])

def Guard.run (guard : Guard) : List Event → Guard × List Reply
  | [] => (guard, [])
  | event :: rest =>
      let after := guard.step event
      let later := after.1.run rest
      (later.1, after.2 ++ later.2)

-- What `Outbound.BoundedEffects.read` counts of an answer.
def Answered.answer : Answered → Option Answer
  | .value read =>
      if read.valid then some { bytesRead := Amount.bytes.ofRead read, characters := Amount.characters.ofRead read,
                                lines := Amount.lines.ofRead read }
      else none
  | _ => none

theorem exceeds_charged (guard : Guard) (read : SourceRead) :
    (guard.charged read).exceeds = true ↔ guard.bytesRead + Amount.bytes.ofRead read > guard.budget.maxBytes ∨
      guard.charactersRead + Amount.characters.ofRead read > guard.budget.maxCharacters ∨
      guard.linesRead + Amount.lines.ofRead read > guard.budget.maxLines := by
  simp [Guard.exceeds, Guard.charged, or_assoc]

theorem resume_answer (guard : Guard) {answered : Answered} (finishes : answered ≠ .cancelled) :
    (guard.resume answered).1.toBoundedEffects =
      answered.answer.elim (guard.toBoundedEffects.violate "invalid_read") guard.toBoundedEffects.charge := by
  cases answered with
  | cancelled => exact absurd rfl finishes
  | raised => rfl
  | value read =>
    by_cases valid : read.valid = true
    · simp only [Guard.resume, valid, Bool.not_true, Bool.false_eq_true, if_false, Answered.answer, if_true, Option.elim_some,
        BoundedEffects.charge, exceeds_charged]
      split <;> rfl
    · simp [Guard.resume, Answered.answer, valid, Guard.violate, BoundedEffects.violate]

-- A read that is answered before anything else happens is the sequential one.
theorem sequential_read (guard : Guard) (profiles : List ValidatedProfile) (source : SourceReference) (budget : DiscoveryBudget)
    (world : World) (answered : Answered) (discovers : guard.maxTracks = none) (idle : guard.awaited = [])
    (answer : world.answer = answered.answer) (finishes : answered ≠ .cancelled) :
    (guard.run [.call source { limits := budget, maxTracks := none }, .settle (guard.reads + 1) answered]).1.toBoundedEffects =
      (guard.toBoundedEffects.read profiles { source, budget, world }).1 := by
  have idles (after : Guard) (none : after.awaited = []) : (after.step (.settle (guard.reads + 1) answered)).1 = after := by
    rw [Guard.step, none, if_neg List.not_mem_nil]
  simp only [Guard.run]
  rw [Guard.step, Guard.call, discovers]
  unfold BoundedEffects.read
  split
  next refused =>
    rw [idles (guard.violate "unauthorized_read") idle]
    rfl
  next authorized =>
  by_cases changed : budget ≠ guard.budget
  · rw [if_pos changed, if_pos (by simpa using changed)]
    rw [idles (guard.violate "budget_changed") idle]
    rfl
  · rw [if_neg changed, if_neg (by simpa using changed)]
    simp only
    split
    next =>
      rw [idles]
      · rfl
      · exact idle
    next room =>
    split
    next =>
      rw [idles]
      · rfl
      · exact idle
    next remains =>
      rw [Guard.step, if_pos List.mem_cons_self, answer]
      simp only [resume_answer _ finishes]
      cases answered.answer <;> rfl

/-! ## What the provider has had -/

def Reply.isForwarded : Reply → Bool
  | .forwarded _ _ => true
  | _ => false

def Reply.amount (amount : Amount) : Reply → Nat
  | .returned read => amount.ofRead read
  | _ => 0

def forwards (replies : List Reply) : Nat := replies.countP Reply.isForwarded

def received (amount : Amount) (replies : List Reply) : Nat := (replies.map (Reply.amount amount)).sum

def Refused (replies : List Reply) : Prop := ∃ code, .refused code ∈ replies

@[simp]
theorem forwards_append (replies later : List Reply) : forwards (replies ++ later) = forwards replies + forwards later :=
  List.countP_append

@[simp]
theorem received_append (amount : Amount) (replies later : List Reply) :
    received amount (replies ++ later) = received amount replies + received amount later := by
  simp [received]

@[simp]
theorem refused_append (replies later : List Reply) : Refused (replies ++ later) ↔ Refused replies ∨ Refused later := by
  simp [Refused, exists_or]

-- The reads that were forwarded are counted, what was returned is counted and fits, and a refusal stays on record.
structure Guard.Keeps (guard : Guard) (limits : DiscoveryBudget) (replies : List Reply) : Prop where
  budget : guard.budget = limits
  counted : forwards replies ≤ guard.reads
  forwarded : forwards replies ≤ limits.maxReads
  charged : ∀ amount, received amount replies ≤ amount.counted guard.toBoundedEffects
  received : ∀ amount, received amount replies ≤ amount.cap limits
  refused : Refused replies ↔ guard.violation.isSome = true

theorem keeps_new (budget : Budget) (allowed minted : List SourceReference) (maxSearchPage : Nat) :
    (Guard.new budget allowed minted maxSearchPage).Keeps budget.limits [] where
  budget := rfl
  counted := Nat.zero_le _
  forwarded := Nat.zero_le _
  charged _ := Nat.zero_le _
  received _ := Nat.zero_le _
  refused := by simp [Refused, Guard.new, BoundedEffects.new]

variable {guard : Guard} {limits : DiscoveryBudget} {replies : List Reply}

@[simp]
theorem counted_violate (guard : Guard) (code : String) (amount : Amount) :
    amount.counted (guard.violate code).toBoundedEffects = amount.counted guard.toBoundedEffects := by
  cases amount <;> rfl

@[simp]
theorem counted_reads (effects : BoundedEffects) (reads : Nat) (amount : Amount) :
    amount.counted { effects with reads } = amount.counted effects := by
  cases amount <;> rfl

@[simp]
theorem reads_violate (guard : Guard) (code : String) : (guard.violate code).reads = guard.reads := rfl

theorem Guard.Keeps.refuse (keeps : guard.Keeps limits replies) (code : String) :
    (guard.violate code).Keeps limits (replies ++ [.refused code]) where
  budget := keeps.budget
  counted := by simpa [forwards, Reply.isForwarded] using keeps.counted
  forwarded := by simpa [forwards, Reply.isForwarded] using keeps.forwarded
  charged amount := by simpa [Registry.received, Reply.amount] using keeps.charged amount
  received amount := by simpa [Registry.received, Reply.amount] using keeps.received amount
  refused := by simp [Refused, Guard.violate]

-- Counting a read that is then refused.
theorem Guard.Keeps.count (keeps : guard.Keeps limits replies) :
    Guard.Keeps { guard with reads := guard.reads + 1 } limits replies :=
  { keeps with
    counted := Nat.le_succ_of_le keeps.counted
    charged := fun amount => (counted_reads guard.toBoundedEffects _ amount).symm ▸ keeps.charged amount }

theorem forwards_forwarded (source : SourceReference) (budget : Budget) : forwards [.forwarded source budget] = 1 := rfl

theorem Guard.Keeps.forward (keeps : guard.Keeps limits replies) (room : guard.reads + 1 ≤ guard.budget.maxReads)
    (source : SourceReference) (budget : Budget) :
    Guard.Keeps { guard with reads := guard.reads + 1, awaited := (guard.reads + 1) :: guard.awaited } limits
      (replies ++ [.forwarded source budget]) where
  budget := keeps.budget
  counted := by
    rw [forwards_append, forwards_forwarded]
    exact Nat.succ_le_succ keeps.counted
  forwarded := by
    have counted := keeps.counted
    rw [keeps.budget] at room
    rw [forwards_append, forwards_forwarded]
    omega
  charged amount := by simpa [Registry.received, Reply.amount] using keeps.charged amount
  received amount := by simpa [Registry.received, Reply.amount] using keeps.received amount
  refused := by simpa [Refused] using keeps.refused

theorem call_keeps (keeps : guard.Keeps limits replies) (source : SourceReference) (budget : Budget) :
    (guard.call source budget).1.Keeps limits (replies ++ [(guard.call source budget).2]) := by
  unfold Guard.call
  split
  · exact keeps.refuse _
  split
  · exact keeps.refuse _
  simp only
  split
  · exact keeps.count.refuse _
  split
  · exact keeps.count.refuse _
  next room _ => exact keeps.forward (Nat.le_of_not_lt room) source _

@[simp]
theorem reads_charged (guard : Guard) (read : SourceRead) : (guard.charged read).reads = guard.reads := rfl

@[simp]
theorem budget_charged (guard : Guard) (read : SourceRead) : (guard.charged read).budget = guard.budget := rfl

theorem counted_charged (guard : Guard) (read : SourceRead) (amount : Amount) :
    amount.counted (guard.charged read).toBoundedEffects = amount.counted guard.toBoundedEffects + amount.ofRead read := by
  cases amount <;> rfl

theorem exceeds_iff : guard.exceeds = true ↔ ∃ amount : Amount, amount.cap guard.budget < amount.counted guard.toBoundedEffects := by
  simp only [Guard.exceeds, Bool.or_eq_true, decide_eq_true_eq, gt_iff_lt]
  constructor
  · rintro ((bytes | characters) | lines)
    · exact ⟨.bytes, bytes⟩
    · exact ⟨.characters, characters⟩
    · exact ⟨.lines, lines⟩
  · rintro ⟨amount, exceeds⟩
    cases amount with
    | bytes => exact .inl (.inl exceeds)
    | characters => exact .inl (.inr exceeds)
    | lines => exact .inr exceeds

theorem Guard.Keeps.charge (keeps : guard.Keeps limits replies) (read : SourceRead) :
    (guard.charged read).Keeps limits replies :=
  { budget := keeps.budget
    counted := keeps.counted
    forwarded := keeps.forwarded
    charged := fun amount => (counted_charged guard read amount).symm ▸ Nat.le_add_right_of_le (keeps.charged amount)
    received := keeps.received
    refused := keeps.refused }

-- The counters hold everything that was answered, so what is returned fits whatever else is awaited.
theorem Guard.Keeps.handOver (keeps : guard.Keeps limits replies) (read : SourceRead) (fits : ¬ (guard.charged read).exceeds = true) :
    (guard.charged read).Keeps limits (replies ++ [.returned read]) where
  budget := keeps.budget
  counted := by simpa [forwards, Reply.isForwarded] using keeps.counted
  forwarded := by simpa [forwards, Reply.isForwarded] using keeps.forwarded
  charged amount := by
    have charged := keeps.charged amount
    rw [counted_charged, received_append]
    simpa [Registry.received, Reply.amount] using charged
  received amount := by
    have charged := keeps.charged amount
    have within : ¬ amount.cap limits < amount.counted guard.toBoundedEffects + amount.ofRead read := by
      intro above
      rw [← counted_charged, ← keeps.budget, ← budget_charged guard read] at above
      exact fits (exceeds_iff.mpr ⟨amount, above⟩)
    have single : Registry.received amount [.returned read] = amount.ofRead read := by simp [Registry.received, Reply.amount]
    rw [received_append, single]
    omega
  refused := by
    have refused := keeps.refused
    simpa [Refused, Guard.charged] using refused

theorem resume_keeps (keeps : guard.Keeps limits replies) (answered : Answered) :
    (guard.resume answered).1.Keeps limits (replies ++ [(guard.resume answered).2]) := by
  cases answered with
  | value read =>
    simp only [Guard.resume]
    split
    · exact keeps.refuse _
    split
    · exact (keeps.charge read).refuse _
    next fits => exact keeps.handOver read fits
  | raised => exact keeps.refuse _
  | cancelled =>
    exact
      { budget := keeps.budget
        counted := by simpa [Guard.resume, forwards, Reply.isForwarded] using keeps.counted
        forwarded := by simpa [Guard.resume, forwards, Reply.isForwarded] using keeps.forwarded
        charged := fun amount => by simpa [Guard.resume, Registry.received, Reply.amount] using keeps.charged amount
        received := fun amount => by simpa [Guard.resume, Registry.received, Reply.amount] using keeps.received amount
        refused := by simpa [Guard.resume, Refused] using keeps.refused }

theorem step_keeps (keeps : guard.Keeps limits replies) (event : Event) :
    (guard.step event).1.Keeps limits (replies ++ (guard.step event).2) := by
  cases event with
  | call source budget => exact call_keeps keeps source budget
  | settle ticket answered =>
    rw [Guard.step]
    split
    · have settled : Guard.Keeps { guard with awaited := guard.awaited.erase ticket } limits replies := { keeps with }
      exact resume_keeps settled answered
    · rwa [List.append_nil]

theorem run_keeps (keeps : guard.Keeps limits replies) (events : List Event) :
    (guard.run events).1.Keeps limits (replies ++ (guard.run events).2) := by
  induction events generalizing guard replies with
  | nil => simpa [Guard.run] using keeps
  | cons event rest ih =>
    have later := ih (step_keeps keeps event)
    rwa [List.append_assoc] at later

end Phaze.Registry
