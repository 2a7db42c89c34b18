import Mathlib

set_option autoImplicit false

/-!
# Languages read through a letter map

The words that a letter-by-letter map sends into a language, and languages whose words keep to some letters.
-/

namespace Phaze.Languages

open Computability

variable {α β : Type}

def letters (chosen : α → Prop) : Language α := {word | ∃ letter, chosen letter ∧ word = [letter]}

def pull (read : α → β) (kept : α → Prop) (language : Language β) : Language α :=
  {word | word.map read ∈ language ∧ ∀ letter ∈ word, kept letter}

def within (kept : α → Prop) : Language α := {word | ∀ letter ∈ word, kept letter}

variable {read : α → β} {kept : α → Prop} {left right : Language β}

theorem mem_pull {word : List α} : word ∈ pull read kept left ↔ word.map read ∈ left ∧ ∀ letter ∈ word, kept letter := Iff.rfl

theorem mem_letters {chosen : α → Prop} {word : List α} : word ∈ letters chosen ↔ ∃ letter, chosen letter ∧ word = [letter] :=
  Iff.rfl

theorem pull_add : pull read kept (left + right) = pull read kept left + pull read kept right := by
  ext word
  simp only [mem_pull, Language.mem_add, or_and_right]

theorem pull_one : pull read kept 1 = 1 := by
  ext word
  rw [mem_pull, Language.mem_one, Language.mem_one, List.map_eq_nil_iff]
  constructor
  · intro empty
    exact empty.1
  · rintro rfl
    simp

theorem pull_mul : pull read kept (left * right) = pull read kept left * pull read kept right := by
  ext word
  rw [mem_pull, Language.mem_mul, Language.mem_mul]
  constructor
  · intro both
    obtain ⟨⟨first, inLeft, second, inRight, whole⟩, keeps⟩ := both
    obtain ⟨front, back, rfl, rfl, rfl⟩ := List.map_eq_append_iff.mp whole.symm
    have keepsFront : ∀ letter ∈ front, kept letter := fun letter member => keeps letter (List.mem_append_left _ member)
    have keepsBack : ∀ letter ∈ back, kept letter := fun letter member => keeps letter (List.mem_append_right _ member)
    exact ⟨front, ⟨inLeft, keepsFront⟩, back, ⟨inRight, keepsBack⟩, rfl⟩
  · rintro ⟨front, ⟨inLeft, keepsFront⟩, back, ⟨inRight, keepsBack⟩, rfl⟩
    refine ⟨⟨_, inLeft, _, inRight, List.map_append.symm⟩, ?_⟩
    intro letter member
    obtain first | second := List.mem_append.mp member
    · exact keepsFront letter first
    · exact keepsBack letter second

theorem pull_pow (times : Nat) : pull read kept (left ^ times) = pull read kept left ^ times := by
  induction times with
  | zero => simp only [pow_zero, pull_one]
  | succ times ih => rw [pow_succ, pow_succ, pull_mul, ih]

theorem pull_kstar : pull read kept (KStar.kstar left) = KStar.kstar (pull read kept left) := by
  ext word
  rw [mem_pull, Language.kstar_eq_iSup_pow, Language.kstar_eq_iSup_pow, Language.mem_iSup, Language.mem_iSup]
  constructor
  · intro both
    obtain ⟨⟨times, power⟩, keeps⟩ := both
    have both : word ∈ pull read kept (left ^ times) := ⟨power, keeps⟩
    rw [pull_pow] at both
    exact ⟨times, both⟩
  · intro power
    obtain ⟨times, power⟩ := power
    rw [← pull_pow] at power
    exact ⟨⟨times, power.1⟩, power.2⟩

theorem pull_singleton (letter : β) : pull read kept {[letter]} = letters fun point => read point = letter ∧ kept point := by
  ext word
  rw [mem_pull, mem_letters]
  constructor
  · intro both
    obtain ⟨single, keeps⟩ := both
    obtain ⟨point, rfl, rfl⟩ := List.map_eq_singleton_iff.mp single
    exact ⟨point, ⟨rfl, keeps point (List.mem_singleton.mpr rfl)⟩, rfl⟩
  · rintro ⟨point, ⟨rfl, keeps⟩, rfl⟩
    refine ⟨rfl, ?_⟩
    intro other member
    rwa [List.mem_singleton.mp member]

/-! ## Words of few letters -/

variable {first second : Language α}

theorem add_le_within (left : first ≤ within kept) (right : second ≤ within kept) : first + second ≤ within kept := by
  intro word member
  obtain inFirst | inSecond := member
  · exact left inFirst
  · exact right inSecond

theorem mul_le_within (left : first ≤ within kept) (right : second ≤ within kept) : first * second ≤ within kept := by
  intro word member
  obtain ⟨front, inFirst, back, inSecond, rfl⟩ := Language.mem_mul.mp member
  intro letter present
  obtain before | after := List.mem_append.mp present
  · exact left inFirst letter before
  · exact right inSecond letter after

theorem one_le_within : (1 : Language α) ≤ within kept := by
  intro word member
  obtain rfl := (Language.mem_one word).mp member
  intro letter present
  cases present

theorem kstar_le_within (each : first ≤ within kept) : KStar.kstar first ≤ within kept := by
  intro word member
  obtain ⟨parts, rfl, inside⟩ := Language.mem_kstar.mp member
  intro letter present
  obtain ⟨part, chosen, found⟩ := List.mem_flatten.mp present
  exact each (inside part chosen) letter found

theorem letters_le_within {chosen : α → Prop} (each : ∀ letter, chosen letter → kept letter) : letters chosen ≤ within kept := by
  intro word member
  obtain ⟨letter, holds, rfl⟩ := member
  intro other present
  rw [List.mem_singleton.mp present]
  exact each letter holds

end Phaze.Languages
