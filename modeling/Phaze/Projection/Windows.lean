import Mathlib

set_option autoImplicit false

/-!
# Windows of the set projection

The windows that `services/set_projection.py` aggregates, the Camelot wheel and the modal code. Times and energies
are exact rationals.
-/

namespace Phaze.Projection

-- A row of `analysis_window`; scores, tempo and features are not read here.
structure Window where
  tier : String
  windowIndex : Int
  startSec : ℚ
  endSec : ℚ
  musicalKey : Option String
  energy : Option ℚ
deriving DecidableEq

/-! ## The wheel -/

def camelotTable : List (String × String) :=
  [("A minor", "8A"), ("C major", "8B"), ("E minor", "9A"), ("G major", "9B"), ("B minor", "10A"), ("D major", "10B"), ("F# minor", "11A"),
    ("A major", "11B"), ("C# minor", "12A"), ("E major", "12B"), ("G# minor", "1A"), ("B major", "1B"), ("D# minor", "2A"),
    ("F# major", "2B"), ("A# minor", "3A"), ("C# major", "3B"), ("F minor", "4A"), ("G# major", "4B"), ("C minor", "5A"),
    ("D# major", "5B"), ("G minor", "6A"), ("A# major", "6B"), ("D minor", "7A"), ("F major", "7B")]

def enharmonicAliases : List (String × String) :=
  [("Ab minor", "G# minor"), ("Ab major", "G# major"), ("Eb minor", "D# minor"), ("Eb major", "D# major"), ("Bb minor", "A# minor"),
    ("Bb major", "A# major"), ("Db minor", "C# minor"), ("Db major", "C# major"), ("Gb minor", "F# minor"), ("Gb major", "F# major")]

def camelotCode (musicalKey : Option String) : Option String :=
  musicalKey.bind fun key => if key = "" then none else camelotTable.lookup ((enharmonicAliases.lookup key).getD key)

def Window.camelot (window : Window) : Option String := camelotCode window.musicalKey

def Window.keyed (window : Window) : Bool := window.camelot.isSome

-- `int(code[:-1])` of a code of ASCII digits.
def numberPart (code : String) : Option Nat :=
  let digits := code.toList.dropLast
  if digits ≠ [] ∧ digits.all Char.isDigit = true then some (Nat.ofDigitChars 10 digits 0) else none

def camelotNumber (code : Option String) : Option Nat :=
  code.bind fun code => if code.length < 2 then none else numberPart code

def wheelAdjacent (left right : String) : Bool :=
  match camelotNumber (some left), camelotNumber (some right) with
  | some first, some second =>
      if left.toList.getLast? = right.toList.getLast? then
        ((first : Int) - second) % 12 = 1 ∨ ((first : Int) - second) % 12 = 11
      else first = second
  | _, _ => false

/-! ## The modal code -/

-- The seconds that a window adds to its code.
def Window.weight (window : Window) : ℚ := max 0 (window.endSec - window.startSec)

def addWeight (code : String) (seconds : ℚ) : List (String × ℚ) → List (String × ℚ)
  | [] => [(code, 0 + seconds)]
  | (other, sum) :: rest => if other = code then (other, sum + seconds) :: rest else (other, sum) :: addWeight code seconds rest

-- Codes in the order of their first window, as the dict has them.
def weights (windows : List Window) : List (String × ℚ) :=
  windows.foldl (fun sums window => window.camelot.elim sums fun code => addWeight code window.weight sums) []

def modalCamelot (windows : List Window) : Option String :=
  ((weights windows).find? fun entry => (weights windows).all fun other => other.2 ≤ entry.2).map Prod.fst

def totalWeight (code : String) (windows : List Window) : ℚ :=
  ((windows.filter fun window => window.camelot = some code).map Window.weight).sum

-- Every sum is the weight of its code, and every code of a window has one.
structure Weighed (windows : List Window) (totals : List (String × ℚ)) : Prop where
  sums : ∀ entry ∈ totals, entry.2 = totalWeight entry.1 windows
  distinct : (totals.map Prod.fst).Nodup
  codes : ∀ code, code ∈ totals.map Prod.fst ↔ ∃ window ∈ windows, window.camelot = some code

theorem addWeight_codes (code : String) (seconds : ℚ) (sums : List (String × ℚ)) :
    (addWeight code seconds sums).map Prod.fst = if code ∈ sums.map Prod.fst then sums.map Prod.fst else sums.map Prod.fst ++ [code] := by
  induction sums with
  | nil => rfl
  | cons entry rest ih =>
    rw [addWeight]
    split
    next same => simp [same]
    next other =>
      rw [List.map_cons, ih]
      by_cases later : code ∈ rest.map Prod.fst
      · simp [later]
      · simp [later, Ne.symm other]

theorem mem_addWeight {code : String} {seconds : ℚ} {sums : List (String × ℚ)} (distinct : (sums.map Prod.fst).Nodup) {entry : String × ℚ}
    (member : entry ∈ addWeight code seconds sums) :
    (entry.1 ≠ code ∧ entry ∈ sums) ∨ (entry.1 = code ∧ ((code ∉ sums.map Prod.fst ∧ entry.2 = seconds) ∨
      ∃ sum, (code, sum) ∈ sums ∧ entry.2 = sum + seconds)) := by
  induction sums with
  | nil =>
    obtain rfl := List.mem_singleton.mp member
    exact .inr ⟨rfl, .inl ⟨List.not_mem_nil, zero_add seconds⟩⟩
  | cons first rest ih =>
    rw [List.map_cons, List.nodup_cons] at distinct
    rw [addWeight] at member
    split at member
    next same =>
      obtain rfl | later := List.mem_cons.mp member
      · exact .inr ⟨same, .inr ⟨first.2, same ▸ List.mem_cons_self, rfl⟩⟩
      · have apart : entry.1 ≠ code := by
          intro alike
          exact distinct.1 (same ▸ alike ▸ List.mem_map_of_mem later)
        exact .inl ⟨apart, List.mem_cons_of_mem _ later⟩
    next other =>
      obtain rfl | later := List.mem_cons.mp member
      · exact .inl ⟨other, List.mem_cons_self⟩
      · obtain ⟨apart, inside⟩ | ⟨same, fresh | ⟨sum, inside, added⟩⟩ := ih distinct.2 later
        · exact .inl ⟨apart, List.mem_cons_of_mem _ inside⟩
        · refine .inr ⟨same, .inl ⟨?_, fresh.2⟩⟩
          simpa [Ne.symm other] using fresh.1
        · exact .inr ⟨same, .inr ⟨sum, List.mem_cons_of_mem _ inside, added⟩⟩

theorem totalWeight_append (code : String) (windows : List Window) (window : Window) :
    totalWeight code (windows ++ [window]) = totalWeight code windows + if window.camelot = some code then window.weight else 0 := by
  rw [totalWeight, List.filter_append, List.map_append, List.sum_append, totalWeight]
  by_cases same : window.camelot = some code
  · simp [same]
  · simp [same]

theorem totalWeight_absent {code : String} {windows : List Window} (absent : ¬ ∃ window ∈ windows, window.camelot = some code) :
    totalWeight code windows = 0 := by
  have none : windows.filter (fun window => decide (window.camelot = some code)) = [] := by
    rw [List.filter_eq_nil_iff]
    intro window member same
    exact absent ⟨window, member, of_decide_eq_true same⟩
  rw [totalWeight, none]
  rfl

theorem Weighed.next {windows : List Window} {sums : List (String × ℚ)} (weighed : Weighed windows sums) (window : Window) :
    Weighed (windows ++ [window]) (window.camelot.elim sums fun code => addWeight code window.weight sums) := by
  cases code : window.camelot with
  | none =>
    refine ⟨fun entry member => ?_, weighed.distinct, fun other => ?_⟩
    · rw [totalWeight_append, code]
      simpa using weighed.sums entry member
    · simp [weighed.codes, code]
  | some code' =>
    refine ⟨fun entry member => ?_, ?_, fun other => ?_⟩
    · rw [totalWeight_append, code]
      obtain ⟨apart, inside⟩ | ⟨rfl, ⟨absent, same⟩ | ⟨sum, inside, same⟩⟩ := mem_addWeight weighed.distinct member
      · simpa [Ne.symm apart] using weighed.sums entry inside
      · rw [weighed.codes] at absent
        simp [totalWeight_absent absent, same]
      · have total : sum = totalWeight entry.1 windows := weighed.sums (entry.1, sum) inside
        rw [same, total, if_pos rfl]
    · rw [Option.elim_some, addWeight_codes]
      split
      · exact weighed.distinct
      next absent => exact weighed.distinct.append (List.nodup_singleton _) (by simpa using absent)
    · rw [Option.elim_some, addWeight_codes]
      have before := weighed.codes other
      split
      next present =>
        rw [before]
        constructor
        · rintro ⟨earlier, member, same⟩
          exact ⟨earlier, List.mem_append_left _ member, same⟩
        · rintro ⟨earlier, member, same⟩
          obtain first | last := List.mem_append.mp member
          · exact ⟨earlier, first, same⟩
          · rw [List.mem_singleton.mp last, code] at same
            exact (weighed.codes other).mp (Option.some.inj same ▸ present)
      next => simp [before, or_and_right, exists_or, code, eq_comm]

theorem weights_weighed (windows : List Window) : Weighed windows (weights windows) := by
  induction windows using List.reverseRecOn with
  | nil => exact ⟨fun _ member => absurd member List.not_mem_nil, List.nodup_nil, fun _ => by simp [weights]⟩
  | append_singleton windows window ih =>
    rw [weights, List.foldl_append, List.foldl_cons, List.foldl_nil]
    exact ih.next window

-- The code of the most seconds, whichever windows it has.
theorem modalCamelot_most {windows : List Window} {code : String} (modal : modalCamelot windows = some code) :
    (∃ window ∈ windows, window.camelot = some code) ∧
      ∀ window ∈ windows, ∀ other, window.camelot = some other → totalWeight other windows ≤ totalWeight code windows := by
  have weighed := weights_weighed windows
  obtain ⟨entry, found, rfl⟩ := Option.map_eq_some_iff.mp modal
  have inside := List.mem_of_find?_eq_some found
  have all : ((weights windows).all fun other => other.2 ≤ entry.2) = true := by
    have test := List.find?_some found
    exact test
  have most := List.all_eq_true.mp all
  refine ⟨(weighed.codes entry.1).mp (List.mem_map_of_mem inside), fun window member other same => ?_⟩
  obtain ⟨rival, present, rfl⟩ := List.mem_map.mp ((weighed.codes other).mpr ⟨window, member, same⟩)
  rw [← weighed.sums entry inside, ← weighed.sums rival present]
  exact of_decide_eq_true (most rival present)

theorem modalCamelot_none {windows : List Window} : modalCamelot windows = none ↔ ∀ window ∈ windows, window.camelot = none := by
  have weighed := weights_weighed windows
  rw [modalCamelot, Option.map_eq_none_iff, List.find?_eq_none]
  constructor
  · intro none window member
    cases same : window.camelot with
    | none => rfl
    | some code =>
      obtain ⟨entry, present, -⟩ := List.mem_map.mp ((weighed.codes code).mpr ⟨window, member, same⟩)
      have some : (weights windows).toFinset.Nonempty := ⟨entry, List.mem_toFinset.mpr present⟩
      obtain ⟨most, inside, above⟩ := Finset.exists_max_image _ Prod.snd some
      have all : ((weights windows).all fun other => other.2 ≤ most.2) = true :=
        List.all_eq_true.mpr fun other member => decide_eq_true (above other (List.mem_toFinset.mpr member))
      exact absurd all (none most (List.mem_toFinset.mp inside))
  · intro none entry member
    obtain ⟨window, present, same⟩ := (weighed.codes entry.1).mp (List.mem_map_of_mem member)
    rw [none window present] at same
    cases same

end Phaze.Projection
