import Mathlib
import Phaze.Shared.Unicode

set_option autoImplicit false

/-!
# Calendar dates

Dates of the years 1 to 9999 as `datetime.date` has them: their ordinals, their ISO texts and the ISO texts it reads.
-/

namespace Phaze.Calendar

open Phaze.Percent Phaze.Unicode

def isLeap (year : Nat) : Bool := year % 4 = 0 && (year % 100 ≠ 0 || year % 400 = 0)

def daysInMonth (year month : Nat) : Nat :=
  if month = 2 then if isLeap year then 29 else 28
  else if month = 4 ∨ month = 6 ∨ month = 9 ∨ month = 11 then 30
  else 31

def Legal (year month day : Nat) : Prop :=
  1 ≤ year ∧ year ≤ 9999 ∧ 1 ≤ month ∧ month ≤ 12 ∧ 1 ≤ day ∧ day ≤ daysInMonth year month

instance (year month day : Nat) : Decidable (Legal year month day) := by unfold Legal; infer_instance

structure Date where
  year : Nat
  month : Nat
  day : Nat
  legal : Legal year month day
deriving DecidableEq

-- `date(year, month, day)`, where it does not raise
def date? (year month day : Nat) : Option Date :=
  if legal : Legal year month day then some { year, month, day, legal } else none

theorem date?_eq_some {year month day : Nat} {date : Date} :
    date? year month day = some date ↔ date.year = year ∧ date.month = month ∧ date.day = day := by
  unfold date?
  split
  next legal =>
    constructor
    · intro same
      rw [← Option.some.inj same]
      exact ⟨rfl, rfl, rfl⟩
    · rintro ⟨sameYear, sameMonth, sameDay⟩
      subst sameYear sameMonth sameDay
      rfl
  next illegal =>
    simp only [reduceCtorEq, false_iff]
    rintro ⟨rfl, rfl, rfl⟩
    exact illegal date.legal

/-! ## Ordinals -/

def daysBeforeYear (year : Nat) : Nat := 365 * (year - 1) + (year - 1) / 4 - (year - 1) / 100 + (year - 1) / 400

def daysBeforeMonth (year : Nat) : Nat → Nat
  | 0 => 0
  | month + 1 => if month = 0 then 0 else daysBeforeMonth year month + daysInMonth year month

-- `toordinal`
def Date.ordinal (date : Date) : Nat := daysBeforeYear date.year + daysBeforeMonth date.year date.month + date.day

theorem daysInYear (year : Nat) : daysBeforeMonth year 13 = if isLeap year then 366 else 365 := by
  cases leap : isLeap year <;> simp [daysBeforeMonth, daysInMonth, leap]

theorem daysBeforeMonth_succ {year month : Nat} (positive : 1 ≤ month) :
    daysBeforeMonth year (month + 1) = daysBeforeMonth year month + daysInMonth year month := by
  rw [daysBeforeMonth, if_neg (Nat.ne_of_gt positive)]

theorem daysBeforeMonth_mono {year month later : Nat} (before : month ≤ later) :
    daysBeforeMonth year month ≤ daysBeforeMonth year later := by
  induction later, before using Nat.le_induction with
  | base => exact Nat.le_refl _
  | succ later _ ih =>
    refine Nat.le_trans ih ?_
    cases later with
    | zero => exact Nat.zero_le _
    | succ later =>
      rw [daysBeforeMonth_succ (Nat.succ_le_succ (Nat.zero_le later))]
      exact Nat.le_add_right _ _

theorem daysBeforeYear_succ {year : Nat} (positive : 1 ≤ year) :
    daysBeforeYear (year + 1) = daysBeforeYear year + daysBeforeMonth year 13 := by
  obtain ⟨count, rfl⟩ : ∃ count, year = count + 1 := ⟨year - 1, by omega⟩
  have fewer : count / 100 ≤ count / 4 := Nat.div_le_div_left (by decide) (by decide)
  have four : (count + 1) / 4 = count / 4 + if (count + 1) % 4 = 0 then 1 else 0 := by split <;> omega
  have hundred : (count + 1) / 100 = count / 100 + if (count + 1) % 100 = 0 then 1 else 0 := by split <;> omega
  have fourHundred : (count + 1) / 400 = count / 400 + if (count + 1) % 400 = 0 then 1 else 0 := by split <;> omega
  have nested : (count + 1) % 100 = 0 → (count + 1) % 4 = 0 := by omega
  have deeper : (count + 1) % 400 = 0 → (count + 1) % 100 = 0 := by omega
  rw [daysInYear]
  simp only [daysBeforeYear, Nat.add_sub_cancel, isLeap, four, hundred, fourHundred]
  by_cases leapFour : (count + 1) % 4 = 0
  · by_cases leapHundred : (count + 1) % 100 = 0
    · by_cases leapFourHundred : (count + 1) % 400 = 0
      · simp only [leapFour, leapHundred, leapFourHundred, if_true, decide_true, ne_eq, not_true, decide_false, Bool.false_or, Bool.and_true]
        omega
      · simp only [leapFour, leapHundred, leapFourHundred, if_true, if_false, decide_true, ne_eq, not_true, decide_false, Bool.or_self,
          Bool.and_false, Bool.false_eq_true]
        omega
    · have plain : ¬ (count + 1) % 400 = 0 := fun round => leapHundred (deeper round)
      simp only [leapFour, leapHundred, plain, if_true, if_false, decide_true, ne_eq, not_false_eq_true, Bool.true_or, Bool.and_true]
      omega
  · have plain : ¬ (count + 1) % 100 = 0 := fun round => leapFour (nested round)
    have plainer : ¬ (count + 1) % 400 = 0 := fun round => plain (deeper round)
    simp only [leapFour, plain, plainer, if_false, decide_false, Bool.false_and, Bool.false_eq_true]
    omega

theorem daysBeforeYear_mono {year later : Nat} (positive : 1 ≤ year) (before : year ≤ later) :
    daysBeforeYear year ≤ daysBeforeYear later := by
  induction later, before using Nat.le_induction with
  | base => exact Nat.le_refl _
  | succ later started ih =>
    rw [daysBeforeYear_succ (Nat.le_trans positive started)]
    exact Nat.le_trans ih (Nat.le_add_right _ _)

theorem Date.ordinal_le_year (date : Date) : date.ordinal ≤ daysBeforeYear (date.year + 1) := by
  obtain ⟨year, _, month, _, _, day⟩ := date.legal
  have whole : daysBeforeMonth date.year (date.month + 1) ≤ daysBeforeMonth date.year 13 := daysBeforeMonth_mono (by omega)
  rw [daysBeforeMonth_succ month] at whole
  rw [Date.ordinal, daysBeforeYear_succ year]
  omega

theorem Date.year_of_ordinal {date other : Date} (same : date.ordinal = other.ordinal) : date.year ≤ other.year := by
  by_contra later
  have upper := other.ordinal_le_year
  have mono := daysBeforeYear_mono (Nat.le_add_left 1 other.year) (Nat.lt_of_not_le later)
  have positive := date.legal.2.2.2.2.1
  have spread : date.ordinal = daysBeforeYear date.year + daysBeforeMonth date.year date.month + date.day := rfl
  omega

theorem Date.month_of_ordinal {date other : Date} (same : date.ordinal = other.ordinal) (year : date.year = other.year) :
    date.month ≤ other.month := by
  by_contra later
  have mono : daysBeforeMonth other.year other.month.succ ≤ daysBeforeMonth other.year date.month :=
    daysBeforeMonth_mono (Nat.lt_of_not_le later)
  rw [Nat.succ_eq_add_one, daysBeforeMonth_succ other.legal.2.2.1] at mono
  have upper := other.legal.2.2.2.2.2
  have positive := date.legal.2.2.2.2.1
  simp only [Date.ordinal, year] at same
  omega

theorem Date.ordinal_injective : Function.Injective Date.ordinal := by
  intro date other same
  have year := Nat.le_antisymm (Date.year_of_ordinal same) (Date.year_of_ordinal same.symm)
  have month := Nat.le_antisymm (Date.month_of_ordinal same year) (Date.month_of_ordinal same.symm year.symm)
  have day : date.day = other.day := by
    simp only [Date.ordinal, year, month] at same
    omega
  cases date
  cases other
  simp_all

/-! ## Digits of a fixed width -/

def digit (value : Nat) : CodePoint := .scalar (Char.ofNat (0x30 + value))

-- `f"{number:0{width}d}"` of a number that is not wider.
def fixed : Nat → Nat → Str
  | 0, _ => []
  | width + 1, number => fixed width (number / 10) ++ [digit (number % 10)]

def readDigits (text : Str) : Nat := text.foldl (fun number point => 10 * number + (code point - 0x30)) 0

def fixedNumber (width : Nat) (text : Str) : Option Nat :=
  if text.length = width ∧ text.all isAsciiDigit = true then some (readDigits text) else none

theorem code_digit {value : Nat} (small : value < 10) : code (digit value) = 0x30 + value := by
  interval_cases value <;> rfl

theorem code_injective : Function.Injective code := by
  intro point other same
  cases point with
  | scalar char =>
    cases other with
    | scalar char' => exact congrArg _ (Char.toNat_inj.mp same)
    | surrogate value =>
      have valid := char.valid
      simp only [code, Char.toNat, UInt32.isValidChar, Nat.isValidChar] at same valid
      omega
  | surrogate value =>
    cases other with
    | scalar char =>
      have valid := char.valid
      simp only [code, Char.toNat, UInt32.isValidChar, Nat.isValidChar] at same valid
      omega
    | surrogate value' =>
      have equal : value.val = value'.val := by
        simp only [code] at same
        omega
      exact congrArg _ (Fin.ext equal)

theorem isAsciiDigit_digit {value : Nat} (small : value < 10) : isAsciiDigit (digit value) = true := by
  rw [isAsciiDigit, code_digit small]
  simp only [Bool.and_eq_true, decide_eq_true_eq]
  omega

theorem digit_code {point : CodePoint} (ascii : isAsciiDigit point = true) :
    ∃ value < 10, code point - 0x30 = value ∧ point = digit value := by
  simp only [isAsciiDigit, Bool.and_eq_true, decide_eq_true_eq] at ascii
  refine ⟨code point - 0x30, by omega, rfl, code_injective ?_⟩
  rw [code_digit (by omega)]
  omega

@[simp]
theorem length_fixed (width number : Nat) : (fixed width number).length = width := by
  induction width generalizing number with
  | zero => rfl
  | succ width ih => rw [fixed, List.length_append, ih, List.length_singleton]

theorem ascii_fixed {width number : Nat} {point : CodePoint} (member : point ∈ fixed width number) : isAsciiDigit point = true := by
  induction width generalizing number with
  | zero => exact absurd member List.not_mem_nil
  | succ width ih =>
    rw [fixed, List.mem_append, List.mem_singleton] at member
    obtain before | rfl := member
    · exact ih before
    · exact isAsciiDigit_digit (Nat.mod_lt _ (by decide))

theorem readDigits_snoc (text : Str) (point : CodePoint) : readDigits (text ++ [point]) = 10 * readDigits text + (code point - 0x30) := by
  simp [readDigits, List.foldl_append]

theorem readDigits_fixed {width number : Nat} (narrow : number < 10 ^ width) : readDigits (fixed width number) = number := by
  induction width generalizing number with
  | zero =>
    rw [Nat.pow_zero, Nat.lt_one_iff] at narrow
    exact narrow.symm
  | succ width ih =>
    have small : number / 10 < 10 ^ width := Nat.div_lt_of_lt_mul (by rwa [Nat.pow_succ, Nat.mul_comm] at narrow)
    have rest : readDigits (fixed width (number / 10)) = number / 10 := ih small
    rw [fixed, readDigits_snoc, rest, code_digit (Nat.mod_lt _ (by decide))]
    omega

theorem fixedNumber_fixed {width number : Nat} (narrow : number < 10 ^ width) : fixedNumber width (fixed width number) = some number := by
  rw [fixedNumber, if_pos ⟨length_fixed width number, List.all_eq_true.mpr fun _ => ascii_fixed⟩, readDigits_fixed narrow]

theorem fixed_readDigits {text : Str} (ascii : ∀ point ∈ text, isAsciiDigit point = true) :
    text = fixed text.length (readDigits text) ∧ readDigits text < 10 ^ text.length := by
  induction text using List.reverseRecOn with
  | nil => exact ⟨rfl, Nat.one_pos⟩
  | append_singleton text point ih =>
    obtain ⟨same, narrow⟩ := ih fun other member => ascii other (List.mem_append_left _ member)
    obtain ⟨value, small, read, rfl⟩ := digit_code (ascii point (List.mem_append_right _ (List.mem_singleton_self point)))
    have number : readDigits (text ++ [digit value]) = 10 * readDigits text + value := by rw [readDigits_snoc, read]
    rw [number, List.length_append, List.length_singleton, fixed, Nat.pow_succ]
    constructor
    · rw [show (10 * readDigits text + value) / 10 = readDigits text by omega, show (10 * readDigits text + value) % 10 = value by omega,
        ← same]
    · omega

theorem fixedNumber_some {width number : Nat} {text : Str} (read : fixedNumber width text = some number) :
    text = fixed width number ∧ number < 10 ^ width := by
  rw [fixedNumber] at read
  split at read
  next both =>
    obtain ⟨rfl, ascii⟩ := both
    rw [← Option.some.inj read]
    exact fixed_readDigits (List.all_eq_true.mp ascii)
  next => cases read

/-! ## ISO texts -/

def hyphen : CodePoint := .scalar '-'

def weekMark : CodePoint := .scalar 'W'

-- `isoformat`
def Date.isoFormat (date : Date) : Str := fixed 4 date.year ++ hyphen :: (fixed 2 date.month ++ hyphen :: fixed 2 date.day)

-- `_isoweek_to_gregorian`: the week 53 is one of the years that begin on a Thursday, or on a Wednesday in a leap year.
def hasWeek (year week : Nat) : Bool :=
  let first := (daysBeforeYear year + 1) % 7
  0 < week && (week < 53 || (week = 53 && (first = 4 || (first = 3 && isLeap year))))

def weekOrdinal (year week day : Nat) : Option Nat :=
  let first := daysBeforeYear year + 1
  let monday := first - (first + 6) % 7 + if (first + 6) % 7 > 3 then 7 else 0
  let ordinal := monday + 7 * (week - 1) + (day - 1)
  if 1 ≤ year ∧ hasWeek year week = true ∧ 0 < day ∧ day < 8 ∧ ordinal ≤ 3652059 then some ordinal else none

-- Without the mark of a separator, the rest follows at once.
def afterSeparator (separated : Bool) (rest : Str) : Option Str :=
  if separated then if rest.head? = some hyphen then some (rest.drop 1) else none else some rest

-- The ordinal of what `date.fromisoformat` returns.
def fromIsoFormat (text : Str) : Option Nat := do
  let year ← fixedNumber 4 (text.take 4)
  let separated := decide ((text.drop 4).head? = some hyphen)
  let rest := if separated then text.drop 5 else text.drop 4
  if rest.head? = some weekMark then do
    let week ← fixedNumber 2 ((rest.drop 1).take 2)
    if rest.drop 3 = [] then weekOrdinal year week 1
    else do
      let day ← (afterSeparator separated (rest.drop 3)).bind (fixedNumber 1)
      weekOrdinal year week day
  else do
    let month ← fixedNumber 2 (rest.take 2)
    let day ← (afterSeparator separated (rest.drop 2)).bind (fixedNumber 2)
    (date? year month day).map Date.ordinal

-- The texts that are read.
inductive IsoText : Str → Nat → Prop where
  | extended (date : Date) : IsoText date.isoFormat date.ordinal
  | compact (date : Date) : IsoText (fixed 4 date.year ++ (fixed 2 date.month ++ fixed 2 date.day)) date.ordinal
  | week (year week number ordinal : Nat) (separator day : Str) (known : separator = [] ∨ separator = [hyphen])
      (last : day = [] ∧ number = 1 ∨ day = separator ++ fixed 1 number) (same : weekOrdinal year week number = some ordinal) :
      IsoText (fixed 4 year ++ (separator ++ weekMark :: (fixed 2 week ++ day))) ordinal

def separatorOf (separated : Bool) : Str := if separated then [hyphen] else []

theorem afterSeparator_some {separated : Bool} {rest last : Str} (after : afterSeparator separated rest = some last) :
    rest = separatorOf separated ++ last := by
  cases separated with
  | false => exact Option.some.inj after
  | true =>
    simp only [afterSeparator, if_true] at after
    split at after
    next head =>
      obtain ⟨later, rfl⟩ := List.head?_eq_some_iff.mp head
      rw [← Option.some.inj after]
      rfl
    next => cases after

theorem fromIsoFormat_some {text : Str} {ordinal : Nat} (read : fromIsoFormat text = some ordinal) : IsoText text ordinal := by
  rw [fromIsoFormat, Option.bind_eq_bind, Option.bind_eq_some_iff] at read
  obtain ⟨year, yearRead, read⟩ := read
  obtain ⟨separated, mark⟩ : ∃ separated, decide ((text.drop 4).head? = some hyphen) = separated := ⟨_, rfl⟩
  obtain ⟨rest, split⟩ : ∃ rest, (if separated then text.drop 5 else text.drop 4) = rest := ⟨_, rfl⟩
  have spread : text = fixed 4 year ++ (separatorOf separated ++ rest) := by
    rw [← (fixedNumber_some yearRead).1]
    cases separated with
    | false =>
      rw [← split]
      exact (List.take_append_drop 4 text).symm
    | true =>
      obtain ⟨later, cut⟩ := List.head?_eq_some_iff.mp (of_decide_eq_true mark)
      have same : rest = later := by
        rw [← split, if_pos rfl, show 5 = 4 + 1 from rfl, ← List.drop_drop, cut]
        rfl
      rw [same]
      exact (cut ▸ List.take_append_drop 4 text).symm
  simp only [mark, split] at read
  rw [spread]
  split at read
  next marked =>
    obtain ⟨later, rfl⟩ := List.head?_eq_some_iff.mp marked
    rw [Option.bind_eq_some_iff] at read
    obtain ⟨week, weekRead, read⟩ := read
    have known : separatorOf separated = [] ∨ separatorOf separated = [hyphen] := by cases separated <;> simp [separatorOf]
    have numbered : later = fixed 2 week ++ later.drop 2 := by
      rw [← (fixedNumber_some weekRead).1]
      exact (List.take_append_drop 2 later).symm
    rw [numbered]
    split at read
    next last => exact .week year week 1 ordinal _ _ known (.inl ⟨last, rfl⟩) read
    next =>
      rw [Option.bind_eq_some_iff] at read
      obtain ⟨number, dayRead, read⟩ := read
      obtain ⟨last, after, dayRead⟩ := Option.bind_eq_some_iff.mp dayRead
      have day : later.drop 2 = separatorOf separated ++ fixed 1 number := by
        rw [← (fixedNumber_some dayRead).1]
        exact afterSeparator_some after
      exact .week year week number ordinal _ _ known (.inr day) read
  next =>
    rw [Option.bind_eq_some_iff] at read
    obtain ⟨month, monthRead, read⟩ := read
    rw [Option.bind_eq_some_iff] at read
    obtain ⟨day, dayRead, read⟩ := read
    obtain ⟨last, after, dayRead⟩ := Option.bind_eq_some_iff.mp dayRead
    obtain ⟨date, made, rfl⟩ := Option.map_eq_some_iff.mp read
    obtain ⟨rfl, rfl, rfl⟩ := date?_eq_some.mp made
    have whole : rest = fixed 2 date.month ++ (separatorOf separated ++ fixed 2 date.day) := by
      rw [← (fixedNumber_some monthRead).1, ← (fixedNumber_some dayRead).1, ← afterSeparator_some after]
      exact (List.take_append_drop 2 rest).symm
    rw [whole]
    cases separated with
    | false => exact .compact date
    | true => exact .extended date

theorem Date.bounds (date : Date) : date.year < 10 ^ 4 ∧ date.month < 10 ^ 2 ∧ date.day < 10 ^ 2 := by
  obtain ⟨_, year, _, month, _, day⟩ := date.legal
  have most : daysInMonth date.year date.month ≤ 31 := by
    unfold daysInMonth
    split
    · split <;> decide
    · split <;> decide
  exact ⟨by omega, by omega, by omega⟩

theorem take_fixed (width number : Nat) (rest : Str) : (fixed width number ++ rest).take width = fixed width number := by
  rw [List.take_left' (length_fixed width number)]

theorem drop_fixed (width number : Nat) (rest : Str) : (fixed width number ++ rest).drop width = rest := by
  rw [List.drop_left' (length_fixed width number)]

theorem digit_ne {point : CodePoint} (ascii : isAsciiDigit point = true) : point ≠ hyphen ∧ point ≠ weekMark := by
  constructor
  · rintro rfl
    exact absurd ascii (by decide)
  · rintro rfl
    exact absurd ascii (by decide)

theorem head_fixed {width number : Nat} (rest : Str) : ∃ point, (fixed (width + 1) number ++ rest).head? = some point ∧
    isAsciiDigit point = true := by
  cases same : fixed (width + 1) number with
  | nil => exact absurd (congrArg List.length same) (by simp)
  | cons point later => exact ⟨point, rfl, ascii_fixed (same ▸ List.mem_cons_self)⟩

theorem fromIsoFormat_isoFormat (date : Date) : fromIsoFormat date.isoFormat = some date.ordinal := by
  obtain ⟨year, month, day⟩ := date.bounds
  have after : date.isoFormat.drop 5 = fixed 2 date.month ++ hyphen :: fixed 2 date.day := by
    rw [Date.isoFormat, show 5 = 4 + 1 from rfl, ← List.drop_drop, drop_fixed]
    rfl
  have first : date.isoFormat.drop 4 = hyphen :: (fixed 2 date.month ++ hyphen :: fixed 2 date.day) := by rw [Date.isoFormat, drop_fixed]
  have leading : ∃ point, (fixed 2 date.month ++ hyphen :: fixed 2 date.day).head? = some point ∧ isAsciiDigit point = true :=
    head_fixed (hyphen :: fixed 2 date.day)
  obtain ⟨point, head, ascii⟩ := leading
  have unmarked : ¬ (some point = some weekMark) := fun marked => (digit_ne ascii).2 (Option.some.inj marked)
  rw [fromIsoFormat, after, first, Date.isoFormat, take_fixed, fixedNumber_fixed year]
  simp only [List.head?_cons, decide_true, if_true, Option.bind_eq_bind, Option.bind_some, head, if_neg unmarked, take_fixed,
    fixedNumber_fixed month, drop_fixed, afterSeparator, List.drop_succ_cons, List.drop_zero, fixedNumber_fixed day]
  rw [date?_eq_some.mpr ⟨rfl, rfl, rfl⟩, Option.map_some]

end Phaze.Calendar
