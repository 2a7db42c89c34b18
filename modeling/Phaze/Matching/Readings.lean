import Phaze.Matching.Assessment

set_option autoImplicit false

/-!
# Readings of dates

The days that the text of a date may mean, whichever form it has, and what the comparison makes of each form.
-/

namespace Phaze.Matching

open Phaze.Calendar Phaze.Percent Phaze.Unicode
open Phaze.Tracklist (Certainty Fact Text)

-- The days of a month, by their ordinals.
def daysOfMonth (year month : Nat) : Set Nat := {day | ∃ date : Date, date.year = year ∧ date.month = month ∧ date.ordinal = day}

def daysOfYear (year : Nat) : Set Nat := {day | ∃ date : Date, date.year = year ∧ date.ordinal = day}

-- Numeric forms have a reading for each order of the day and the month.
inductive Reading (text : Text) : Set Nat → Prop where
  | standard {day : Nat} (read : fromIsoFormat text = some day) : Reading text {day}
  | day {year month last : Text} {date : Date} (groups : isoGroups text = some (year, some month, some last))
      (dated : date? (int year) (int month) (int last) = some date) : Reading text {date.ordinal}
  | month {year month : Text} (groups : isoGroups text = some (year, some month, none)) (known : 1 ≤ int month ∧ int month ≤ 12) :
      Reading text (daysOfMonth (int year) (int month))
  | year {year : Text} (groups : isoGroups text = some (year, none, none)) : Reading text (daysOfYear (int year))
  | dayFirst {first second year : Text} {date : Date} (groups : numericGroups text = some (first, second, year))
      (dated : date? (int year) (int second) (int first) = some date) : Reading text {date.ordinal}
  | monthFirst {first second year : Text} {date : Date} (groups : numericGroups text = some (first, second, year))
      (dated : date? (int year) (int first) (int second) = some date) : Reading text {date.ordinal}

def Reads (fact : Fact) (days : Set Nat) : Prop := ∃ value, fact.value = some value ∧ value ≠ [] ∧ Reading (shown value) days

def Extended (text : Text) : Prop := ∃ date : Date, text = date.isoFormat

/-! ## Forms -/

section

variable {splits : CodePoint → Bool} {text first second : Text} {rest : List Text}

theorem splitOnP_first (cut : text.splitOnP splits = first :: second :: rest) :
    ∃ separator later, text = first ++ separator :: later ∧ splits separator = true ∧ later.splitOnP splits = second :: rest := by
  induction text generalizing first with
  | nil => simp at cut
  | cons point text ih =>
    rw [List.splitOnP_cons_eq_if_modifyHead] at cut
    split at cut
    next separates =>
      obtain ⟨rfl, later⟩ := List.cons.inj cut
      exact ⟨point, text, rfl, separates, later⟩
    next =>
      cases same : text.splitOnP splits with
      | nil => exact absurd same (List.splitOnP_ne_nil _ _)
      | cons head tail =>
        rw [same, List.modifyHead_cons] at cut
        obtain ⟨rfl, rfl⟩ := List.cons.inj cut
        obtain ⟨separator, later, rfl, separates, cut⟩ := ih same
        exact ⟨separator, later, rfl, separates, cut⟩

theorem splitOnP_single (cut : text.splitOnP splits = [first]) : text = first := by
  induction text generalizing first with
  | nil => simpa using cut
  | cons point text ih =>
    rw [List.splitOnP_cons_eq_if_modifyHead] at cut
    split at cut
    next => exact absurd (List.cons.inj cut).2 (List.splitOnP_ne_nil _ _)
    next =>
      cases same : text.splitOnP splits with
      | nil => exact absurd same (List.splitOnP_ne_nil _ _)
      | cons head tail =>
        rw [same, List.modifyHead_cons] at cut
        obtain ⟨rfl, rfl⟩ := List.cons.inj cut
        rw [ih same]

end

variable {text year month last first second : Text}

theorem isDigits_iff {width : Nat} : isDigits width text = true ↔ text.length = width ∧ ∀ point ∈ text, isDecimal point = true := by
  simp [isDigits]

theorem isoGroups_day (groups : isoGroups text = some (year, some month, some last)) :
    text = year ++ hyphen :: (month ++ hyphen :: last) ∧ isDigits 4 year = true ∧ isDigits 2 month = true ∧ isDigits 2 last = true := by
  rw [isoGroups, List.splitOn_eq_splitOnP] at groups
  split at groups
  next => split at groups <;> simp at groups
  next => split at groups <;> simp at groups
  next cut =>
    split at groups
    next digits =>
      simp only [Option.some.injEq, Prod.mk.injEq] at groups
      obtain ⟨rfl, rfl, rfl⟩ := groups
      obtain ⟨separator, later, rfl, separates, cut⟩ := splitOnP_first cut
      obtain ⟨separator', final, rfl, separates', cut⟩ := splitOnP_first cut
      obtain rfl := splitOnP_single cut
      rw [eq_of_beq separates, eq_of_beq separates']
      simp only [Bool.and_eq_true] at digits
      exact ⟨rfl, digits.1.1, digits.1.2, digits.2⟩
    next => cases groups
  next => cases groups

theorem isoGroups_month (groups : isoGroups text = some (year, some month, none)) :
    text = year ++ hyphen :: month ∧ isDigits 4 year = true ∧ isDigits 2 month = true := by
  rw [isoGroups, List.splitOn_eq_splitOnP] at groups
  split at groups
  next => split at groups <;> simp at groups
  next cut =>
    split at groups
    next digits =>
      simp only [Option.some.injEq, Prod.mk.injEq] at groups
      obtain ⟨rfl, rfl, -⟩ := groups
      obtain ⟨separator, later, rfl, separates, cut⟩ := splitOnP_first cut
      obtain rfl := splitOnP_single cut
      rw [eq_of_beq separates]
      simp only [Bool.and_eq_true] at digits
      exact ⟨rfl, digits⟩
    next => cases groups
  next => split at groups <;> simp at groups
  next => cases groups

theorem isoGroups_year (groups : isoGroups text = some (year, none, none)) : text = year ∧ isDigits 4 year = true := by
  rw [isoGroups, List.splitOn_eq_splitOnP] at groups
  split at groups
  next cut =>
    split at groups
    next digits =>
      simp only [Option.some.injEq, Prod.mk.injEq, and_true] at groups
      subst groups
      exact ⟨splitOnP_single cut, digits⟩
    next => cases groups
  next => split at groups <;> simp at groups
  next => split at groups <;> simp at groups
  next => cases groups

theorem isoGroups_shape (year : Text) (last : Text) : isoGroups text ≠ some (year, none, some last) := by
  intro groups
  rw [isoGroups] at groups
  split at groups
  next => split at groups <;> simp at groups
  next => split at groups <;> simp at groups
  next => split at groups <;> simp at groups
  next => cases groups

theorem numericGroups_some (groups : numericGroups text = some (first, second, year)) :
    ∃ separator separator', text = first ++ separator :: (second ++ separator' :: year) ∧ isDateSeparator separator = true ∧
      isDateSeparator separator' = true ∧ (isDigits 1 first = true ∨ isDigits 2 first = true) ∧
      (isDigits 1 second = true ∨ isDigits 2 second = true) ∧ isDigits 4 year = true := by
  rw [numericGroups] at groups
  split at groups
  next cut =>
    split at groups
    next digits =>
      simp only [Option.some.injEq, Prod.mk.injEq] at groups
      obtain ⟨rfl, rfl, rfl⟩ := groups
      obtain ⟨separator, later, rfl, separates, cut⟩ := splitOnP_first cut
      obtain ⟨separator', final, rfl, separates', cut⟩ := splitOnP_first cut
      obtain rfl := splitOnP_single cut
      simp only [Bool.and_eq_true, Bool.or_eq_true] at digits
      exact ⟨separator, separator', rfl, separates, separates', digits.1.1, digits.1.2, digits.2⟩
    next => cases groups
  next => cases groups

-- A text of these forms has decimals and separators alone.
def Grouped (text : Text) : Prop := (isoGroups text).isSome = true ∨ (numericGroups text).isSome = true

theorem isDigits_points {width : Nat} (digits : isDigits width text = true) {point : CodePoint} (member : point ∈ text) :
    isDecimal point = true := (isDigits_iff.mp digits).2 point member

theorem grouped_points (grouped : Grouped text) {point : CodePoint} (member : point ∈ text) :
    isDecimal point = true ∨ isDateSeparator point = true := by
  have separates : isDateSeparator hyphen = true := rfl
  obtain iso | numeric := grouped
  · obtain ⟨⟨year, month, last⟩, groups⟩ := Option.isSome_iff_exists.mp iso
    cases month with
    | none =>
      cases last with
      | none =>
        obtain ⟨rfl, digits⟩ := isoGroups_year groups
        exact .inl (isDigits_points digits member)
      | some last => exact absurd groups (isoGroups_shape year last)
    | some month =>
      cases last with
      | none =>
        obtain ⟨rfl, first, second⟩ := isoGroups_month groups
        simp only [List.mem_append, List.mem_cons] at member
        obtain inside | rfl | inside := member
        · exact .inl (isDigits_points first inside)
        · exact .inr separates
        · exact .inl (isDigits_points second inside)
      | some last =>
        obtain ⟨rfl, first, second, third⟩ := isoGroups_day groups
        simp only [List.mem_append, List.mem_cons] at member
        obtain inside | rfl | inside | rfl | inside := member
        · exact .inl (isDigits_points first inside)
        · exact .inr separates
        · exact .inl (isDigits_points second inside)
        · exact .inr separates
        · exact .inl (isDigits_points third inside)
  · obtain ⟨⟨first, second, year⟩, groups⟩ := Option.isSome_iff_exists.mp numeric
    obtain ⟨separator, separator', rfl, one, other, firstDigits, secondDigits, yearDigits⟩ := numericGroups_some groups
    simp only [List.mem_append, List.mem_cons] at member
    obtain inside | rfl | inside | rfl | inside := member
    · exact .inl (firstDigits.elim (isDigits_points · inside) (isDigits_points · inside))
    · exact .inr one
    · exact .inl (secondDigits.elim (isDigits_points · inside) (isDigits_points · inside))
    · exact .inr other
    · exact .inl (isDigits_points yearDigits inside)

theorem ascii_decimal {point : CodePoint} (ascii : isAsciiDigit point = true) : isDecimal point = true := by
  rw [isDecimal, digitValue_ascii ascii]
  rfl

theorem decimal_not_separator {point : CodePoint} (ascii : isAsciiDigit point = true) : isDateSeparator point = false := by
  obtain ⟨value, small, -, rfl⟩ := digit_code ascii
  interval_cases value <;> rfl

theorem isDigits_fixed (width number : Nat) : isDigits width (fixed width number) = true :=
  isDigits_iff.mpr ⟨length_fixed width number, fun _ member => ascii_decimal (ascii_fixed member)⟩

-- Of the texts that `date.fromisoformat` reads, the extended form alone is one that the comparison reads.
theorem grouped_extended {day : Nat} (read : fromIsoFormat text = some day) (grouped : Grouped text) :
    ∃ date : Date, text = date.isoFormat ∧ day = date.ordinal := by
  cases fromIsoFormat_some read with
  | extended date => exact ⟨date, rfl, rfl⟩
  | compact date =>
    exfalso
    have length : (fixed 4 date.year ++ (fixed 2 date.month ++ fixed 2 date.day)).length = 8 := by simp
    have ascii : ∀ point ∈ fixed 4 date.year ++ (fixed 2 date.month ++ fixed 2 date.day), isAsciiDigit point = true := by
      intro point member
      simp only [List.mem_append] at member
      obtain inside | inside | inside := member
      · exact ascii_fixed inside
      · exact ascii_fixed inside
      · exact ascii_fixed inside
    generalize fixed 4 date.year ++ (fixed 2 date.month ++ fixed 2 date.day) = whole at length ascii grouped
    obtain iso | numeric := grouped
    · obtain ⟨⟨year, month, last⟩, groups⟩ := Option.isSome_iff_exists.mp iso
      cases month with
      | none =>
        cases last with
        | none =>
          obtain ⟨rfl, digits⟩ := isoGroups_year groups
          rw [(isDigits_iff.mp digits).1] at length
          cases length
        | some last => exact isoGroups_shape year last groups
      | some month =>
        have dashed : hyphen ∈ whole := by
          cases last with
          | none => exact (isoGroups_month groups).1 ▸ List.mem_append_right _ List.mem_cons_self
          | some last => exact (isoGroups_day groups).1 ▸ List.mem_append_right _ List.mem_cons_self
        exact (digit_ne (ascii hyphen dashed)).1 rfl
    · obtain ⟨⟨first, second, year⟩, groups⟩ := Option.isSome_iff_exists.mp numeric
      obtain ⟨separator, separator', rfl, separates, -⟩ := numericGroups_some groups
      have plain := decimal_not_separator (ascii separator (List.mem_append_right _ List.mem_cons_self))
      rw [plain] at separates
      cases separates
  | week year week number _ separator last _ _ _ =>
    exfalso
    have marked : weekMark ∈ fixed 4 year ++ (separator ++ weekMark :: (fixed 2 week ++ last)) := by simp
    obtain decimal | separates := grouped_points grouped marked
    · exact absurd decimal (by decide)
    · exact absurd separates (by decide)

theorem int_fixed {width number : Nat} (narrow : number < 10 ^ (width + 1)) : int (fixed (width + 1) number) = number := by
  have ascii (point : CodePoint) (member : point ∈ fixed (width + 1) number) := ascii_fixed member
  have filled : fixed (width + 1) number ≠ [] := fun empty => absurd (congrArg List.length empty) (by simp)
  have values : (fixed (width + 1) number).mapM digitValue = some ((fixed (width + 1) number).map fun point => code point - 0x30) := by
    generalize fixed (width + 1) number = digits at ascii
    induction digits with
    | nil => rfl
    | cons point rest ih =>
      rw [List.mapM_cons, digitValue_ascii (ascii point List.mem_cons_self), ih fun other member => ascii other (List.mem_cons_of_mem _ member)]
      rfl
  rw [int, parseDecimal, if_neg filled, values, Option.map_some, Option.getD_some, List.foldl_map]
  exact readDigits_fixed narrow

theorem isoGroups_isoFormat (date : Date) :
    isoGroups date.isoFormat = some (fixed 4 date.year, some (fixed 2 date.month), some (fixed 2 date.day)) := by
  have plain (width number : Nat) (point : CodePoint) (member : point ∈ fixed width number) : (point == hyphen) = false :=
    beq_false_of_ne (digit_ne (ascii_fixed member)).1
  have cut : date.isoFormat.splitOn hyphen = [fixed 4 date.year, fixed 2 date.month, fixed 2 date.day] := by
    rw [List.splitOn_eq_splitOnP, Date.isoFormat,
      List.splitOnP_append_cons_of_forall_mem (plain 4 date.year) hyphen (beq_self_eq_true hyphen),
      List.splitOnP_append_cons_of_forall_mem (plain 2 date.month) hyphen (beq_self_eq_true hyphen),
      List.splitOnP_eq_singleton (plain 2 date.day)]
  rw [isoGroups, cut]
  simp [isDigits_fixed]

theorem date?_isoFormat (date : Date) : date? (int (fixed 4 date.year)) (int (fixed 2 date.month)) (int (fixed 2 date.day)) = some date := by
  obtain ⟨year, month, day⟩ := date.bounds
  rw [int_fixed year, int_fixed month, int_fixed day]
  exact date?_eq_some.mpr ⟨rfl, rfl, rfl⟩

theorem isoFormat_injective : Function.Injective Date.isoFormat := by
  intro date other same
  have ordinals : some date.ordinal = some other.ordinal := by
    rw [← fromIsoFormat_isoFormat date, same, fromIsoFormat_isoFormat]
  exact Date.ordinal_injective (Option.some.inj ordinals)

/-! ## What is read -/

theorem isoText_points {day : Nat} (read : IsoText text day) : text.length ≤ 10 ∧ ∀ point ∈ text, isSpace point = false := by
  have digit (width number : Nat) (point : CodePoint) (member : point ∈ fixed width number) : isSpace point = false := by
    obtain ⟨value, small, -, rfl⟩ := digit_code (ascii_fixed member)
    interval_cases value <;> rfl
  have hyphenated : isSpace hyphen = false := rfl
  have marked : isSpace weekMark = false := rfl
  cases read with
  | extended date =>
    refine ⟨by simp [Date.isoFormat], fun point member => ?_⟩
    simp only [Date.isoFormat, List.mem_append, List.mem_cons] at member
    obtain inside | rfl | inside | rfl | inside := member
    · exact digit _ _ _ inside
    · exact hyphenated
    · exact digit _ _ _ inside
    · exact hyphenated
    · exact digit _ _ _ inside
  | compact date =>
    refine ⟨by simp, fun point member => ?_⟩
    simp only [List.mem_append] at member
    obtain inside | inside | inside := member
    · exact digit _ _ _ inside
    · exact digit _ _ _ inside
    · exact digit _ _ _ inside
  | week year week number _ separator final known final' _ =>
    have short : separator.length ≤ 1 ∧ ∀ point ∈ separator, isSpace point = false := by
      obtain rfl | rfl := known
      · exact ⟨Nat.zero_le 1, fun _ member => absurd member List.not_mem_nil⟩
      · exact ⟨Nat.le_refl 1, fun _ member => List.mem_singleton.mp member ▸ hyphenated⟩
    have end_ : final.length ≤ 2 ∧ ∀ point ∈ final, isSpace point = false := by
      obtain ⟨rfl, -⟩ | rfl := final'
      · exact ⟨Nat.zero_le 2, fun _ member => absurd member List.not_mem_nil⟩
      · refine ⟨by simp [short.1], fun point member => ?_⟩
        exact (List.mem_append.mp member).elim (short.2 point) (digit _ _ _)
    have length := end_.1
    have length' := short.1
    refine ⟨by simp; omega, fun point member => ?_⟩
    simp only [List.mem_append, List.mem_cons] at member
    obtain inside | inside | rfl | inside | inside := member
    · exact digit _ _ _ inside
    · exact short.2 point inside
    · exact marked
    · exact digit _ _ _ inside
    · exact end_.2 point inside

theorem shown_standard {day : Nat} (read : fromIsoFormat text = some day) : shown text = text := by
  obtain ⟨short, plain⟩ := isoText_points (fromIsoFormat_some read)
  have kept (points : Text) (plain : ∀ point ∈ points, isSpace point = false) : points.dropWhile isSpace = points := by
    cases points with
    | nil => rfl
    | cons point rest => rw [List.dropWhile_cons_of_neg (by simp [plain point List.mem_cons_self])]
  have turned : ∀ point ∈ text.reverse, isSpace point = false := fun point member => plain point (List.mem_reverse.mp member)
  rw [shown, List.take_of_length_le (Nat.le_trans short (by decide)), strip, lstrip, kept text plain, rstrip, kept _ turned,
    List.reverse_reverse]

theorem exclusive {year first second year' : Text} {rest : Option Text × Option Text}
    (iso : isoGroups text = some (year, rest)) (numeric : numericGroups text = some (first, second, year')) : False := by
  have decimals : ∀ point ∈ text.take 4, isDecimal point = true := by
    have leading (tail : Text) (digits : isDigits 4 year = true) (point : CodePoint) (member : point ∈ (year ++ tail).take 4) :
        isDecimal point = true := by
      rw [List.take_left' (isDigits_iff.mp digits).1] at member
      exact isDigits_points digits member
    obtain ⟨month, last⟩ := rest
    cases month with
    | none =>
      cases last with
      | none =>
        obtain ⟨rfl, digits⟩ := isoGroups_year iso
        exact fun point member => isDigits_points digits (List.mem_of_mem_take member)
      | some last => exact absurd iso (isoGroups_shape year last)
    | some month =>
      cases last with
      | none =>
        obtain ⟨rfl, digits, -⟩ := isoGroups_month iso
        exact leading _ digits
      | some last =>
        obtain ⟨rfl, digits, -⟩ := isoGroups_day iso
        exact leading _ digits
  obtain ⟨separator, separator', rfl, separates, -, short, -⟩ := numericGroups_some numeric
  have early : first.length ≤ 2 := by
    obtain digits | digits := short
    · exact Nat.le_trans (Nat.le_of_eq (isDigits_iff.mp digits).1) (by decide)
    · exact Nat.le_of_eq (isDigits_iff.mp digits).1
  have member : separator ∈ (first ++ separator :: (second ++ separator' :: year')).take 4 := by
    rw [List.take_append, List.mem_append]
    obtain ⟨room, more⟩ : ∃ room, 4 - first.length = room + 1 := ⟨3 - first.length, by omega⟩
    rw [more, List.take_succ_cons]
    exact .inr List.mem_cons_self
  have decimal := decimals separator member
  simp only [isDateSeparator, Bool.or_eq_true, decide_eq_true_eq] at separates
  obtain ((rfl | rfl) | rfl) | rfl := separates <;> exact absurd decimal (by decide)

theorem interpretText_isoFormat (date : Date) :
    interpretText date.isoFormat = { values := [date.isoFormat], precision := some .day, ambiguous := false } := by
  rw [interpretText, isoGroups_isoFormat]
  simp [valid, date?_isoFormat]

theorem interpretText_ungrouped (ungrouped : ¬ Grouped text) : interpretText text = unread := by
  obtain ⟨iso, numeric⟩ := not_or.mp ungrouped
  rw [interpretText, Option.not_isSome_iff_eq_none.mp iso, Option.not_isSome_iff_eq_none.mp numeric]

-- A text with groups and no ambiguity, of the precision of a day: the one day it may mean is the one that is compared.
theorem reading_of_groups (groups : isoGroups text = some (year, some month, some last)) {date : Date}
    (dated : date? (int year) (int month) (int last) = some date) (days : Set Nat) : Reading text days ↔ days = {date.ordinal} := by
  constructor
  · intro reading
    cases reading with
    | standard read =>
      obtain ⟨other, rfl, rfl⟩ := grouped_extended read (.inl (by rw [groups]; rfl))
      rw [isoGroups_isoFormat] at groups
      simp only [Option.some.injEq, Prod.mk.injEq] at groups
      obtain ⟨rfl, rfl, rfl⟩ := groups
      rw [date?_isoFormat] at dated
      rw [Option.some.inj dated]
    | day groups' dated' =>
      rw [groups] at groups'
      simp only [Option.some.injEq, Prod.mk.injEq] at groups'
      obtain ⟨rfl, rfl, rfl⟩ := groups'
      rw [Option.some.inj (dated.symm.trans dated')]
    | month groups' => simp [groups] at groups'
    | year groups' => simp [groups] at groups'
    | dayFirst groups' => exact (exclusive groups groups').elim
    | monthFirst groups' => exact (exclusive groups groups').elim
  · rintro rfl
    exact .day groups dated

theorem reading_known (groups : isoGroups text = some (year, some month, none)) {days : Set Nat} (reading : Reading text days) :
    1 ≤ int month ∧ int month ≤ 12 := by
  cases reading with
  | standard read =>
    obtain ⟨other, rfl, -⟩ := grouped_extended read (.inl (by rw [groups]; rfl))
    simp [isoGroups_isoFormat] at groups
  | day groups' => simp [groups] at groups'
  | month groups' known =>
    rw [groups] at groups'
    simp only [Option.some.injEq, Prod.mk.injEq, and_true] at groups'
    rwa [groups'.2]
  | year groups' => simp [groups] at groups'
  | dayFirst groups' => exact (exclusive groups groups').elim
  | monthFirst groups' => exact (exclusive groups groups').elim

theorem reading_of_month (groups : isoGroups text = some (year, some month, none)) (known : 1 ≤ int month ∧ int month ≤ 12)
    (days : Set Nat) : Reading text days ↔ days = daysOfMonth (int year) (int month) := by
  constructor
  · intro reading
    cases reading with
    | standard read =>
      obtain ⟨other, rfl, -⟩ := grouped_extended read (.inl (by rw [groups]; rfl))
      simp [isoGroups_isoFormat] at groups
    | day groups' => simp [groups] at groups'
    | month groups' =>
      rw [groups] at groups'
      simp only [Option.some.injEq, Prod.mk.injEq, and_true] at groups'
      obtain ⟨rfl, rfl⟩ := groups'
      rfl
    | year groups' => simp [groups] at groups'
    | dayFirst groups' => exact (exclusive groups groups').elim
    | monthFirst groups' => exact (exclusive groups groups').elim
  · rintro rfl
    exact .month groups known

theorem reading_of_year (groups : isoGroups text = some (year, none, none)) (days : Set Nat) :
    Reading text days ↔ days = daysOfYear (int year) := by
  constructor
  · intro reading
    cases reading with
    | standard read =>
      obtain ⟨other, rfl, -⟩ := grouped_extended read (.inl (by rw [groups]; rfl))
      simp [isoGroups_isoFormat] at groups
    | day groups' => simp [groups] at groups'
    | month groups' => simp [groups] at groups'
    | year groups' =>
      rw [groups] at groups'
      simp only [Option.some.injEq, Prod.mk.injEq, and_true] at groups'
      rw [groups']
    | dayFirst groups' => exact (exclusive groups groups').elim
    | monthFirst groups' => exact (exclusive groups groups').elim
  · rintro rfl
    exact .year groups

theorem valid_eq_some {year month day : Nat} {value : Text} :
    valid year month day = some value ↔ ∃ date, date? year month day = some date ∧ date.isoFormat = value := by
  rw [valid, Option.map_eq_some_iff]

-- Both orders that make a date make the same one.
theorem reading_of_numeric (iso : isoGroups text = none) (groups : numericGroups text = some (first, second, year)) {value : Text}
    (single : ((valid (int year) (int second) (int first)).toList ++ (valid (int year) (int first) (int second)).toList).dedup = [value]) :
    ∃ date : Date, value = date.isoFormat ∧ ∀ days, Reading text days ↔ days = {date.ordinal} := by
  have each (other : Text) (found : valid (int year) (int second) (int first) = some other ∨
      valid (int year) (int first) (int second) = some other) : other = value := by
    have member : other ∈ ((valid (int year) (int second) (int first)).toList ++ (valid (int year) (int first) (int second)).toList).dedup := by
      rw [List.mem_dedup, List.mem_append, Option.mem_toList, Option.mem_toList]
      exact found
    rw [single] at member
    exact List.mem_singleton.mp member
  have some_ : valid (int year) (int second) (int first) = some value ∨ valid (int year) (int first) (int second) = some value := by
    have member : value ∈ ((valid (int year) (int second) (int first)).toList ++ (valid (int year) (int first) (int second)).toList).dedup := by
      rw [single]
      exact List.mem_singleton_self value
    rwa [List.mem_dedup, List.mem_append, Option.mem_toList, Option.mem_toList] at member
  obtain ⟨date, rfl⟩ : ∃ date : Date, value = date.isoFormat := by
    obtain found | found := some_
    · obtain ⟨date, -, same⟩ := valid_eq_some.mp found
      exact ⟨date, same.symm⟩
    · obtain ⟨date, -, same⟩ := valid_eq_some.mp found
      exact ⟨date, same.symm⟩
  refine ⟨date, rfl, fun days => ⟨fun reading => ?_, ?_⟩⟩
  · cases reading with
    | standard read =>
      obtain ⟨other, rfl, -⟩ := grouped_extended read (.inr (by rw [groups]; rfl))
      simp [isoGroups_isoFormat] at iso
    | day groups' => simp [iso] at groups'
    | month groups' => simp [iso] at groups'
    | year groups' => simp [iso] at groups'
    | dayFirst groups' dated =>
      rw [groups] at groups'
      simp only [Option.some.injEq, Prod.mk.injEq] at groups'
      obtain ⟨rfl, rfl, rfl⟩ := groups'
      rw [isoFormat_injective (each _ (.inl (valid_eq_some.mpr ⟨_, dated, rfl⟩)))]
    | monthFirst groups' dated =>
      rw [groups] at groups'
      simp only [Option.some.injEq, Prod.mk.injEq] at groups'
      obtain ⟨rfl, rfl, rfl⟩ := groups'
      rw [isoFormat_injective (each _ (.inr (valid_eq_some.mpr ⟨_, dated, rfl⟩)))]
  · rintro rfl
    obtain found | found := some_
    · obtain ⟨other, dated, same⟩ := valid_eq_some.mp found
      rw [← isoFormat_injective same]
      exact .dayFirst groups dated
    · obtain ⟨other, dated, same⟩ := valid_eq_some.mp found
      rw [← isoFormat_injective same]
      exact .monthFirst groups dated

theorem interpretText_day {values : List Text} (precise : interpretText text = { values, precision := some .day, ambiguous := false }) :
    values = [] ∨ ∃ date : Date, values = [date.isoFormat] ∧ ∀ days, Reading text days ↔ days = {date.ordinal} := by
  unfold interpretText at precise
  split at precise
  next year month last groups =>
    simp only [Dates.mk.injEq, and_true] at precise
    subst precise
    cases month with
    | none => exact absurd groups (isoGroups_shape year last)
    | some month =>
      rw [Option.getD_some]
      cases found : valid (int year) (int month) (int last) with
      | none => exact .inl rfl
      | some value =>
        obtain ⟨date, dated, rfl⟩ := valid_eq_some.mp found
        exact .inr ⟨date, rfl, reading_of_groups groups dated⟩
  next => split at precise <;> simp [unread] at precise
  next => simp at precise
  next iso =>
    split at precise
    next first second year groups =>
      simp only [Dates.mk.injEq, true_and] at precise
      obtain ⟨same, single⟩ := precise
      cases values with
      | nil => exact .inl rfl
      | cons value rest =>
        cases rest with
        | nil =>
          obtain ⟨date, rfl, reading⟩ := reading_of_numeric iso groups same
          exact .inr ⟨date, rfl, reading⟩
        | cons other rest =>
          rw [same] at single
          simp at single
    next => simp [unread] at precise

end Phaze.Matching
