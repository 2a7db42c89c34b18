import Mathlib
import Phaze.Shared.Languages
import Phaze.Shared.Unicode

set_option autoImplicit false

/-!
# Kubernetes quantities

`validate_quantity` of `services/k8s_quantity.py`: its pattern, and the grammar that the module transcribes.
-/

namespace Phaze.Kube

open Computability Phaze.Languages Phaze.Percent Phaze.Unicode

/-! ## The pattern -/

-- What the pattern tells apart: `\d` is one class and no digit is named by itself.
inductive Letter where
  | digit
  | point (point : CodePoint)
deriving DecidableEq

def letter (point : CodePoint) : Letter := if isDecimal point then .digit else .point point

def lit (char : Char) : RegularExpression Letter := .char (.point (.scalar char))

def word (first second : Char) : RegularExpression Letter := lit first * lit second

-- `\d+`
def someDigits : RegularExpression Letter := .char .digit * .star (.char .digit)

-- `[+-]?`
def optionalSign : RegularExpression Letter := 1 + (lit '+' + lit '-')

def numberRe : RegularExpression Letter :=
  someDigits * (1 + lit '.' * .star (.char .digit)) + lit '.' * someDigits

def binarySIRe : RegularExpression Letter :=
  word 'K' 'i' + word 'M' 'i' + word 'G' 'i' + word 'T' 'i' + word 'P' 'i' + word 'E' 'i'

def decimalExponentRe : RegularExpression Letter := (lit 'e' + lit 'E') * optionalSign * someDigits

def decimalSIRe : RegularExpression Letter :=
  lit 'n' + lit 'u' + lit 'm' + lit 'k' + lit 'M' + lit 'G' + lit 'T' + lit 'P' + lit 'E'

def quantityRe : RegularExpression Letter :=
  optionalSign * numberRe * (1 + (binarySIRe + decimalExponentRe + decimalSIRe))

def negative (value : Str) : Bool := value.head? = some (.scalar '-')

variable (repr : Str → Str)

def validateQuantity (value field : Str) : Except Str Str :=
  if ¬ quantityRe.rmatch (value.map letter) then
    .error (field ++ str "=" ++ repr value ++ str " is not a valid Kubernetes quantity. Expected a number with an optional suffix: "
      ++ str "Ki/Mi/Gi/Ti/Pi/Ei (binary), n/u/m/k/M/G/T/P/E (decimal, note the LOWERCASE k), or an e/E exponent. "
      ++ str "There is no 'B' suffix -- write '4Gi' (binary) or '4G' (decimal), not '4GB'; and CPU millicores are "
      ++ str "'500m', not '500' (which means 500 whole CPUs).")
  else if negative value then
    .error (field ++ str "=" ++ repr value
      ++ str " is negative; a Kubernetes resource request or limit must be greater than or equal to 0")
  else .ok value

/-! ## The grammar -/

def one (char : Char) : Language CodePoint := letters (· = .scalar char)

def two (first second : Char) : Language CodePoint := one first * one second

def digit : Language CodePoint := letters (isAsciiDigit · = true)

def digits : Language CodePoint := digit * digit∗

-- The numbers with a point.
def pointed : Language CodePoint := digits * one '.' * digits + digits * one '.' + one '.' * digits

def number : Language CodePoint := digits + pointed

def sign : Language CodePoint := one '+' + one '-'

def signed (unsigned : Language CodePoint) : Language CodePoint := unsigned + sign * unsigned

def signedNumber : Language CodePoint := signed number

def binarySI : Language CodePoint :=
  two 'K' 'i' + two 'M' 'i' + two 'G' 'i' + two 'T' 'i' + two 'P' 'i' + two 'E' 'i'

def decimalSI : Language CodePoint :=
  one 'n' + one 'u' + one 'm' + 1 + one 'k' + one 'M' + one 'G' + one 'T' + one 'P' + one 'E'

def exponentSign : Language CodePoint := one 'e' + one 'E'

def decimalExponent : Language CodePoint := exponentSign * signedNumber

def suffix : Language CodePoint := binarySI + decimalExponent + decimalSI

def quantity : Language CodePoint := signedNumber * suffix

-- The quantities without an exponent or with a whole one, and those whose exponent has a point.
def wholeExponent : Language CodePoint := signedNumber * (binarySI + exponentSign * signed digits + decimalSI)

def pointedExponent : Language CodePoint := signedNumber * (exponentSign * signed pointed)

theorem quantity_eq : quantity = wholeExponent + pointedExponent := by
  have split : signedNumber = signed digits + signed pointed := by
    simp only [signedNumber, signed, number, mul_add]
    abel
  rw [quantity, suffix, decimalExponent, wholeExponent, pointedExponent, ← mul_add]
  congr 1
  conv_lhs => rw [split, mul_add]
  abel

/-! ## What the pattern accepts -/

def foreign (point : CodePoint) : Bool := isDecimal point && !isAsciiDigit point

theorem isDecimal_of_ascii {point : CodePoint} (ascii : isAsciiDigit point = true) : isDecimal point = true := by
  rw [isDecimal, digitValue_ascii ascii]
  rfl

theorem pull_digit : pull letter (foreign · = false) (RegularExpression.char Letter.digit).matches' = digit := by
  rw [RegularExpression.matches'_char, pull_singleton, digit]
  congr 1
  ext point
  cases decimal : isDecimal point with
  | true => simp [letter, foreign, decimal]
  | false =>
    have plain : isAsciiDigit point = false := by
      cases ascii : isAsciiDigit point with
      | true => simp [isDecimal_of_ascii ascii] at decimal
      | false => rfl
    simp [letter, decimal, plain]

theorem pull_lit {char : Char} (plain : isDecimal (.scalar char) = false) :
    pull letter (foreign · = false) (lit char).matches' = one char := by
  rw [lit, RegularExpression.matches'_char, pull_singleton, one]
  congr 1
  ext point
  constructor
  · intro both
    obtain ⟨same, -⟩ := both
    rw [letter] at same
    split at same
    next => cases same
    next => exact Letter.point.inj same
  · rintro rfl
    simp [letter, foreign, plain]

theorem pull_someDigits : pull letter (foreign · = false) someDigits.matches' = digits := by
  rw [someDigits, RegularExpression.matches'_mul, RegularExpression.matches'_star, pull_mul, pull_kstar, pull_digit, digits]

theorem pull_optionalSign : pull letter (foreign · = false) optionalSign.matches' = 1 + sign := by
  simp (disch := decide) only [optionalSign, RegularExpression.matches'_add, RegularExpression.matches'_epsilon, pull_add,
    pull_one, pull_lit, sign]

theorem pull_numberRe : pull letter (foreign · = false) numberRe.matches' = number := by
  have repeated : digit∗ = 1 + digits := (Language.one_add_self_mul_kstar_eq_kstar digit).symm
  simp (disch := decide) only [numberRe, RegularExpression.matches'_add, RegularExpression.matches'_mul,
    RegularExpression.matches'_epsilon, RegularExpression.matches'_star, pull_add, pull_mul, pull_one, pull_kstar,
    pull_digit, pull_someDigits, pull_lit, repeated]
  simp only [number, pointed, mul_add, mul_one, mul_assoc]
  abel

theorem pull_suffixRe : pull letter (foreign · = false) (1 + (binarySIRe + decimalExponentRe + decimalSIRe)).matches' =
    binarySI + exponentSign * signed digits + decimalSI := by
  have whole : signed digits = (1 + sign) * digits := by rw [signed, add_mul, one_mul]
  simp (disch := decide) only [binarySIRe, decimalExponentRe, decimalSIRe, word, RegularExpression.matches'_add,
    RegularExpression.matches'_mul, RegularExpression.matches'_epsilon, pull_add, pull_mul, pull_one, pull_lit,
    pull_someDigits, pull_optionalSign]
  rw [whole]
  simp only [binarySI, decimalSI, two, exponentSign, mul_assoc]
  abel

-- The words without a foreign digit that the pattern matches.
theorem pull_quantityRe : pull letter (foreign · = false) quantityRe.matches' = wholeExponent := by
  have front : (1 + sign) * number = signedNumber := by rw [signedNumber, signed, add_mul, one_mul]
  rw [quantityRe, RegularExpression.matches'_mul, RegularExpression.matches'_mul, pull_mul, pull_mul, pull_suffixRe,
    pull_optionalSign, pull_numberRe, front, wholeExponent]

/-! ## Where the pattern and the grammar part -/

-- Every digit read as an ASCII zero.
def zeroed (point : CodePoint) : CodePoint := if isDecimal point then .scalar '0' else point

theorem letter_zeroed (point : CodePoint) : letter (zeroed point) = letter point := by
  cases decimal : isDecimal point with
  | true =>
    have same : isDecimal (.scalar '0') = true := by decide
    simp [letter, zeroed, decimal, same]
  | false => simp [zeroed, decimal]

theorem foreign_zeroed (point : CodePoint) : foreign (zeroed point) = false := by
  cases decimal : isDecimal point with
  | true =>
    have ascii : foreign (.scalar '0') = false := by decide
    simp [zeroed, decimal, ascii]
  | false => simp [zeroed, foreign, decimal]

/-- The pattern does not tell a digit from another: it matches what has a whole exponent with the digits zeroed. -/
theorem rmatch_iff_zeroed (value : Str) : quantityRe.rmatch (value.map letter) = true ↔ value.map zeroed ∈ wholeExponent := by
  have keeps : ∀ point ∈ value.map zeroed, foreign point = false := by
    intro point member
    obtain ⟨original, -, rfl⟩ := List.mem_map.mp member
    exact foreign_zeroed original
  have same : (value.map zeroed).map letter = value.map letter := by
    rw [List.map_map]
    exact List.map_congr_left fun point _ => letter_zeroed point
  rw [RegularExpression.rmatch_iff_matches', ← pull_quantityRe, mem_pull, same]
  exact (and_iff_left keeps).symm

theorem rmatch_of_plain {value : Str} (plain : ∀ point ∈ value, foreign point = false) :
    quantityRe.rmatch (value.map letter) = true ↔ value ∈ wholeExponent := by
  rw [RegularExpression.rmatch_iff_matches', ← pull_quantityRe, mem_pull]
  exact (and_iff_left plain).symm

variable {kept : CodePoint → Prop}

theorem one_le_within {char : Char} (holds : kept (.scalar char)) : one char ≤ within kept := by
  apply letters_le_within
  rintro point rfl
  exact holds

theorem digits_le_within (holds : ∀ point, isAsciiDigit point = true → kept point) : digits ≤ within kept :=
  mul_le_within (letters_le_within holds) (kstar_le_within (letters_le_within holds))

theorem pointed_le_within (numeric : ∀ point, isAsciiDigit point = true → kept point) (dot : kept (.scalar '.')) :
    pointed ≤ within kept := by
  have whole := digits_le_within numeric
  have mark : one '.' ≤ within kept := one_le_within dot
  apply add_le_within
  · apply add_le_within
    · exact mul_le_within (mul_le_within whole mark) whole
    · exact mul_le_within whole mark
  · exact mul_le_within mark whole

theorem signed_le_within {unsigned : Language CodePoint} (bare : unsigned ≤ within kept) (plus : kept (.scalar '+'))
    (minus : kept (.scalar '-')) : signed unsigned ≤ within kept := by
  have signs : sign ≤ within kept := add_le_within (one_le_within plus) (one_le_within minus)
  exact add_le_within bare (mul_le_within signs bare)

theorem signedNumber_le_within (numeric : ∀ point, isAsciiDigit point = true → kept point) (dot : kept (.scalar '.'))
    (plus : kept (.scalar '+')) (minus : kept (.scalar '-')) : signedNumber ≤ within kept :=
  signed_le_within (add_le_within (digits_le_within numeric) (pointed_le_within numeric dot)) plus minus

def unitLetters : List Char := ['K', 'M', 'G', 'T', 'P', 'E', 'i', 'n', 'u', 'm', 'k']

theorem units_le_within (each : ∀ char ∈ unitLetters, kept (.scalar char)) : binarySI + decimalSI ≤ within kept := by
  have unit : ∀ char ∈ unitLetters, one char ≤ within kept := fun char member => one_le_within (each char member)
  have pair : ∀ first ∈ unitLetters, ∀ second ∈ unitLetters, two first second ≤ within kept :=
    fun first inFirst second inSecond => mul_le_within (unit first inFirst) (unit second inSecond)
  simp only [binarySI, decimalSI, add_le_iff]
  and_intros
  all_goals first
    | exact pair _ (by decide) _ (by decide)
    | exact unit _ (by decide)
    | exact Languages.one_le_within

-- The first group of digits is the only one in ASCII.
theorem plain_of_small {point : CodePoint} (small : code point < 0x80) : foreign point = false := by
  cases decimal : isDecimal point with
  | false => simp [foreign, decimal]
  | true =>
    rw [isDecimal, digitValue, Option.isSome_map, List.find?_isSome] at decimal
    obtain ⟨first, listed, holds⟩ := decimal
    simp only [Bool.and_eq_true, decide_eq_true_eq] at holds
    have only : ∀ first ∈ decimalZeros, first < 0x80 → first = 0x30 := by decide
    obtain rfl := only first listed (by omega)
    simp only [foreign, isAsciiDigit, Bool.and_eq_false_iff, Bool.not_eq_false', Bool.and_eq_true, decide_eq_true_eq]
    exact .inr holds

theorem plain_of_ascii {point : CodePoint} (ascii : isAsciiDigit point = true) : foreign point = false := by
  simp [foreign, ascii]

-- No derivation has a digit outside ASCII.
theorem quantity_plain {value : Str} (derived : value ∈ quantity) : ∀ point ∈ value, foreign point = false := by
  have front : signedNumber ≤ within (foreign · = false) :=
    signedNumber_le_within (fun _ => plain_of_ascii) (by decide) (by decide) (by decide)
  have units : binarySI + decimalSI ≤ within (foreign · = false) := by
    have small : ∀ char ∈ unitLetters, code (.scalar char) < 0x80 := by simp [unitLetters, code]
    exact units_le_within fun char member => plain_of_small (small char member)
  have exponents : exponentSign ≤ within (foreign · = false) :=
    add_le_within (one_le_within (by decide)) (one_le_within (by decide))
  have suffixes : suffix ≤ within (foreign · = false) := by
    apply add_le_within
    · exact add_le_within (le_trans le_self_add units) (mul_le_within exponents front)
    · exact le_trans le_add_self units
  exact mul_le_within front suffixes derived

def isExponentSign (point : CodePoint) : Prop := point = .scalar 'e' ∨ point = .scalar 'E'

-- A point after an exponent sign.
def PointedAfter (value : Str) : Prop :=
  ∃ front mark back, value = front ++ mark :: back ∧ isExponentSign mark ∧ .scalar '.' ∈ back

theorem not_exponentSign_of_ascii {point : CodePoint} (ascii : isAsciiDigit point = true) : ¬ isExponentSign point := by
  rintro (rfl | rfl)
  · exact absurd ascii (by decide)
  · exact absurd ascii (by decide)

theorem ne_point_of_ascii {point : CodePoint} (ascii : isAsciiDigit point = true) : point ≠ .scalar '.' := by
  rintro rfl
  exact absurd ascii (by decide)

theorem wholeExponent_not_pointedAfter {value : Str} (derived : value ∈ wholeExponent) : ¬ PointedAfter value := by
  obtain ⟨digitsPart, first, suffixPart, second, rfl⟩ := Language.mem_mul.mp derived
  have unmarked : ∀ point ∈ digitsPart, ¬ isExponentSign point :=
    signedNumber_le_within (fun _ => not_exponentSign_of_ascii) (by simp [isExponentSign]) (by simp [isExponentSign])
      (by simp [isExponentSign]) first
  have pointless : ∀ point ∈ suffixPart, point ≠ .scalar '.' := by
    have units : binarySI + decimalSI ≤ within (· ≠ .scalar '.') := units_le_within (by simp [unitLetters])
    have exponents : exponentSign ≤ within (· ≠ CodePoint.scalar '.') :=
      add_le_within (one_le_within (by decide)) (one_le_within (by decide))
    have tail : exponentSign * signed digits ≤ within (· ≠ .scalar '.') :=
      mul_le_within exponents (signed_le_within (digits_le_within fun _ => ne_point_of_ascii) (by decide) (by decide))
    exact add_le_within (add_le_within (le_trans le_self_add units) tail) (le_trans le_add_self units) second
  rintro ⟨front, mark, back, whole, marked, dotted⟩
  -- The exponent sign is in the suffix, and so is everything after it.
  obtain ⟨between, rfl, rest⟩ | ⟨between, rfl, rest⟩ := List.append_eq_append_iff.mp whole
  · apply pointless (.scalar '.') _ rfl
    rw [rest]
    exact List.mem_append_right _ (List.mem_cons_of_mem _ dotted)
  · cases between with
    | nil =>
      apply pointless (.scalar '.') _ rfl
      rw [List.nil_append] at rest
      rw [← rest]
      exact List.mem_cons_of_mem _ dotted
    | cons head others =>
      obtain ⟨rfl, -⟩ := List.cons.inj rest
      exact unmarked mark (List.mem_append_right _ (List.mem_cons_self ..)) marked

theorem pointedExponent_pointedAfter {value : Str} (derived : value ∈ pointedExponent) : PointedAfter value := by
  obtain ⟨front, -, suffixPart, second, rfl⟩ := Language.mem_mul.mp derived
  obtain ⟨mark, marked, exponent, third, rfl⟩ := Language.mem_mul.mp second
  have dotted : ∀ word ∈ signed pointed, CodePoint.scalar '.' ∈ word := by
    have bare : ∀ word ∈ pointed, CodePoint.scalar '.' ∈ word := by
      have mem_dot : ∀ word ∈ one '.', CodePoint.scalar '.' ∈ word := by
        rintro word ⟨point, rfl, rfl⟩
        exact List.mem_singleton.mpr rfl
      rintro word ((two | two) | two)
      · obtain ⟨whole, inWhole, fraction, -, rfl⟩ := Language.mem_mul.mp two
        obtain ⟨_, -, dot, inDot, rfl⟩ := Language.mem_mul.mp inWhole
        exact List.mem_append_left _ (List.mem_append_right _ (mem_dot dot inDot))
      · obtain ⟨_, -, dot, inDot, rfl⟩ := Language.mem_mul.mp two
        exact List.mem_append_right _ (mem_dot dot inDot)
      · obtain ⟨dot, inDot, _, -, rfl⟩ := Language.mem_mul.mp two
        exact List.mem_append_left _ (mem_dot dot inDot)
    rintro word (unsigned | withSign)
    · exact bare word unsigned
    · obtain ⟨_, -, unsigned, inside, rfl⟩ := Language.mem_mul.mp withSign
      exact List.mem_append_right _ (bare unsigned inside)
  have single : ∃ point, isExponentSign point ∧ mark = [point] := by
    obtain ⟨point, rfl, rfl⟩ | ⟨point, rfl, rfl⟩ := marked
    · exact ⟨_, .inl rfl, rfl⟩
    · exact ⟨_, .inr rfl, rfl⟩
  obtain ⟨point, exponential, rfl⟩ := single
  exact ⟨front, point, exponent, rfl, exponential, dotted exponent third⟩

/-! ## The judgement -/

variable {repr}

theorem validateQuantity_ok {value field result : Str} :
    validateQuantity repr value field = .ok result ↔
      quantityRe.rmatch (value.map letter) = true ∧ negative value = false ∧ result = value := by
  rw [validateQuantity]
  split
  next unmatched => simp [unmatched]
  next matched =>
    rw [not_not] at matched
    cases sign : negative value with
    | true => simp
    | false => simp [matched, eq_comm]

-- A value is returned as it is when the grammar derives it without a minus, and else refused.
structure Judges (repr : Str → Str) (value field : Str) : Prop where
  returned : validateQuantity repr value field = .ok value ↔ value ∈ quantity ∧ negative value = false
  refused : ¬ (value ∈ quantity ∧ negative value = false) → ∃ message, validateQuantity repr value field = .error message

theorem judges_iff_match (value field : Str) : Judges repr value field ↔
    (negative value = false → (quantityRe.rmatch (value.map letter) = true ↔ value ∈ quantity)) := by
  constructor
  · intro judges unsigned
    have same := judges.returned
    rw [validateQuantity_ok] at same
    simpa [unsigned] using same
  · intro same
    have returned : validateQuantity repr value field = .ok value ↔ value ∈ quantity ∧ negative value = false := by
      rw [validateQuantity_ok]
      cases sign : negative value with
      | true => simp
      | false => simp [same sign]
    refine ⟨returned, ?_⟩
    intro underived
    cases outcome : validateQuantity repr value field with
    | error message => exact ⟨message, rfl⟩
    | ok result =>
      obtain ⟨-, -, rfl⟩ := validateQuantity_ok.mp outcome
      exact absurd (returned.mp outcome) underived

/-- The pattern and the grammar agree on a value unless it is not negative and either has a foreign digit where the
grammar wants one of ASCII, or an exponent with a point. -/
theorem validate_judges_iff (repr : Str → Str) (value field : Str) : Judges repr value field ↔
    negative value = true ∨
      (value ∉ pointedExponent ∧ ((∀ point ∈ value, foreign point = false) ∨ value.map zeroed ∉ wholeExponent)) := by
  rw [judges_iff_match]
  constructor
  · intro same
    cases sign : negative value with
    | true => exact .inl rfl
    | false =>
      right
      have agree := same sign
      constructor
      · intro exponent
        have derived : value ∈ quantity := by
          rw [quantity_eq]
          exact .inr exponent
        have whole := (rmatch_of_plain (quantity_plain derived)).mp (agree.mpr derived)
        exact wholeExponent_not_pointedAfter whole (pointedExponent_pointedAfter exponent)
      · by_contra neither
        rw [not_or, not_not] at neither
        have matched := (rmatch_iff_zeroed value).mpr neither.2
        exact neither.1 (quantity_plain (agree.mp matched))
  · rintro (minus | ⟨unpointed, plain⟩) unsigned
    · rw [unsigned] at minus
      cases minus
    · have derived : value ∈ quantity ↔ value ∈ wholeExponent := by
        rw [quantity_eq, Language.mem_add]
        exact or_iff_left unpointed
      obtain ascii | misread := plain
      · rw [rmatch_of_plain ascii, derived]
      · rw [rmatch_iff_zeroed]
        constructor
        · intro read
          exact absurd read misread
        · intro grammatical
          have matched := (rmatch_of_plain (quantity_plain grammatical)).mpr (derived.mp grammatical)
          exact absurd ((rmatch_iff_zeroed value).mp matched) misread

def fullwidthThree : Str := str "３Gi"

/-- A digit outside ASCII passes. -/
theorem fullwidth_three_passes : ¬ ∀ (repr : Str → Str) (value field : Str), Judges repr value field := by
  intro always
  have matched : quantityRe.rmatch (fullwidthThree.map letter) = true := by decide
  have derived := ((judges_iff_match fullwidthThree []).mp (always id _ _) (by decide)).mp matched
  exact absurd (quantity_plain derived (.scalar '３') (by decide)) (by decide)

end Phaze.Kube
