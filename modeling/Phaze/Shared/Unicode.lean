import Phaze.Shared.Percent

set_option autoImplicit false

/-!
# Character properties of Python strings

What `str` methods and the classes of `re` read off one code point, by the tables of Unicode 16.
-/

namespace Phaze.Unicode

open Phaze.Percent

def code : CodePoint → Nat
  | .scalar char => char.toNat
  | .surrogate code => 0xD800 + code

-- The zeros of general category `Nd`; nine more digits follow each.
def decimalZeros : List Nat :=
  [0x30, 0x660, 0x6F0, 0x7C0, 0x966, 0x9E6, 0xA66, 0xAE6, 0xB66, 0xBE6, 0xC66, 0xCE6, 0xD66, 0xDE6, 0xE50, 0xED0, 0xF20
    , 0x1040, 0x1090, 0x17E0, 0x1810, 0x1946, 0x19D0, 0x1A80, 0x1A90, 0x1B50, 0x1BB0, 0x1C40, 0x1C50, 0xA620, 0xA8D0
    , 0xA900, 0xA9D0, 0xA9F0, 0xAA50, 0xABF0, 0xFF10, 0x104A0, 0x10D30, 0x10D40, 0x11066, 0x110F0, 0x11136, 0x111D0
    , 0x112F0, 0x11450, 0x114D0, 0x11650, 0x116C0, 0x116D0, 0x116DA, 0x11730, 0x118E0, 0x11950, 0x11BF0, 0x11C50
    , 0x11D50, 0x11DA0, 0x11F50, 0x16130, 0x16A60, 0x16AC0, 0x16B50, 0x16D70, 0x1CCF0, 0x1D7CE, 0x1D7D8, 0x1D7E2
    , 0x1D7EC, 0x1D7F6, 0x1E140, 0x1E2F0, 0x1E4F0, 0x1E5F1, 0x1E950, 0x1FBF0]

-- `\d`, and the value that `int` reads.
def digitValue (point : CodePoint) : Option Nat :=
  (decimalZeros.find? fun first => first ≤ code point && code point < first + 10).map fun first => code point - first

def isDecimal (point : CodePoint) : Bool := (digitValue point).isSome

def newline : CodePoint := .scalar '\n'

def quoteMark : CodePoint := .scalar '"'

def blank : CodePoint := .scalar ' '

def isAsciiDigit (point : CodePoint) : Bool := 0x30 ≤ code point && code point < 0x3A

def isSpace (point : CodePoint) : Bool :=
  let code := code point
  (0x9 ≤ code && code ≤ 0xD) || (0x1C ≤ code && code ≤ 0x20) || code = 0x85 || code = 0xA0 || code = 0x1680 ||
    (0x2000 ≤ code && code ≤ 0x200A) || code = 0x2028 || code = 0x2029 || code = 0x202F || code = 0x205F || code = 0x3000

/-! ## Integers -/

def digits (number : Nat) : Str := (Nat.toDigits 10 number).map .scalar

-- `f"{number:d}"` and `f"{number:02d}"`, without the limit of the interpreter on the number of digits.
def printInt : Int → Str
  | .ofNat number => digits number
  | .negSucc number => .scalar '-' :: digits (number + 1)

def printTwo (number : Int) : Str :=
  let text := printInt number
  if text.length < 2 then .scalar '0' :: text else text

-- `int(text)` of a text that `\d+` matched.
def parseDecimal (text : Str) : Option Nat :=
  if text = [] then none
  else (text.mapM digitValue).map fun values => values.foldl (fun number value => 10 * number + value) 0

theorem digitValue_ascii {point : CodePoint} (ascii : isAsciiDigit point = true) :
    digitValue point = some (code point - 0x30) := by
  simp only [isAsciiDigit, Bool.and_eq_true, decide_eq_true_eq] at ascii
  simp [digitValue, decimalZeros, ascii.1, ascii.2]

theorem isAsciiDigit_of_isDigit {char : Char} (digit : char.isDigit = true) : isAsciiDigit (.scalar char) = true := by
  simp only [Char.isDigit, Bool.and_eq_true, decide_eq_true_eq] at digit
  have low : 48 ≤ char.toNat := UInt32.le_iff_toNat_le.mp digit.1
  have high : char.toNat ≤ 57 := UInt32.le_iff_toNat_le.mp digit.2
  exact Bool.and_eq_true_iff.mpr ⟨decide_eq_true low, decide_eq_true (Nat.lt_succ_of_le high)⟩

theorem isAsciiDigit_of_mem_digits {number : Nat} {point : CodePoint} (member : point ∈ digits number) :
    isAsciiDigit point = true := by
  obtain ⟨char, inside, rfl⟩ := List.mem_map.mp member
  exact isAsciiDigit_of_isDigit (Nat.isDigit_of_mem_toDigits (by decide) (by decide) inside)

theorem digits_ne_nil (number : Nat) : digits number ≠ [] := by
  simp [digits, Nat.toDigits_ne_nil]

theorem mapM_digitValue {chars : List Char} (each : ∀ char ∈ chars, char.isDigit = true) :
    (chars.map CodePoint.scalar).mapM digitValue = some (chars.map fun char => char.toNat - '0'.toNat) := by
  induction chars with
  | nil => rfl
  | cons char rest ih =>
    have tail := ih fun other member => each other (List.mem_cons_of_mem _ member)
    have value := digitValue_ascii (isAsciiDigit_of_isDigit (each char List.mem_cons_self))
    rw [List.map_cons, List.mapM_cons, value, tail]
    rfl

theorem parseDecimal_append_zero (text : Str) (filled : text ≠ []) :
    parseDecimal (.scalar '0' :: text) = parseDecimal text := by
  have value : digitValue (.scalar '0') = some 0 := by decide
  rw [parseDecimal, parseDecimal, if_neg (by simp), if_neg filled, List.mapM_cons, value]
  cases text.mapM digitValue with
  | none => rfl
  | some values => rfl

theorem parseDecimal_digits (number : Nat) : parseDecimal (digits number) = some number := by
  have all : ∀ char ∈ Nat.toDigits 10 number, char.isDigit = true := fun char member =>
    Nat.isDigit_of_mem_toDigits (by decide) (by decide) member
  rw [parseDecimal, if_neg (digits_ne_nil number), digits, mapM_digitValue all, Option.map_some, List.foldl_map]
  exact congrArg some Nat.ofDigitChars_ten_toDigits

theorem printTwo_eq (number : Nat) :
    printTwo number = if (digits number).length < 2 then .scalar '0' :: digits number else digits number := rfl

theorem parseDecimal_printTwo (number : Nat) : parseDecimal (printTwo number) = some number := by
  simp only [printTwo]
  split
  · exact (parseDecimal_append_zero _ (digits_ne_nil number)).trans (parseDecimal_digits number)
  · exact parseDecimal_digits number

theorem isAsciiDigit_of_mem_printTwo {number : Nat} {point : CodePoint} (member : point ∈ printTwo number) :
    isAsciiDigit point = true := by
  simp only [printTwo] at member
  split at member
  · obtain rfl | rest := List.mem_cons.mp member
    · decide
    · exact isAsciiDigit_of_mem_digits rest
  · exact isAsciiDigit_of_mem_digits member

end Phaze.Unicode
