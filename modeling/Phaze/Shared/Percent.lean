import Mathlib

set_option autoImplicit false

/-!
# Percent-encoding of strings with lone surrogates

`quote` of `urllib.parse` with nothing safe but the unreserved characters, and the decoding of RFC 3986.
A string with a lone surrogate has no UTF-8 and so no encoding.
-/

namespace Phaze.Percent

inductive CodePoint where
  | scalar (char : Char)
  | surrogate (code : Fin 2048)
deriving DecidableEq

abbrev Str := List CodePoint

instance : LawfulBEq Str := List.instLawfulBEq

def str (literal : String) : Str := literal.toList.map .scalar

def CodePoint.utf8 : CodePoint → Option (List UInt8)
  | .scalar char => some (String.utf8EncodeChar char)
  | .surrogate _ => none

def utf8 (text : Str) : Option (List UInt8) := (text.mapM CodePoint.utf8).map List.flatten

def unreserved (char : Char) : Bool :=
  char.isAlphanum || char = '_' || char = '.' || char = '-' || char = '~'

def hexDigit (nibble : Nat) : Char := Char.ofNat (if nibble < 10 then 48 + nibble else 55 + nibble)

def hexValue (char : Char) : Option Nat :=
  if char.isDigit then some (char.toNat - 48)
  else if 'A' ≤ char ∧ char ≤ 'F' then some (char.toNat - 55)
  else if 'a' ≤ char ∧ char ≤ 'f' then some (char.toNat - 87)
  else none

def quoteByte (byte : UInt8) : Str :=
  let char := Char.ofNat byte.toNat
  if byte.toNat < 128 ∧ unreserved char then [.scalar char]
  else [.scalar '%', .scalar (hexDigit (byte.toNat / 16)), .scalar (hexDigit (byte.toNat % 16))]

def quote (text : Str) : Option Str := (utf8 text).map fun bytes => bytes.flatMap quoteByte

def percentDecode : Str → Option (List UInt8)
  | [] => some []
  | .surrogate _ :: _ => none
  | .scalar char :: rest =>
      if char = '%' then
        match rest with
        | .scalar high :: .scalar low :: rest =>
            match hexValue high, hexValue low with
            | some high, some low => (percentDecode rest).map (UInt8.ofNat (16 * high + low) :: ·)
            | _, _ => none
        | _ => none
      else if char.toNat < 128 then (percentDecode rest).map (UInt8.ofNat char.toNat :: ·)
      else none

def unquote (text : Str) : Option Str :=
  (percentDecode text).bind fun bytes => (List.toByteArray bytes).utf8Decode?.map fun chars =>
    chars.toList.map .scalar

/-! ## What is encoded -/

-- The characters that an encoding has.
def CodePoint.quoted : CodePoint → Bool
  | .scalar char => unreserved char || char = '%'
  | .surrogate _ => false

theorem hexDigit_unreserved {nibble : Nat} (small : nibble < 16) : unreserved (hexDigit nibble) = true := by
  have all : ∀ digit : Fin 16, unreserved (hexDigit digit) = true := by decide
  exact all ⟨nibble, small⟩

theorem hexValue_hexDigit {nibble : Nat} (small : nibble < 16) : hexValue (hexDigit nibble) = some nibble := by
  have all : ∀ digit : Fin 16, hexValue (hexDigit digit) = some digit.val := by decide
  exact all ⟨nibble, small⟩

theorem quoteByte_quoted (byte : UInt8) : ∀ point ∈ quoteByte byte, point.quoted = true := by
  have small := byte.toNat_lt
  intro point member
  simp only [quoteByte] at member
  split at member
  next plain =>
    obtain rfl := List.mem_singleton.mp member
    simp [CodePoint.quoted, plain.2]
  next =>
    have high := hexDigit_unreserved (show byte.toNat / 16 < 16 by omega)
    have low := hexDigit_unreserved (show byte.toNat % 16 < 16 by omega)
    simp only [List.mem_cons, List.not_mem_nil, or_false] at member
    obtain rfl | rfl | rfl := member
    · rfl
    · simp [CodePoint.quoted, high]
    · simp [CodePoint.quoted, low]

theorem quote_quoted {text quoted : Str} (encoded : quote text = some quoted) :
    ∀ point ∈ quoted, point.quoted = true := by
  obtain ⟨bytes, -, rfl⟩ := Option.map_eq_some_iff.mp encoded
  intro point member
  obtain ⟨byte, -, inside⟩ := List.mem_flatMap.mp member
  exact quoteByte_quoted byte point inside

/-! ## The round trip -/

theorem unreserved_ne_percent {char : Char} (plain : unreserved char = true) : char ≠ '%' := by
  rintro rfl
  exact absurd plain (by decide)

theorem percentDecode_plain {char : Char} (ascii : char.toNat < 128) (plain : char ≠ '%') (rest : Str) :
    percentDecode (.scalar char :: rest) = (percentDecode rest).map (UInt8.ofNat char.toNat :: ·) := by
  rw [percentDecode.eq_def]
  simp [plain, ascii]

theorem percentDecode_quoteByte (byte : UInt8) (rest : Str) :
    percentDecode (quoteByte byte ++ rest) = (percentDecode rest).map (byte :: ·) := by
  have small := byte.toNat_lt
  simp only [quoteByte]
  split
  next plain =>
    have valid : byte.toNat.isValidChar := .inl (by omega)
    have code : (Char.ofNat byte.toNat).toNat = byte.toNat := by
      simp [Char.ofNat, valid, Char.toNat, Char.ofNatAux]
    rw [List.singleton_append, percentDecode_plain (by omega) (unreserved_ne_percent plain.2), code, UInt8.ofNat_toNat]
  next =>
    have high := hexValue_hexDigit (show byte.toNat / 16 < 16 by omega)
    have low := hexValue_hexDigit (show byte.toNat % 16 < 16 by omega)
    have whole : 16 * (byte.toNat / 16) + byte.toNat % 16 = byte.toNat := by omega
    simp [percentDecode, high, low, whole]

theorem percentDecode_quoted (bytes : List UInt8) : percentDecode (bytes.flatMap quoteByte) = some bytes := by
  induction bytes with
  | nil => rfl
  | cons byte rest ih => rw [List.flatMap_cons, percentDecode_quoteByte, ih, Option.map_some]

theorem mapM_some {α β : Type} {f : α → Option β} {items : List α} {results : List β} :
    items.mapM f = some results ↔ List.Forall₂ (fun item result => f item = some result) items results := by
  induction items generalizing results with
  | nil =>
    cases results <;> simp
  | cons item rest ih =>
    cases results with
    | nil => simp [List.mapM_cons, Option.bind_eq_some_iff]
    | cons result others => simp [List.mapM_cons, Option.bind_eq_some_iff, ih]

theorem utf8_scalars {text : Str} {bytes : List UInt8} (encoded : utf8 text = some bytes) :
    ∃ chars : List Char, text = chars.map .scalar ∧ bytes = chars.flatMap String.utf8EncodeChar := by
  induction text generalizing bytes with
  | nil =>
    obtain rfl : bytes = [] := by simpa [utf8] using encoded.symm
    exact ⟨[], rfl, rfl⟩
  | cons point rest ih =>
    cases point with
    | surrogate code => simp [utf8, CodePoint.utf8] at encoded
    | scalar char =>
      simp only [utf8, List.mapM_cons, CodePoint.utf8, Option.pure_def, Option.bind_eq_bind, Option.bind_some,
        Option.map_eq_some_iff, Option.bind_eq_some_iff, Option.some.injEq] at encoded
      obtain ⟨parts, ⟨others, found, rfl⟩, rfl⟩ := encoded
      have tail : utf8 rest = some others.flatten := by simp [utf8, found]
      obtain ⟨chars, rfl, same⟩ := ih tail
      exact ⟨char :: chars, rfl, by simp [same]⟩

theorem unquote_quote {text quoted : Str} (encoded : quote text = some quoted) : unquote quoted = some text := by
  obtain ⟨bytes, read, rfl⟩ := Option.map_eq_some_iff.mp encoded
  obtain ⟨chars, rfl, rfl⟩ := utf8_scalars read
  have decoded : (List.toByteArray (chars.flatMap String.utf8EncodeChar)).utf8Decode? = some chars.toArray :=
    List.utf8Decode?_utf8Encode
  simp [unquote, percentDecode_quoted, decoded]

/-- Text of ASCII without a percent sign stands for itself. -/
theorem unquote_plain {text : Str}
    (plain : ∀ point ∈ text, ∃ char : Char, point = .scalar char ∧ char.toNat < 128 ∧ char ≠ '%') :
    unquote text = some text := by
  have read : ∃ chars : List Char, text = chars.map .scalar ∧
      percentDecode text = some (chars.flatMap String.utf8EncodeChar) := by
    induction text with
    | nil => exact ⟨[], rfl, rfl⟩
    | cons point rest ih =>
      obtain ⟨char, rfl, ascii, other⟩ := plain point List.mem_cons_self
      obtain ⟨chars, rfl, decoded⟩ := ih fun point member => plain point (List.mem_cons_of_mem _ member)
      have one : String.utf8EncodeChar char = [UInt8.ofNat char.toNat] :=
        String.utf8EncodeChar_eq_singleton (Char.utf8Size_eq_one_iff.mpr (by
          rw [UInt32.le_iff_toNat_le]
          exact Nat.lt_succ_iff.mp ascii))
      exact ⟨char :: chars, rfl, by rw [percentDecode_plain ascii other, decoded, List.flatMap_cons, one]; rfl⟩
  obtain ⟨chars, rfl, decoded⟩ := read
  have back : (List.toByteArray (chars.flatMap String.utf8EncodeChar)).utf8Decode? = some chars.toArray :=
    List.utf8Decode?_utf8Encode
  simp [unquote, decoded, back]

end Phaze.Percent
