import Phaze.Shared.Percent

set_option autoImplicit false

/-!
# Single-byte codecs

Tables of one character for a byte, what they decode and encode, and UTF-8 read through one of them.
-/

namespace Phaze.Codecs

open Phaze.Percent

-- The characters of a codec, where a byte may have none.
structure Codec where
  table : UInt8 → Option Char
  injective : ∀ byte other char, table byte = some char → table other = some char → byte = other
  ascii : ∀ byte, byte.toNat < 128 → table byte = some (Char.ofNat byte.toNat)

def allBytes : List UInt8 := (List.range 256).map UInt8.ofNat

def Codec.encodePoint (codec : Codec) : CodePoint → Option UInt8
  | .scalar char => allBytes.find? fun byte => codec.table byte = some char
  | .surrogate _ => none

def Codec.encode (codec : Codec) (text : Str) : Option (List UInt8) := text.mapM codec.encodePoint

def Codec.decodeByte (codec : Codec) (byte : UInt8) : Option CodePoint := (codec.table byte).map .scalar

def Codec.decode (codec : Codec) (bytes : List UInt8) : Option Str := bytes.mapM codec.decodeByte

def utf8Decode (bytes : List UInt8) : Option Str := (List.toByteArray bytes).utf8Decode?.map fun chars => chars.toList.map .scalar

-- A text that was UTF-8, read by a codec.
def Codec.misread (codec : Codec) (text : Str) : Option Str := (utf8 text).bind codec.decode

/-! ## Bytes and characters -/

variable {codec other : Codec} {bytes others : List UInt8} {text : Str}

theorem mem_allBytes (byte : UInt8) : byte ∈ allBytes :=
  List.mem_map.mpr ⟨byte.toNat, List.mem_range.mpr byte.toNat_lt, UInt8.ofNat_toNat⟩

theorem encodePoint_iff {char : Char} {byte : UInt8} : codec.encodePoint (.scalar char) = some byte ↔ codec.table byte = some char := by
  rw [Codec.encodePoint]
  constructor
  · intro found
    simpa using List.find?_some found
  · intro read
    cases found : allBytes.find? fun byte => codec.table byte = some char with
    | none => exact absurd (decide_eq_true read) (List.find?_eq_none.mp found byte (mem_allBytes byte))
    | some first =>
      have same : codec.table first = some char := by simpa using List.find?_some found
      rw [codec.injective first byte char same read]

theorem decodeByte_iff {byte : UInt8} {point : CodePoint} : codec.decodeByte byte = some point ↔ codec.encodePoint point = some byte := by
  rw [Codec.decodeByte, Option.map_eq_some_iff]
  constructor
  · rintro ⟨char, read, rfl⟩
    exact encodePoint_iff.mpr read
  · intro found
    cases point with
    | surrogate => cases found
    | scalar char => exact ⟨char, encodePoint_iff.mp found, rfl⟩

theorem encode_iff_decode : codec.encode text = some bytes ↔ codec.decode bytes = some text := by
  rw [Codec.encode, Codec.decode, mapM_some, mapM_some]
  constructor
  · intro each
    exact each.flip.imp fun _ _ found => decodeByte_iff.mpr found
  · intro each
    exact each.flip.imp fun _ _ read => decodeByte_iff.mp read

-- Two codecs have one byte for a character that both have.
def Agree (codec other : Codec) : Prop :=
  ∀ byte rival char, codec.table byte = some char → other.table rival = some char → byte = rival

theorem encode_agree (agree : Agree codec other) (decoded : codec.decode bytes = some text) (encoded : other.encode text = some others) :
    others = bytes := by
  rw [encode_iff_decode, Codec.decode, mapM_some] at encoded
  rw [Codec.decode, mapM_some] at decoded
  induction decoded generalizing others with
  | nil =>
    cases encoded
    rfl
  | cons first rest ih =>
    cases encoded with
    | cons second later =>
      obtain ⟨char, read, rfl⟩ := Option.map_eq_some_iff.mp first
      obtain ⟨rival, read', same⟩ := Option.map_eq_some_iff.mp second
      obtain rfl := CodePoint.scalar.inj same
      rw [agree _ _ _ read read', ih later]

/-! ## UTF-8 -/

theorem utf8Decode_utf8 (encoded : utf8 text = some bytes) : utf8Decode bytes = some text := by
  obtain ⟨chars, rfl, rfl⟩ := utf8_scalars encoded
  have decoded : (List.toByteArray (chars.flatMap String.utf8EncodeChar)).utf8Decode? = some chars.toArray := List.utf8Decode?_utf8Encode
  rw [utf8Decode, decoded, Option.map_some]

def isAscii : CodePoint → Bool
  | .scalar char => char.toNat < 128
  | .surrogate _ => false

theorem utf8Size_one {char : Char} : char.utf8Size = 1 ↔ char.toNat < 128 := by
  rw [Char.utf8Size_eq_one_iff, UInt32.le_iff_toNat_le]
  exact Nat.lt_succ_iff.symm

-- A text is as long as its UTF-8 only if all of it is ASCII.
theorem utf8_length (encoded : utf8 text = some bytes) : text.length ≤ bytes.length ∧
    (bytes.length ≤ text.length → ∀ point ∈ text, isAscii point = true) := by
  obtain ⟨chars, rfl, rfl⟩ := utf8_scalars encoded
  clear encoded
  induction chars with
  | nil => exact ⟨le_rfl, fun _ point member => absurd member List.not_mem_nil⟩
  | cons char rest ih =>
    have wide := char.utf8Size_pos
    simp only [List.map_cons, List.flatMap_cons, List.length_cons, List.length_append, String.length_utf8EncodeChar] at ih ⊢
    refine ⟨by omega, fun short point member => ?_⟩
    obtain rfl | later := List.mem_cons.mp member
    · have one : char.utf8Size = 1 := by omega
      exact decide_eq_true (utf8Size_one.mp one)
    · exact ih.2 (by omega) point later

theorem decode_length (decoded : codec.decode bytes = some text) : text.length = bytes.length := by
  rw [Codec.decode, mapM_some] at decoded
  exact decoded.length_eq.symm

theorem utf8_cons (char : Char) (rest : Str) : utf8 (.scalar char :: rest) = (utf8 rest).map (String.utf8EncodeChar char ++ ·) := by
  rw [utf8, utf8, List.mapM_cons]
  cases List.mapM CodePoint.utf8 rest with
  | none => rfl
  | some parts => rfl

-- ASCII is read as itself.
theorem misread_ascii (plain : ∀ point ∈ text, isAscii point = true) : codec.misread text = some text := by
  have each : ∃ bytes, utf8 text = some bytes ∧ List.Forall₂ (fun byte point => codec.decodeByte byte = some point) bytes text := by
    induction text with
    | nil => exact ⟨[], rfl, .nil⟩
    | cons point rest ih =>
      obtain ⟨bytes, encoded, decoded⟩ := ih fun other member => plain other (List.mem_cons_of_mem _ member)
      have narrow := plain point List.mem_cons_self
      cases point with
      | surrogate code => cases narrow
      | scalar char =>
        have small : char.toNat < 128 := of_decide_eq_true narrow
        have one : String.utf8EncodeChar char = [UInt8.ofNat char.toNat] := String.utf8EncodeChar_eq_singleton (utf8Size_one.mpr small)
        have back : (UInt8.ofNat char.toNat).toNat = char.toNat := UInt8.toNat_ofNat_of_lt' (Nat.lt_trans small (by decide))
        have read : codec.decodeByte (UInt8.ofNat char.toNat) = some (.scalar char) := by
          rw [Codec.decodeByte, codec.ascii _ (by omega), back, Char.ofNat_toNat]
          rfl
        exact ⟨UInt8.ofNat char.toNat :: bytes, by rw [utf8_cons, encoded, one]; rfl, .cons read decoded⟩
  obtain ⟨bytes, encoded, decoded⟩ := each
  rw [Codec.misread, encoded, Option.bind_some, Codec.decode, mapM_some]
  exact decoded

theorem misread_length {read : Str} (same : codec.misread text = some read) : text.length ≤ read.length ∧
    (read.length ≤ text.length → ∀ point ∈ text, isAscii point = true) := by
  obtain ⟨bytes, encoded, decoded⟩ := Option.bind_eq_some_iff.mp same
  rw [decode_length decoded]
  exact utf8_length encoded

end Phaze.Codecs
