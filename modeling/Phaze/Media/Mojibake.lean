import Phaze.Shared.Codecs

set_option autoImplicit false

/-!
# Repair of double-encoded text

`services/text_repair.py`: at most four round trips through a single-byte codec, each of which has to shorten the text.
-/

namespace Phaze.Media

open Phaze.Percent Phaze.Codecs

-- The characters of `cp1252` from 0x80 to 0x9F.
def cp1252High : List (Option Char) :=
  [some '\u20AC', none, some '\u201A', some '\u0192', some '\u201E', some '\u2026', some '\u2020', some '\u2021', some '\u02C6',
    some '\u2030', some '\u0160', some '\u2039', some '\u0152', none, some '\u017D', none, none, some '\u2018', some '\u2019',
    some '\u201C', some '\u201D', some '\u2022', some '\u2013', some '\u2014', some '\u02DC', some '\u2122', some '\u0161',
    some '\u203A', some '\u0153', none, some '\u017E', some '\u0178']

def highByte (byte : UInt8) : Prop := 0x80 ≤ byte.toNat ∧ byte.toNat < 0xA0

instance (byte : UInt8) : Decidable (highByte byte) := inferInstanceAs (Decidable (0x80 ≤ byte.toNat ∧ byte.toNat < 0xA0))

def cp1252Table (byte : UInt8) : Option Char :=
  if highByte byte then (cp1252High[byte.toNat - 0x80]?).join else some (Char.ofNat byte.toNat)

def latinTable (byte : UInt8) : Option Char := some (Char.ofNat byte.toNat)

theorem byte_code (byte : UInt8) : (Char.ofNat byte.toNat).toNat = byte.toNat := by
  have small := byte.toNat_lt
  have valid : byte.toNat.isValidChar := .inl (by omega)
  simp [Char.ofNat, valid, Char.toNat, Char.ofNatAux]

theorem byte_of_code {byte other : UInt8} {char : Char} (first : Char.ofNat byte.toNat = char)
    (second : Char.ofNat other.toNat = char) : byte = other := by
  have same := congrArg Char.toNat (first.trans second.symm)
  rw [byte_code, byte_code] at same
  exact UInt8.toNat_inj.mp same

def highChar (place : Nat) : Option Char := (cp1252High[place]?).join

-- The characters of the high bytes are beyond Latin-1, and no two are the same.
theorem high_beyond : ∀ place < 32, (highChar place).all (fun char => decide (0xFF < char.toNat)) = true := by decide +kernel

theorem high_distinct : ∀ place < 32, ∀ other < 32, (highChar place).isSome = true → highChar place = highChar other → place = other := by
  decide +kernel

theorem cp1252_reads {byte : UInt8} {char : Char} (read : cp1252Table byte = some char) :
    (¬ highByte byte ∧ Char.ofNat byte.toNat = char) ∨ (highByte byte ∧ 0xFF < char.toNat ∧ highChar (byte.toNat - 0x80) = some char) := by
  rw [cp1252Table] at read
  split at read
  next high =>
    have beyond := high_beyond (byte.toNat - 0x80) (by have := high.2; omega)
    have same : highChar (byte.toNat - 0x80) = some char := read
    rw [same, Option.all_some] at beyond
    exact .inr ⟨high, of_decide_eq_true beyond, same⟩
  next low => exact .inl ⟨low, Option.some.inj read⟩

theorem latin_reads {byte : UInt8} {char : Char} (read : latinTable byte = some char) : Char.ofNat byte.toNat = char ∧
    char.toNat < 0x100 := by
  have same := Option.some.inj read
  have code := byte_code byte
  have small := byte.toNat_lt
  rw [same] at code
  exact ⟨same, by omega⟩

def cp1252 : Codec where
  table := cp1252Table
  injective byte other char first second := by
    obtain ⟨-, same⟩ | ⟨high, beyond, same⟩ := cp1252_reads first
    · obtain ⟨-, alike⟩ | ⟨high, beyond, alike⟩ := cp1252_reads second
      · exact byte_of_code same alike
      · have code := byte_code byte
        have small := byte.toNat_lt
        rw [same] at code
        omega
    · obtain ⟨-, alike⟩ | ⟨high', -, alike⟩ := cp1252_reads second
      · have code := byte_code other
        have small := other.toNat_lt
        rw [alike] at code
        omega
      · have place := high_distinct (byte.toNat - 0x80) (by have := high.2; omega) (other.toNat - 0x80) (by have := high'.2; omega)
          (by rw [same]; rfl) (same.trans alike.symm)
        have least := high.1
        have least' := high'.1
        exact UInt8.toNat_inj.mp (by omega)
  ascii byte small := by
    have low : ¬ highByte byte := fun high => by
      have least := high.1
      omega
    exact if_neg low

def latin1 : Codec where
  table := latinTable
  injective _ _ _ first second := byte_of_code (latin_reads first).1 (latin_reads second).1
  ascii _ _ := rfl

def roundTripCodecs : List Codec := [cp1252, latin1]

def maxRepairPasses : Nat := 4

-- `s.encode(codec).decode("utf-8")`
def roundTrip (text : Str) (codec : Codec) : Option Str := (codec.encode text).bind utf8Decode

def roundTripOnce (text : Str) : Option Str :=
  roundTripCodecs.findSome? fun codec => (roundTrip text codec).filter fun candidate => candidate.length < text.length

def repairPasses : Nat → Str → Str
  | 0, current => current
  | count + 1, current => (roundTripOnce current).elim current fun candidate => repairPasses count candidate

def repairMojibake (text : Str) : Str := repairPasses maxRepairPasses text

-- Misreadings in turn, each by one of the codecs.
def damaged : List Codec → Str → Option Str
  | [], text => some text
  | codec :: rest, text => (codec.misread text).bind (damaged rest)

/-! ## One pass -/

variable {text candidate : Str} {codec : Codec}

theorem agree {codec other : Codec} (here : codec ∈ roundTripCodecs) (there : other ∈ roundTripCodecs) : Agree codec other := by
  have cross : Agree cp1252 latin1 := by
    intro byte rival char first second
    obtain ⟨same, small⟩ := latin_reads second
    obtain ⟨-, alike⟩ | ⟨-, beyond, -⟩ := cp1252_reads first
    · exact byte_of_code alike same
    · omega
  simp only [roundTripCodecs, List.mem_cons, List.not_mem_nil, or_false] at here there
  obtain rfl | rfl := here
  · obtain rfl | rfl := there
    · exact cp1252.injective
    · exact cross
  · obtain rfl | rfl := there
    · exact fun byte rival char first second => (cross rival byte char second first).symm
    · exact latin1.injective

theorem roundTripOnce_shorter (same : roundTripOnce text = some candidate) : candidate.length < text.length := by
  obtain ⟨codec, -, found⟩ := List.exists_of_findSome?_eq_some same
  exact of_decide_eq_true (Option.filter_eq_some_iff.mp found).2

-- A misread text is read back, whichever codec comes first.
theorem roundTripOnce_misread (member : codec ∈ roundTripCodecs) (same : codec.misread candidate = some text)
    (longer : candidate.length < text.length) :
    roundTripOnce text = some candidate := by
  obtain ⟨bytes, encoded, decoded⟩ := Option.bind_eq_some_iff.mp same
  have each : ∀ other ∈ roundTripCodecs, roundTrip text other = none ∨ roundTrip text other = some candidate := by
    intro other here
    rw [roundTrip]
    cases found : other.encode text with
    | none => exact .inl rfl
    | some others =>
      right
      rw [encode_agree (agree member here) decoded found, Option.bind_some, utf8Decode_utf8 encoded]
  have own : roundTrip text codec = some candidate := by
    rw [roundTrip, encode_iff_decode.mpr decoded, Option.bind_some, utf8Decode_utf8 encoded]
  have accepted : (roundTrip text codec).filter (fun found => found.length < text.length) = some candidate := by
    rw [own]
    exact Option.filter_some_pos (decide_eq_true longer)
  cases result : roundTripOnce text with
  | none =>
    have none := List.findSome?_eq_none_iff.mp result codec member
    rw [accepted] at none
    cases none
  | some found =>
    obtain ⟨other, here, same⟩ := List.exists_of_findSome?_eq_some result
    have read := (Option.filter_eq_some_iff.mp same).1
    obtain nothing | right := each other here
    · rw [nothing] at read
      cases read
    · rw [right] at read
      exact read.symm

/-! ## Passes in turn -/

-- So many accepted passes lead from one text to another.
inductive Follows : Nat → Str → Str → Prop
  | none (text : Str) : Follows 0 text text
  | pass (count : Nat) (text candidate final : Str) (once : roundTripOnce text = some candidate) (rest : Follows count candidate final) :
      Follows (count + 1) text final

variable {count limit : Nat} {final : Str}

theorem Follows.then (follows : Follows count text candidate) (once : roundTripOnce candidate = some final) : Follows
    (count + 1) text final := by
  induction follows with
  | none text => exact .pass 0 text final final once (.none final)
  | pass count text next candidate first rest ih => exact .pass (count + 1) text next final first (ih once)

theorem Follows.shorter (follows : Follows count text final) : final.length + count ≤ text.length := by
  induction follows with
  | none text => exact Nat.le_refl _
  | pass count text candidate final once rest ih =>
    have less := roundTripOnce_shorter once
    omega

theorem repairPasses_length (limit : Nat) (text : Str) : (repairPasses limit text).length ≤ text.length := by
  induction limit generalizing text with
  | zero => exact Nat.le_refl _
  | succ limit ih =>
    rw [repairPasses]
    cases once : roundTripOnce text with
    | none => exact Nat.le_refl _
    | some candidate => exact (ih candidate).trans (roundTripOnce_shorter once).le

-- A text at which the passes end within the limit is the result.
theorem repairPasses_settled (follows : Follows count text final) (settled : roundTripOnce final = none) (few : count ≤ limit) :
    repairPasses limit text = final := by
  induction follows generalizing limit with
  | none text =>
    cases limit with
    | zero => rfl
    | succ limit => rw [repairPasses, settled, Option.elim_none]
  | pass count text candidate final once rest ih =>
    obtain ⟨limit, rfl⟩ : ∃ more, limit = more + 1 := ⟨limit - 1, by omega⟩
    rw [repairPasses, once, Option.elim_some]
    exact ih settled (by omega)

-- Beyond the limit some passes are left.
theorem repairPasses_left (follows : Follows count text final) (more : limit < count) : final.length < (repairPasses limit text).length := by
  induction limit generalizing count text with
  | zero =>
    have less := follows.shorter
    show final.length < text.length
    omega
  | succ limit ih =>
    cases follows with
    | none => omega
    | pass count text candidate final once rest =>
      rw [repairPasses, once, Option.elim_some]
      exact ih rest (by omega)

theorem repair_unchanged : repairMojibake text = text ↔ roundTripOnce text = none := by
  constructor
  · intro same
    by_contra some
    obtain ⟨candidate, once⟩ := Option.ne_none_iff_exists'.mp some
    have shorter := repairPasses_length 3 candidate
    have less := roundTripOnce_shorter once
    rw [repairMojibake, maxRepairPasses, repairPasses, once, Option.elim_some] at same
    rw [same] at shorter
    omega
  · intro settled
    exact repairPasses_settled (.none text) settled (Nat.zero_le _)

/-! ## Damage -/

def Ascii (text : Str) : Prop := ∀ point ∈ text, isAscii point = true

theorem damaged_ascii (plain : Ascii text) (codecs : List Codec) : damaged codecs text = some text := by
  induction codecs with
  | nil => rfl
  | cons codec rest ih => rw [damaged, misread_ascii plain, Option.bind_some, ih]

theorem misread_longer {read : Str} (foreign : ¬ Ascii text) (same : codec.misread text = some read) : text.length < read.length := by
  obtain ⟨atLeast, plain⟩ := misread_length same
  by_contra short
  exact foreign (plain (not_lt.mp short))

-- What is misread from beyond ASCII stays beyond it.
theorem misread_foreign {read : Str} (foreign : ¬ Ascii text) (same : codec.misread text = some read) : ¬ Ascii read := by
  intro plain
  have longer := misread_longer foreign same
  obtain ⟨bytes, encoded, decoded⟩ := Option.bind_eq_some_iff.mp same
  have own : codec.misread read = some read := misread_ascii plain
  obtain ⟨others, encoded', decoded'⟩ := Option.bind_eq_some_iff.mp own
  have alike : bytes = others := Option.some.inj ((encode_iff_decode.mpr decoded).symm.trans (encode_iff_decode.mpr decoded'))
  subst alike
  have back := (utf8Decode_utf8 encoded).symm.trans (utf8Decode_utf8 encoded')
  rw [Option.some.inj back] at longer
  exact lt_irrefl _ longer

-- Each misreading is one pass of the way back.
theorem damaged_follows {codecs : List Codec} (among : ∀ codec ∈ codecs, codec ∈ roundTripCodecs) (foreign : ¬ Ascii text)
    (same : damaged codecs text = some candidate) : Follows codecs.length candidate text := by
  induction codecs generalizing text with
  | nil =>
    obtain rfl := Option.some.inj same
    exact .none text
  | cons codec rest ih =>
    obtain ⟨read, first, later⟩ := Option.bind_eq_some_iff.mp same
    have back := ih (fun other member => among other (List.mem_cons_of_mem _ member)) (misread_foreign foreign first) later
    exact back.then (roundTripOnce_misread (among codec List.mem_cons_self) first (misread_longer foreign first))

theorem repair_damaged {codecs : List Codec} (settled : repairMojibake text = text) (among : ∀ codec ∈ codecs, codec ∈ roundTripCodecs)
    (same : damaged codecs text = some candidate) : repairMojibake candidate = text ↔ codecs.length ≤ maxRepairPasses ∨ Ascii text := by
  by_cases plain : Ascii text
  · rw [damaged_ascii plain] at same
    obtain rfl := Option.some.inj same
    exact ⟨fun _ => .inr plain, fun _ => settled⟩
  · have back := damaged_follows among plain same
    constructor
    · intro repaired
      left
      by_contra many
      have left := repairPasses_left back (not_le.mp many)
      rw [← repairMojibake, repaired] at left
      exact lt_irrefl _ left
    · rintro (few | ascii)
      · exact repairPasses_settled back (repair_unchanged.mp settled) few
      · exact absurd ascii plain

/-! ## Both laws -/

-- As documented, whatever the number of passes.
structure Repairs : Prop where
  shorter : ∀ text, (repairMojibake text).length ≤ text.length
  idempotent : ∀ text, repairMojibake (repairMojibake text) = repairMojibake text
  inverts : ∀ text, repairMojibake text = text → ∀ codecs candidate, (∀ codec ∈ codecs, codec ∈ roundTripCodecs) →
    damaged codecs text = some candidate → repairMojibake candidate = text

-- Within the bound on the passes.
structure RepairsBounded : Prop where
  shorter : ∀ text, (repairMojibake text).length ≤ text.length
  idempotent : ∀ text count final, count ≤ maxRepairPasses → Follows count text final → roundTripOnce final = none →
    repairMojibake text = final ∧ repairMojibake (repairMojibake text) = repairMojibake text
  inverts : ∀ text, repairMojibake text = text → ∀ codecs candidate, (∀ codec ∈ codecs, codec ∈ roundTripCodecs) →
    damaged codecs text = some candidate → (repairMojibake candidate = text ↔ codecs.length ≤ maxRepairPasses ∨ Ascii text)

-- Four misreadings are undone, and four passes settle what they end with.
theorem repairs_within_bound : RepairsBounded := by
  constructor
  · exact repairPasses_length maxRepairPasses
  · intro text count final few follows settled
    have result : repairMojibake text = final := repairPasses_settled follows settled few
    rw [result]
    exact ⟨rfl, repair_unchanged.mpr settled⟩
  · intro text settled codecs candidate among same
    exact repair_damaged settled among same

def accented : Str := str "caf\u00E9"

-- UTF-8 read as cp1252, and the outcome in UTF-8 read as latin-1.
def readTwice : Str := str "caf\u00C3\u0083\u00C2\u00A9"

theorem read_twice_is_repaired : damaged [cp1252, latin1] accented = some readTwice ∧ repairMojibake readTwice = accented := by
  have settled : repairMojibake accented = accented := repair_unchanged.mpr (by decide +kernel)
  have read : damaged [cp1252, latin1] accented = some readTwice := by decide +kernel
  have among : ∀ codec ∈ [cp1252, latin1], codec ∈ roundTripCodecs := by
    intro codec member
    exact member
  exact ⟨read, (repairs_within_bound.inverts accented settled _ _ among read).mpr (.inl (by decide))⟩

def beyondCodecs : Str := str "\u4E2D"

theorem five_misreadings_stay : ¬ Repairs := by
  intro repairs
  have settled : repairMojibake beyondCodecs = beyondCodecs := repair_unchanged.mpr (by decide +kernel)
  have among : ∀ codec ∈ List.replicate 5 latin1, codec ∈ roundTripCodecs := by
    intro codec member
    rw [List.eq_of_mem_replicate member]
    exact List.mem_cons_of_mem _ List.mem_cons_self
  have read : (damaged (List.replicate 5 latin1) beyondCodecs).isSome = true := by decide +kernel
  obtain ⟨candidate, same⟩ := Option.isSome_iff_exists.mp read
  have undone := (repair_damaged settled among same).mp (repairs.inverts _ settled _ candidate among same)
  obtain few | plain := undone
  · exact absurd few (by decide)
  · exact absurd (plain (.scalar '\u4E2D') (by decide)) (by decide)

end Phaze.Media
