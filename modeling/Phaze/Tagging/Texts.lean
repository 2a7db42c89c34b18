import Phaze.Shared.PurePath

set_option autoImplicit false

/-!
# Texts of tags

What reading does to a text: `sanitize_pg_text`, `repair_mojibake`, and the parsers of years and track numbers.
A text that a container gave up holds no lone surrogates.
-/

namespace Phaze.Tagging

open Shared

/-! ## Repair -/

def sanitizePgText (text : Text) : Text :=
  text.filter (· ≠ '\x00')

-- What the codec `cp1252` has at 0x80 to 0x9f.
def cp1252Table : List (Nat × Nat) :=
  [(0x20ac, 0x80), (0x201a, 0x82), (0x0192, 0x83), (0x201e, 0x84), (0x2026, 0x85), (0x2020, 0x86), (0x2021, 0x87),
    (0x02c6, 0x88), (0x2030, 0x89), (0x0160, 0x8a), (0x2039, 0x8b), (0x0152, 0x8c), (0x017d, 0x8e), (0x2018, 0x91),
    (0x2019, 0x92), (0x201c, 0x93), (0x201d, 0x94), (0x2022, 0x95), (0x2013, 0x96), (0x2014, 0x97), (0x02dc, 0x98),
    (0x2122, 0x99), (0x0161, 0x9a), (0x203a, 0x9b), (0x0153, 0x9c), (0x017e, 0x9e), (0x0178, 0x9f)]

def encodeCp1252 (char : Char) : Option Nat :=
  if char.toNat < 0x80 then some char.toNat
  else if 0xa0 ≤ char.toNat ∧ char.toNat < 0x100 then some char.toNat
  else cp1252Table.lookup char.toNat

def encodeLatin1 (char : Char) : Option Nat :=
  if char.toNat < 0x100 then some char.toNat else none

def continuation (byte : Nat) : Bool :=
  0x80 ≤ byte && byte < 0xc0

-- The strict decoder: no overlong forms, no surrogates, nothing above U+10FFFF.
def decodeUtf8 : List Nat → Option Text
  | [] => some []
  | lead :: rest =>
      if lead < 0x80 then (decodeUtf8 rest).map (Char.ofNat lead :: ·)
      else
        match rest with
        | [] => none
        | second :: rest =>
            if 0xc2 ≤ lead ∧ lead < 0xe0 ∧ continuation second then
              (decodeUtf8 rest).map (Char.ofNat ((lead - 0xc0) * 64 + (second - 0x80)) :: ·)
            else
              match rest with
              | [] => none
              | third :: rest =>
                  let code := (lead - 0xe0) * 4096 + (second - 0x80) * 64 + (third - 0x80)
                  if 0xe0 ≤ lead ∧ lead < 0xf0 ∧ continuation second ∧ continuation third ∧ 0x800 ≤ code ∧
                      ¬ (0xd800 ≤ code ∧ code < 0xe000) then
                    (decodeUtf8 rest).map (Char.ofNat code :: ·)
                  else
                    match rest with
                    | [] => none
                    | fourth :: rest =>
                        let code :=
                          (lead - 0xf0) * 262144 + (second - 0x80) * 4096 + (third - 0x80) * 64 + (fourth - 0x80)
                        if 0xf0 ≤ lead ∧ lead < 0xf5 ∧ continuation second ∧ continuation third ∧
                            continuation fourth ∧ 0x10000 ≤ code ∧ code < 0x110000 then
                          (decodeUtf8 rest).map (Char.ofNat code :: ·)
                        else none

-- `_ROUND_TRIP_CODECS`
def roundTripCodecs : List (Char → Option Nat) := [encodeCp1252, encodeLatin1]

def roundTripOnce (text : Text) : Option Text :=
  roundTripCodecs.findSome? fun codec =>
    ((text.mapM codec).bind decodeUtf8).filter fun candidate => candidate.length < text.length

-- `_MAX_REPAIR_PASSES`
def maxRepairPasses : Nat := 4

def repairPasses : Nat → Text → Text
  | 0, current => current
  | passes + 1, current =>
      match roundTripOnce current with
      | none => current
      | some candidate => repairPasses passes candidate

def repairMojibake (text : Text) : Text :=
  repairPasses maxRepairPasses text

def Ascii (text : Text) : Prop :=
  ∀ char ∈ text, char.toNat < 0x80

theorem decodeUtf8_ascii {text : Text} (ascii : Ascii text) : decodeUtf8 (text.map Char.toNat) = some text := by
  induction text with
  | nil => rfl
  | cons char rest ih =>
    have below := ascii char List.mem_cons_self
    have tail := ih fun other member => ascii other (List.mem_cons_of_mem _ member)
    rw [List.map_cons]
    unfold decodeUtf8
    rw [if_pos below, tail, Char.ofNat_toNat]
    rfl

theorem mapM_ascii {text : Text} (ascii : Ascii text) (codec : Char → Option Nat)
    (plain : ∀ char : Char, char.toNat < 0x80 → codec char = some char.toNat) :
    text.mapM codec = some (text.map Char.toNat) := by
  induction text with
  | nil => rfl
  | cons char rest ih =>
    have tail := ih fun other member => ascii other (List.mem_cons_of_mem _ member)
    rw [List.mapM_cons, plain char (ascii char List.mem_cons_self), tail]
    rfl

theorem roundTripOnce_ascii {text : Text} (ascii : Ascii text) : roundTripOnce text = none := by
  have cp1252 := mapM_ascii ascii encodeCp1252 fun char below => if_pos below
  have latin1 := mapM_ascii ascii encodeLatin1 fun char below => if_pos (by omega)
  simp [roundTripOnce, roundTripCodecs, cp1252, latin1, decodeUtf8_ascii ascii]

@[simp]
theorem repairMojibake_ascii {text : Text} (ascii : Ascii text) : repairMojibake text = text := by
  simp [repairMojibake, maxRepairPasses, repairPasses, roundTripOnce_ascii ascii]

theorem sanitizePgText_of_not_mem {text : Text} (clean : '\x00' ∉ text) : sanitizePgText text = text := by
  refine List.filter_eq_self.mpr fun char member => ?_
  rw [decide_eq_true_eq]
  rintro rfl
  exact clean member

/-! ## Numbers -/

-- What Python knows of the characters.
structure Unicode where
  nfc : Text → Text
  isSpace : Char → Bool
  isDigit : Char → Bool
  decimal : Char → Option Nat
  space_of_digit : ∀ char : Char, char.isDigit = true → isSpace char = false
  digit_of_digit : ∀ char : Char, char.isDigit = true → isDigit char = true
  decimal_of_digit : ∀ char : Char, char.isDigit = true → decimal char = some (char.toNat - '0'.toNat)

section Parsing

variable (unicode : Unicode)

def strip (text : Text) : Text :=
  (text.dropWhile unicode.isSpace).rdropWhile unicode.isSpace

-- `sys.int_info.default_max_str_digits`
def maxStrDigits : Nat := 4300

def parseDigits (text : Text) : Option Nat :=
  let groups := text.splitOn '_'
  if groups.any List.isEmpty || maxStrDigits < groups.flatten.length then none
  else (groups.flatten.mapM unicode.decimal).map fun digits => digits.foldl (fun number digit => 10 * number + digit) 0

-- `int(text)`
def parseInt (text : Text) : Option Int :=
  match strip unicode text with
  | '-' :: digits => (parseDigits unicode digits).map fun number => -(number : Int)
  | '+' :: digits => (parseDigits unicode digits).map Int.ofNat
  | digits => (parseDigits unicode digits).map Int.ofNat

-- `str(number)`
def decimalText : Int → Text
  | .ofNat number => Nat.toDigits 10 number
  | .negSucc number => '-' :: Nat.toDigits 10 (number + 1)

-- `_parse_year`
def parseYear : Option Text → Option Int
  | none => none
  | some text =>
      let text := strip unicode text
      if text = [] then none
      else (parseInt unicode (text.take 4)).filter fun year => 1000 ≤ year ∧ year ≤ 9999

-- `_bounded_track`
def boundedTrack (number : Int) : Option Int :=
  if 0 ≤ number ∧ number ≤ 9999 then some number else none

-- `_parse_track_text`
def parseTrackText (text : Text) : Option Int :=
  let text := strip unicode text
  let text := if '/' ∈ text then strip unicode (text.takeWhile (· ≠ '/')) else text
  if text = [] then none else (parseInt unicode text).bind boundedTrack

variable {unicode}

theorem strip_of_ends {text : Text} (front : ∀ char ∈ text.head?, unicode.isSpace char = false)
    (rear : ∀ char ∈ text.getLast?, unicode.isSpace char = false) : strip unicode text = text := by
  have kept : text.dropWhile unicode.isSpace = text := by
    cases text with
    | nil => rfl
    | cons char rest => simp [front char rfl]
  rw [strip, kept, List.rdropWhile_eq_self_iff]
  intro nonempty
  simp [rear _ (List.getLast_mem_getLast? nonempty)]

theorem isDigit_of_mem {number : Nat} {char : Char} (member : char ∈ Nat.toDigits 10 number) : char.isDigit = true :=
  Nat.isDigit_of_mem_toDigits (by decide) le_rfl member

theorem mapM_decimal {text : Text} (digits : ∀ char ∈ text, char.isDigit = true) :
    text.mapM unicode.decimal = some (text.map fun char => char.toNat - '0'.toNat) := by
  induction text with
  | nil => rfl
  | cons char rest ih =>
    have tail := ih fun other member => digits other (List.mem_cons_of_mem _ member)
    rw [List.mapM_cons, unicode.decimal_of_digit char (digits char List.mem_cons_self), tail]
    rfl

theorem parseDigits_toDigits {number : Nat} (short : (Nat.toDigits 10 number).length ≤ maxStrDigits) :
    parseDigits unicode (Nat.toDigits 10 number) = some number := by
  have single : (Nat.toDigits 10 number).splitOn '_' = [Nat.toDigits 10 number] := by
    have alone : (['_'].intercalate [Nat.toDigits 10 number]).splitOn '_' = [Nat.toDigits 10 number] :=
      List.splitOn_intercalate '_' (by simp) (by simp)
    simpa using alone
  have value : ((Nat.toDigits 10 number).map fun char => char.toNat - '0'.toNat).foldl
      (fun number digit => 10 * number + digit) 0 = number := by
    rw [List.foldl_map]
    exact Nat.ofDigitChars_ten_toDigits
  have decimals : (Nat.toDigits 10 number).mapM unicode.decimal = _ := mapM_decimal fun _ => isDigit_of_mem
  rw [parseDigits, single]
  simp only [List.any_cons, List.any_nil, List.isEmpty_eq_false_iff.mpr Nat.toDigits_ne_nil, List.flatten_cons,
    List.flatten_nil, List.append_nil, Bool.or_self, Bool.false_or, decide_eq_true_eq, not_lt.mpr short, if_false,
    decimals, Option.map_some, value]

theorem strip_toDigits (number : Nat) : strip unicode (Nat.toDigits 10 number) = Nat.toDigits 10 number :=
  strip_of_ends (fun _ member => unicode.space_of_digit _ (isDigit_of_mem (List.mem_of_mem_head? member)))
    fun _ member => unicode.space_of_digit _ (isDigit_of_mem (List.mem_of_mem_getLast? member))

theorem not_mem_toDigits {number : Nat} {char : Char} (other : char.isDigit = false) :
    char ∉ Nat.toDigits 10 number := by
  intro member
  rw [isDigit_of_mem member] at other
  cases other

-- The two parts of "N/total".
theorem takeWhile_slash (number : Nat) (rest : Text) :
    (Nat.toDigits 10 number ++ '/' :: rest).takeWhile (· ≠ '/') = Nat.toDigits 10 number := by
  rw [List.takeWhile_append_of_pos]
  · simp
  · intro char member
    rw [decide_eq_true_eq]
    rintro rfl
    exact not_mem_toDigits (by decide) member

theorem dropWhile_slash (number : Nat) (rest : Text) :
    (Nat.toDigits 10 number ++ '/' :: rest).dropWhile (· ≠ '/') = '/' :: rest := by
  rw [List.dropWhile_append_of_pos]
  · simp
  · intro char member
    rw [decide_eq_true_eq]
    rintro rfl
    exact not_mem_toDigits (by decide) member

theorem strip_slashed (number total : Nat) :
    strip unicode (Nat.toDigits 10 number ++ '/' :: Nat.toDigits 10 total) =
      Nat.toDigits 10 number ++ '/' :: Nat.toDigits 10 total := by
  refine strip_of_ends (fun char member => ?_) fun char member => ?_
  · rw [List.head?_append_of_ne_nil _ Nat.toDigits_ne_nil] at member
    exact unicode.space_of_digit char (isDigit_of_mem (List.mem_of_mem_head? member))
  · rw [List.getLast?_append_of_ne_nil _ (by simp), List.getLast?_cons_of_ne_nil Nat.toDigits_ne_nil] at member
    exact unicode.space_of_digit char (isDigit_of_mem (List.mem_of_mem_getLast? member))

theorem parseInt_toDigits {number : Nat} (short : (Nat.toDigits 10 number).length ≤ maxStrDigits) :
    parseInt unicode (Nat.toDigits 10 number) = some (number : Int) := by
  unfold parseInt
  rw [strip_toDigits]
  split
  next digits same => exact absurd (same ▸ List.mem_cons_self) (not_mem_toDigits (by decide))
  next digits same => exact absurd (same ▸ List.mem_cons_self) (not_mem_toDigits (by decide))
  · rw [parseDigits_toDigits short]
    rfl

theorem bounded_of_parseTrackText {text : Text} {number : Int} (parsed : parseTrackText unicode text = some number) :
    0 ≤ number ∧ number ≤ 9999 := by
  grind [parseTrackText, boundedTrack, Option.bind_eq_some_iff]

theorem ascii_decimalText (number : Int) : Ascii (decimalText number) := by
  have digits : ∀ number, Ascii (Nat.toDigits 10 number) := by
    intro number char member
    have digit := isDigit_of_mem member
    simp only [Char.isDigit, Bool.and_eq_true, decide_eq_true_eq] at digit
    exact lt_of_le_of_lt (UInt32.le_iff_toNat_le.mp digit.2) (by decide)
  cases number with
  | ofNat number => exact digits number
  | negSucc number => exact List.forall_mem_cons.mpr ⟨by decide, digits (number + 1)⟩

theorem sanitizePgText_decimalText (number : Int) : sanitizePgText (decimalText number) = decimalText number := by
  refine sanitizePgText_of_not_mem ?_
  cases number with
  | ofNat number => exact not_mem_toDigits (by decide)
  | negSucc number =>
    rw [decimalText, List.mem_cons, not_or]
    exact ⟨by decide, not_mem_toDigits (by decide)⟩

end Parsing

end Phaze.Tagging
