import Phaze.Cue.Retarget
import Phaze.Tracklist.Outcomes

set_option autoImplicit false

/-!
# Lines of a sheet as directives

How the local parser reads each kind of line that the generator writes.
-/

namespace Phaze.Cue

open Phaze.Percent Phaze.Unicode Phaze.Tracklist

/-! ## A line becomes a directive -/

theorem lstrip_indent {indent rest : Str} (spaces : ∀ point ∈ indent, isSpace point = true)
    (starts : rest.head?.any isSpace = false) : lstrip (indent ++ rest) = rest := by
  rw [lstrip, List.dropWhile_append_of_pos spaces]
  cases rest with
  | nil => rfl
  | cons point rest => exact List.dropWhile_cons_of_neg (by simpa using starts)

theorem rstrip_of_last {text : Str} (ends : text.getLast?.any isSpace = false) : rstrip text = text := by
  rw [rstrip]
  rw [← List.head?_reverse] at ends
  cases reversed : text.reverse with
  | nil => simp [List.reverse_eq_nil_iff.mp reversed]
  | cons point rest =>
    rw [reversed] at ends
    rw [List.dropWhile_cons_of_neg (by simpa using ends), ← reversed, List.reverse_reverse]

theorem strip_indent {indent rest : Str} (spaces : ∀ point ∈ indent, isSpace point = true)
    (starts : rest.head?.any isSpace = false) (ends : rest.getLast?.any isSpace = false) : strip (indent ++ rest) = rest := by
  rw [strip, lstrip_indent spaces starts, rstrip_of_last ends]

-- No semicolon outside quotes.
theorem cueLineFrom_plain {line before : Str} (rest : Str) (quoted : Bool) (text : Str)
    (plain : ∀ point ∈ text, point ≠ quoteMark ∧ (quoted = false → point ≠ .scalar ';')) :
    cueLineFrom line quoted before (text ++ rest) = cueLineFrom line quoted (before ++ text) rest := by
  induction text generalizing before with
  | nil => simp
  | cons point text ih =>
    have first := plain point List.mem_cons_self
    have keep : (point = CodePoint.scalar ';' && !quoted) = false := by
      cases quoted with
      | true => simp
      | false => simpa using first.2 rfl
    rw [List.cons_append, cueLineFrom, if_neg first.1, keep]
    simp only [Bool.false_eq_true, if_false]
    rw [ih fun other member => plain other (List.mem_cons_of_mem _ member)]
    simp

theorem cueLine_bare {text : Str} (plain : ∀ point ∈ text, point ≠ quoteMark ∧ point ≠ .scalar ';') :
    cueLine text = text := by
  have whole : cueLineFrom text false [] (text ++ []) = cueLineFrom text false ([] ++ text) [] :=
    cueLineFrom_plain [] false text fun point member => ⟨(plain point member).1, fun _ => (plain point member).2⟩
  rw [List.append_nil] at whole
  rw [cueLine, whole, cueLineFrom]

theorem cueLine_quoted {front value back : Str} (before : ∀ point ∈ front, point ≠ quoteMark ∧ point ≠ .scalar ';')
    (inside : ∀ point ∈ value, point ≠ quoteMark)
    (after : ∀ point ∈ back, point ≠ quoteMark ∧ point ≠ .scalar ';') :
    cueLine (front ++ quoteMark :: (value ++ quoteMark :: back)) =
      front ++ quoteMark :: (value ++ quoteMark :: back) := by
  have last : ∀ line head : Str, cueLineFrom line false head back = cueLineFrom line false (head ++ back) [] := by
    intro line head
    have scanned : cueLineFrom line false head (back ++ []) = cueLineFrom line false (head ++ back) [] :=
      cueLineFrom_plain [] false back fun point member => ⟨(after point member).1, fun _ => (after point member).2⟩
    rwa [List.append_nil] at scanned
  rw [cueLine, cueLineFrom_plain _ false front fun point member => ⟨(before point member).1, fun _ => (before point member).2⟩,
    cueLineFrom, if_pos rfl, Bool.not_false, cueLineFrom_plain _ true value fun point member => ⟨inside point member, fun quoted => by cases quoted⟩,
    cueLineFrom, if_pos rfl, Bool.not_true, last, cueLineFrom]

theorem directive_of {word value : Str} (named : word ≠ []) (letters : ∀ point ∈ word, isAsciiLetter point = true)
    (starts : value.head?.any isSpace = false) (filled : value ≠ []) (feedless : newline ∉ value) :
    directive (word ++ blank :: value) = some (word, value) := by
  have taken : (word ++ blank :: value).takeWhile isAsciiLetter = word := by
    rw [List.takeWhile_append_of_pos letters]
    have stop : isAsciiLetter blank = false := by decide
    rw [List.takeWhile_cons_of_neg (by simp [stop]), List.append_nil]
  have dropped : (word ++ blank :: value).dropWhile isAsciiLetter = blank :: value := by
    rw [List.dropWhile_append_of_pos letters]
    exact List.dropWhile_cons_of_neg (by decide)
  have trimmed : (blank :: value).dropWhile isSpace = value := by
    rw [List.dropWhile_cons_of_pos (by decide)]
    cases value with
    | nil => rfl
    | cons point rest => exact List.dropWhile_cons_of_neg (by simpa using starts)
  have longer : blank :: value ≠ value := fun same => by simpa using congrArg List.length same
  simp only [directive, taken, dropped, trimmed]
  simp [named, longer, filled, feedless]

variable {budget : LoadBudget} {originKey : Text} {state : CueState} {number : Nat}

theorem cueStep_directive {indent word value : Str} (spaces : ∀ point ∈ indent, isSpace point = true) (named : word ≠ [])
    (letters : ∀ point ∈ word, isAsciiLetter point = true) (starts : value.head?.any isSpace = false) (filled : value ≠ [])
    (ends : value.getLast?.any isSpace = false) (feedless : newline ∉ value)
    (plain : cueLine (word ++ blank :: value) = word ++ blank :: value)
    (short : (strip (indent ++ (word ++ blank :: value))).length ≤ 4096) :
    cueStep budget originKey state (indent ++ (word ++ blank :: value), number) =
      cueDirective budget originKey (word.map upperPoint) value number state := by
  obtain ⟨first, others, rfl⟩ := List.exists_cons_of_ne_nil named
  have firstLetter := letters first List.mem_cons_self
  have spaceless : isSpace first = false := by
    cases first with
    | surrogate code => cases firstLetter
    | scalar char =>
      simp only [isAsciiLetter, Char.isAlpha, Char.isUpper, Char.isLower, Bool.or_eq_true, Bool.and_eq_true,
        decide_eq_true_eq] at firstLetter
      have bounds : (65 ≤ char.toNat ∧ char.toNat ≤ 90) ∨ (97 ≤ char.toNat ∧ char.toNat ≤ 122) := by
        obtain upper | lower := firstLetter
        · exact .inl ⟨UInt32.le_iff_toNat_le.mp upper.1, UInt32.le_iff_toNat_le.mp upper.2⟩
        · exact .inr ⟨UInt32.le_iff_toNat_le.mp lower.1, UInt32.le_iff_toNat_le.mp lower.2⟩
      have reads : code (.scalar char) = char.toNat := rfl
      simp only [isSpace, Bool.or_eq_false_iff, Bool.and_eq_false_iff, decide_eq_false_iff_not]
      omega
  have stripped : strip (indent ++ (first :: others ++ blank :: value)) = first :: others ++ blank :: value := by
    apply strip_indent spaces
    · simpa using spaceless
    · rw [List.getLast?_append_of_ne_nil _ (by simp), List.getLast?_cons_of_ne_nil filled]
      exact ends
  rw [stripped] at short
  rw [cueStep]
  simp only [stripped, plain]
  rw [if_neg (by simp), if_neg (by omega), if_neg (by simp), directive_of named letters starts filled feedless]

/-! ## The values of the directives -/

-- What stands between two quotes of a sheet.
def Inner (value : Str) : Prop := ∀ point ∈ value, isControl point = false ∧ point ≠ quoteMark

theorem Inner.feedless {value : Str} (inner : Inner value) : newline ∉ value := by
  intro member
  exact absurd (inner newline member).1 (by decide)

theorem Inner.keeps {value : Str} (inner : Inner value) :
    value.all (fun point => point ≠ quoteMark && point ≠ newline) = true := by
  rw [List.all_eq_true]
  intro point member
  have other : point ≠ newline := fun same => inner.feedless (same ▸ member)
  simp [(inner point member).2, other]

theorem quotedValue_inner {value : Str} (inner : Inner value) :
    quotedValue (quoteMark :: (value ++ [quoteMark])) = some value := by
  rw [quotedValue, List.getLast?_concat, List.dropLast_concat, inner.keeps]
  simp

theorem cueValue_inner {value : Str} (inner : Inner value) : cueValue (quoteMark :: (value ++ [quoteMark])) = some value := by
  rw [cueValue, quotedValue_inner inner]

theorem spaced_blank {text : Str} (starts : text.head?.any isSpace = false) : spaced (blank :: text) = some text := by
  have space : isSpace blank = true := by decide
  rw [spaced, List.head?_cons, Option.any_some, if_pos space, List.dropWhile_cons_of_pos space]
  cases text with
  | nil => rfl
  | cons point rest => rw [List.dropWhile_cons_of_neg (by simpa using starts)]

theorem cueType_kind (fileType : Str) :
    isFileType (str (cueType fileType)) = true ∧ (str (cueType fileType)).head?.any isSpace = false :=
  @cueType_holds (fun kind => isFileType (str kind) = true ∧ (str kind).head?.any isSpace = false) (by decide) (by decide) fileType

-- The name between the quotes, or the two quotes when nothing stands between them.
theorem cueFileName_written {name kind : Str} (inner : Inner name) (isType : isFileType kind = true)
    (starts : kind.head?.any isSpace = false) :
    cueFileName (quoteMark :: (name ++ quoteMark :: blank :: kind)) = some (if name = [] then [quoteMark, quoteMark] else name) := by
  have taken : (name ++ quoteMark :: blank :: kind).takeWhile (fun point => point ≠ quoteMark && point ≠ newline) = name := by
    rw [List.takeWhile_append_of_pos fun point member => List.all_eq_true.mp inner.keeps point member,
      List.takeWhile_cons_of_neg (by simp), List.append_nil]
  have after : (spaced (blank :: kind)).any isFileType = true := by rw [spaced_blank starts, Option.any_some, isType]
  rw [cueFileName, quotedFile]
  simp only [taken, List.drop_left]
  cases name with
  | nil =>
    have bare : bareFile (quoteMark :: quoteMark :: blank :: kind) = some [quoteMark, quoteMark] := by
      have run : (quoteMark :: quoteMark :: blank :: kind).takeWhile (fun point => !isSpace point) = [quoteMark, quoteMark] := by
        have mark : isSpace quoteMark = false := by decide
        have space : isSpace blank = true := by decide
        simp [mark, space]
      rw [bareFile]
      simp only [run]
      simp [after]
    simpa using bare
  | cons point rest => simp [after]

theorem isDecimal_of_ascii {point : CodePoint} (ascii : isAsciiDigit point = true) : isDecimal point = true := by
  rw [isDecimal, digitValue_ascii ascii]
  rfl

theorem printTwo_decimal (number : Nat) : ∀ point ∈ printTwo number, isDecimal point = true :=
  fun _ member => isDecimal_of_ascii (isAsciiDigit_of_mem_printTwo member)

theorem digitRun_printTwo {least most number : Nat} {rest : Str} (stops : rest.head?.any isDecimal = false)
    (long : least ≤ (printTwo number).length) (short : (printTwo number).length ≤ most) :
    digitRun least most (printTwo number ++ rest) = some (printTwo number, rest) := by
  have taken : (printTwo number ++ rest).takeWhile isDecimal = printTwo number := by
    rw [List.takeWhile_append_of_pos (printTwo_decimal number)]
    cases rest with
    | nil => simp
    | cons point rest => rw [List.takeWhile_cons_of_neg (by simpa using stops), List.append_nil]
  have dropped : (printTwo number ++ rest).dropWhile isDecimal = rest := by
    rw [List.dropWhile_append_of_pos (printTwo_decimal number)]
    cases rest with
    | nil => rfl
    | cons point rest => exact List.dropWhile_cons_of_neg (by simpa using stops)
  rw [digitRun, taken, dropped]
  simp [long, short]

theorem length_printTwo_le {number most : Nat} (two : 2 ≤ most) (small : number < 10 ^ most) :
    (printTwo number).length ≤ most := by
  have digitsShort : (digits number).length ≤ most := by
    rw [digits, List.length_map]
    exact (Nat.length_toDigits_le_iff (by decide) (by omega)).mpr small
  rw [printTwo_eq]
  split
  · rw [List.length_cons]
    omega
  · exact digitsShort

theorem length_printTwo_ge (number : Nat) : 2 ≤ (printTwo number).length := by
  have filled : 0 < (digits number).length := List.length_pos_iff.mpr (digits_ne_nil number)
  rw [printTwo_eq]
  split
  · rw [List.length_cons]
    omega
  · omega

theorem cueTrackNumber_written {number : Nat} (small : number < 10 ^ 4) :
    cueTrackNumber (printTwo number ++ str " AUDIO") = some number := by
  have audio : (spaced (str " AUDIO")).any (matchesWord "AUDIO") = true := by decide
  have stops : (str " AUDIO").head?.any isDecimal = false := by decide
  have long : 1 ≤ (printTwo number).length := Nat.le_trans (by decide) (length_printTwo_ge number)
  rw [cueTrackNumber, digitRun_printTwo stops long (length_printTwo_le (by decide) small), Option.bind_some]
  simp [audio, parseDecimal_printTwo]

theorem cueIndex_written {minutes seconds frames : Nat} (fewMinutes : minutes < 10 ^ 6) (fewSeconds : seconds < 60)
    (fewFrames : frames < 75) :
    cueIndex (str "01 " ++ (printTwo minutes ++ str ":" ++ printTwo seconds ++ str ":" ++ printTwo frames)) =
      some { index := str "01", minutes := printTwo minutes, seconds := printTwo seconds, frames := printTwo frames } := by
  have head : str "01 " = printTwo (1 : Nat) ++ [blank] := by decide
  have one : printTwo (1 : Nat) = str "01" := by decide
  have run : digitRun 2 2 (printTwo (1 : Nat) ++
      blank :: (printTwo minutes ++ str ":" ++ printTwo seconds ++ str ":" ++ printTwo frames)) =
      some (printTwo (1 : Nat), blank :: (printTwo minutes ++ str ":" ++ printTwo seconds ++ str ":" ++ printTwo frames)) :=
    digitRun_printTwo (by rfl) (by decide) (by decide)
  have starts : (printTwo minutes ++ str ":" ++ printTwo seconds ++ str ":" ++ printTwo frames).head?.any isSpace = false := by
    obtain ⟨first, others, same⟩ := List.exists_cons_of_ne_nil
      (List.ne_nil_of_length_pos (Nat.lt_of_lt_of_le (by decide) (length_printTwo_ge minutes)))
    have ascii := isAsciiDigit_of_mem_printTwo (same ▸ List.mem_cons_self : first ∈ printTwo minutes)
    simp only [isAsciiDigit, Bool.and_eq_true, decide_eq_true_eq] at ascii
    rw [same]
    simp only [List.cons_append, List.head?_cons, Option.any_some, isSpace, Bool.or_eq_false_iff, Bool.and_eq_false_iff,
      decide_eq_false_iff_not]
    omega
  have pieces := splitOn_printed minutes seconds frames
  have decimals : (printTwo minutes ++ printTwo seconds ++ printTwo frames).all isDecimal = true := by
    simp only [List.all_append, Bool.and_eq_true, List.all_eq_true]
    exact ⟨⟨printTwo_decimal minutes, printTwo_decimal seconds⟩, printTwo_decimal frames⟩
  have two : ∀ {number : Nat}, number < 75 → (printTwo number).length = 2 := fun small =>
    Nat.le_antisymm (length_printTwo_le (by decide) (by omega)) (length_printTwo_ge _)
  have filled : 1 ≤ (printTwo minutes).length := Nat.le_trans (by decide) (length_printTwo_ge minutes)
  have few : (printTwo minutes).length ≤ 6 := length_printTwo_le (by decide) fewMinutes
  rw [cueIndex, head, List.append_assoc, List.singleton_append, run]
  simp only [Option.bind_eq_bind, Option.bind_some, spaced_blank starts, pieces, two (show seconds < 75 by omega), two fewFrames,
    decimals, few, decide_true, Bool.and_true]
  rw [if_pos (by simpa using filled), one]

end Phaze.Cue
