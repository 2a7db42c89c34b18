import Mathlib.Data.List.ModifyLast
import Phaze.Shared.Unicode

set_option autoImplicit false

/-!
# Methods of Python strings

`strip`, `split`, `splitlines` and comparisons that ignore case, over code points.
-/

namespace Phaze.Unicode

open Phaze.Percent

def lstrip (text : Str) : Str := text.dropWhile isSpace

def rstrip (text : Str) : Str := (text.reverse.dropWhile isSpace).reverse

def strip (text : Str) : Str := rstrip (lstrip text)

def carriageReturn : CodePoint := .scalar '\r'

def isLineBreak (point : CodePoint) : Bool :=
  let code := code point
  (0xA ≤ code && code ≤ 0xD) || (0x1C ≤ code && code ≤ 0x1E) || code = 0x85 || code = 0x2028 || code = 0x2029

-- A line feed right after a carriage return belongs to it; nothing follows the last break.
def splitlinesFrom : Bool → Str → List Str
  | _, [] => []
  | returned, point :: rest =>
      if returned && point = newline then splitlinesFrom false rest
      else if isLineBreak point then [] :: splitlinesFrom (point = carriageReturn) rest
      else match splitlinesFrom false rest with
        | [] => [[point]]
        | line :: lines => (point :: line) :: lines

def splitlines (text : Str) : List Str := splitlinesFrom false text

def Unbroken (line : Str) : Prop := ∀ point ∈ line, isLineBreak point = false

theorem splitlinesFrom_ne_nil {text : Str} (filled : text ≠ []) : splitlinesFrom false text ≠ [] := by
  cases text with
  | nil => exact absurd rfl filled
  | cons point rest =>
    rw [splitlinesFrom]
    simp only [Bool.false_and, Bool.false_eq_true, if_false]
    split
    · exact List.cons_ne_nil _ _
    · split
      · exact List.cons_ne_nil _ _
      · exact List.cons_ne_nil _ _

-- A line up to the break that ends it.
theorem splitlinesFrom_line {line : Str} {ending : CodePoint} (unbroken : Unbroken line) (breaks : isLineBreak ending = true)
    (returned : Bool) (filled : line ≠ []) (rest : Str) :
    splitlinesFrom returned (line ++ ending :: rest) = line :: splitlinesFrom (ending = carriageReturn) rest := by
  induction line generalizing returned with
  | nil => exact absurd rfl filled
  | cons point line ih =>
    have plain := unbroken point List.mem_cons_self
    have other : point ≠ newline := by
      rintro rfl
      exact absurd plain (by decide)
    rw [List.cons_append, splitlinesFrom]
    simp only [other, decide_false, Bool.and_false, Bool.false_eq_true, if_false, plain]
    cases line with
    | nil =>
      rw [List.nil_append, splitlinesFrom]
      simp [breaks]
    | cons next line =>
      have unbrokenRest : Unbroken (next :: line) := fun other member => unbroken other (List.mem_cons_of_mem _ member)
      rw [ih unbrokenRest false (List.cons_ne_nil _ _)]

theorem splitlinesFrom_newline (front tail : Str) (returned : Bool) :
    splitlinesFrom returned (front ++ newline :: tail) =
      splitlinesFrom returned (front ++ [newline]) ++ splitlinesFrom false tail := by
  have feed : isLineBreak newline = true ∧ decide (newline = carriageReturn) = false := by decide
  induction front generalizing returned with
  | nil =>
    rw [List.nil_append, List.nil_append, splitlinesFrom, splitlinesFrom]
    cases returned with
    | false => simp [feed.1, feed.2, splitlinesFrom]
    | true => simp [splitlinesFrom]
  | cons point front ih =>
    rw [List.cons_append, List.cons_append, splitlinesFrom, splitlinesFrom]
    split
    · exact ih false
    · split
      · rw [ih, List.cons_append]
      · have filled : front ++ [newline] ≠ [] := by simp
        obtain ⟨line, lines, same⟩ := List.exists_cons_of_ne_nil (splitlinesFrom_ne_nil filled)
        rw [ih, same, List.cons_append]
        rfl

theorem splitlines_append (lines : List Str) (tail : Str) :
    splitlines (lines.flatMap (· ++ [newline]) ++ tail) = splitlines (lines.flatMap (· ++ [newline])) ++ splitlines tail := by
  induction lines with
  | nil => rfl
  | cons line rest ih =>
    have parts : ∀ after : Str, (line :: rest).flatMap (· ++ [newline]) ++ after =
        line ++ newline :: (rest.flatMap (· ++ [newline]) ++ after) := by simp
    have first := parts []
    rw [List.append_nil, List.append_nil] at first
    simp only [splitlines] at ih ⊢
    rw [parts, first, splitlinesFrom_newline line (rest.flatMap (· ++ [newline]) ++ tail), ih,
      splitlinesFrom_newline line (rest.flatMap (· ++ [newline])), List.append_assoc]

theorem splitlines_joined {lines : List Str} (unbroken : ∀ line ∈ lines, Unbroken line) (filled : ∀ line ∈ lines, line ≠ []) :
    splitlines (lines.flatMap (· ++ [newline])) = lines := by
  induction lines with
  | nil => rfl
  | cons line rest ih =>
    have later := ih (fun other member => unbroken other (List.mem_cons_of_mem _ member))
      (fun other member => filled other (List.mem_cons_of_mem _ member))
    rw [splitlines] at later ⊢
    rw [List.flatMap_cons, List.append_assoc, List.singleton_append,
      splitlinesFrom_line (unbroken line List.mem_cons_self) (by decide) false (filled line List.mem_cons_self)]
    exact congrArg (line :: ·) later

theorem unbroken_of_mem_splitlinesFrom {returned : Bool} {text line : Str} (member : line ∈ splitlinesFrom returned text) :
    Unbroken line := by
  induction text generalizing returned line with
  | nil => cases member
  | cons point rest ih =>
    rw [splitlinesFrom] at member
    split at member
    · exact ih member
    · split at member
      · obtain rfl | later := List.mem_cons.mp member
        · exact fun _ none => absurd none List.not_mem_nil
        · exact ih later
      next plain =>
        have head : isLineBreak point = false := by simpa using plain
        split at member
        next =>
          rw [List.mem_singleton.mp member]
          exact fun other inside => List.mem_singleton.mp inside ▸ head
        next first others same =>
          obtain rfl | later := List.mem_cons.mp member
          · have tail : Unbroken first := ih (same ▸ List.mem_cons_self)
            exact fun other inside => (List.mem_cons.mp inside).elim (fun here => here ▸ head) (tail other)
          · exact ih (same ▸ List.mem_cons_of_mem _ later)

-- `text.split()`
def words (text : Str) : List Str := (text.splitOnP isSpace).filter (· ≠ [])

-- A letter of a pattern under `re.IGNORECASE`, with the three letters that have partners outside ASCII.
def sameLetter (letter : Char) (point : CodePoint) : Bool :=
  point = .scalar letter.toLower || point = .scalar letter.toUpper ||
    (letter.toLower = 'i' && (code point = 0x130 || code point = 0x131)) ||
    (letter.toLower = 's' && code point = 0x17F) || (letter.toLower = 'k' && code point = 0x212A)

def matchesWord (literal : String) (text : Str) : Bool :=
  text.length = literal.length && (literal.toList.zip text).all fun pair => sameLetter pair.1 pair.2

def isAsciiLetter : CodePoint → Bool
  | .scalar char => char.isAlpha
  | .surrogate _ => false

-- `str.upper` and `str.casefold`, for texts that are only compared with words of ASCII letters.
def upperPoint : CodePoint → CodePoint
  | .scalar char => if char.toNat = 0x17F then .scalar 'S' else .scalar char.toUpper
  | .surrogate code => .surrogate code

def foldPoint : CodePoint → Str
  | .scalar char =>
      if char.toNat = 0x212A then str "k"
      else if char.toNat = 0xFB00 then str "ff"
      else if char.toNat = 0xFB01 then str "fi"
      else if char.toNat = 0xFB03 then str "ffi"
      else [.scalar char.toLower]
  | .surrogate code => [.surrogate code]

def casefold (text : Str) : Str := text.flatMap foldPoint

end Phaze.Unicode
