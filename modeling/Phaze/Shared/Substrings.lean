import Mathlib

set_option autoImplicit false

/-!
# Substrings and segments

`split`, `count` and `replace` of a text with a longer separator, and the segments of a text that is put together.
-/

namespace Phaze.Substrings

variable {α : Type} [DecidableEq α]

-- What stands between the occurrences, from the left and without overlap; `skip` is the rest of an occurrence.
def pieces (needle : List α) : Nat → List α → List (List α)
  | _, [] => [[]]
  | skip + 1, _ :: rest => pieces needle skip rest
  | 0, item :: rest =>
      if needle.isPrefixOf (item :: rest) then [] :: pieces needle (needle.length - 1) rest
      else (pieces needle 0 rest).modifyHead (item :: ·)

def count (needle text : List α) : Nat := (pieces needle 0 text).length - 1

def replace (needle new text : List α) : List α := new.intercalate (pieces needle 0 text)

theorem pieces_ne_nil (needle : List α) (skip : Nat) (text : List α) : pieces needle skip text ≠ [] := by
  induction text generalizing skip with
  | nil => simp [pieces]
  | cons item rest ih =>
    cases skip with
    | succ skip => exact ih skip
    | zero =>
      rw [pieces]
      split
      · simp
      · simpa using ih 0

theorem intercalate_pieces (needle : List α) (nonempty : needle ≠ []) (skip : Nat) (text : List α)
    (within : skip ≤ text.length) : needle.intercalate (pieces needle skip text) = text.drop skip := by
  induction text generalizing skip with
  | nil => simp [pieces]
  | cons item rest ih =>
    cases skip with
    | succ skip =>
      rw [pieces, List.drop_succ_cons]
      exact ih skip (Nat.le_of_succ_le_succ within)
    | zero =>
      rw [pieces, List.drop_zero]
      split
      · rename_i found
        obtain ⟨after, whole⟩ := List.isPrefixOf_iff_prefix.mp found
        obtain ⟨first, others, rfl⟩ := List.exists_cons_of_ne_nil nonempty
        simp only [List.cons_append, List.cons.injEq] at whole
        obtain ⟨rfl, rfl⟩ := whole
        rw [List.intercalate_cons_of_ne_nil (pieces_ne_nil _ _ _), ih _ (by simp)]
        simp
      · have tail := ih 0 (Nat.zero_le _)
        obtain ⟨head, others, split⟩ := List.exists_cons_of_ne_nil (pieces_ne_nil needle 0 rest)
        rw [split] at tail ⊢
        cases others with
        | nil => simpa using tail
        | cons next others => simpa [List.intercalate_cons_cons] using tail

/-- Where the needle stands once, replacing it leaves what is before and after it. -/
theorem replace_of_count {needle text : List α} (nonempty : needle ≠ []) (once : count needle text = 1) :
    ∃ before after, text = before ++ needle ++ after ∧ ∀ new, replace needle new text = before ++ new ++ after := by
  have joined := intercalate_pieces needle nonempty 0 text (Nat.zero_le _)
  have two : (pieces needle 0 text).length = 2 := by
    rw [count] at once
    omega
  obtain ⟨before, after, split⟩ := List.length_eq_two.mp two
  refine ⟨before, after, ?_, fun new => ?_⟩
  · simpa [split, List.intercalate_cons_cons] using joined.symm
  · simp [replace, split, List.intercalate_cons_cons]

/-! ## Segments -/

theorem splitOn_cons_same (separator : α) (rest : List α) :
    (separator :: rest).splitOn separator = [] :: rest.splitOn separator := by
  rw [List.splitOn_cons_eq_if_modifyHead, if_pos (by simp)]

theorem splitOn_cons_other {separator item : α} (other : item ≠ separator) {rest first : List α}
    {tails : List (List α)} (split : rest.splitOn separator = first :: tails) :
    (item :: rest).splitOn separator = (item :: first) :: tails := by
  rw [List.splitOn_cons_eq_if_modifyHead, if_neg (by simpa using other), split, List.modifyHead_cons]

theorem splitOn_append_left {separator : α} {middle : List α} (clear : separator ∉ middle) {after first : List α}
    {tails : List (List α)} (split : after.splitOn separator = first :: tails) :
    (middle ++ after).splitOn separator = (middle ++ first) :: tails := by
  induction middle with
  | nil => simpa using split
  | cons item rest ih =>
    have other : item ≠ separator := fun same => clear (same ▸ List.mem_cons_self)
    exact splitOn_cons_other other (ih fun member => clear (List.mem_cons_of_mem _ member))

/-- What is put in between without a separator joins the last segment before it and the first one after it. -/
theorem splitOn_between (separator : α) (before after : List α) :
    ∃ inits last first tails, before.splitOn separator = inits ++ [last] ∧ after.splitOn separator = first :: tails ∧
      ∀ middle, separator ∉ middle →
        (before ++ middle ++ after).splitOn separator = inits ++ (last ++ middle ++ first) :: tails := by
  obtain ⟨first, tails, split⟩ := List.exists_cons_of_ne_nil (List.splitOn_ne_nil separator after)
  induction before with
  | nil =>
    refine ⟨[], [], first, tails, rfl, split, fun middle clear => ?_⟩
    simpa using splitOn_append_left clear split
  | cons item rest ih =>
    obtain ⟨inits, last, other, others, front, back, joins⟩ := ih
    by_cases same : item = separator
    next =>
      subst same
      refine ⟨[] :: inits, last, other, others, ?_, back, fun middle clear => ?_⟩
      · rw [splitOn_cons_same, front, List.cons_append]
      · rw [List.cons_append, List.cons_append, splitOn_cons_same, joins middle clear, List.cons_append]
    next =>
      cases inits with
      | nil =>
        refine ⟨[], item :: last, other, others, splitOn_cons_other same front, back, fun middle clear => ?_⟩
        exact splitOn_cons_other same (joins middle clear)
      | cons head inits =>
        refine ⟨(item :: head) :: inits, last, other, others, splitOn_cons_other same front, back, fun middle clear => ?_⟩
        exact splitOn_cons_other same (joins middle clear)

end Phaze.Substrings
