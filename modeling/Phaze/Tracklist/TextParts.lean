import Phaze.Tracklist.CueSound

set_option autoImplicit false

/-!
# Parts of text rows

Every body, time and title that the syntax of text rows takes is a part of its line.
-/

namespace Phaze.Tracklist

open Phaze.Guards Phaze.Percent Phaze.Unicode Phaze.Patterns

variable {isWord : CodePoint → Bool}

theorem noteLine_sublist (raw : Text) : (noteLine raw).Sublist raw :=
  (reverse_dropWhile_sublist frameRight _).trans (List.dropWhile_sublist _)

theorem splitBracket_sublist (text : Text) : (splitBracket text).1.Sublist text ∧ (splitBracket text).2.Sublist text :=
  ⟨List.takeWhile_sublist _, (List.tail_sublist _).trans (List.dropWhile_sublist _)⟩

theorem getD_sublist {group : Option Text} {text : Text} (part : ∀ taken, group = some taken → taken <:+: text) :
    (group.getD []).Sublist text := by
  cases same : group with
  | none => exact List.nil_sublist text
  | some taken => exact (part taken same).sublist

theorem captured_sublist {pattern : Pattern} {text : Text} {place : Place} (found : fullmatch isWord pattern text = some place) :
    (bodyOf place).Sublist text ∧ (originalOf place).Sublist text := by
  constructor
  · exact getD_sublist fun taken same => fullmatch_captured found same
  · rw [originalOf]
    cases same : place.text? 1 with
    | none => exact getD_sublist fun taken captured => fullmatch_captured found captured
    | some taken => exact (fullmatch_captured found same).sublist

theorem groupOf_search_sublist {pattern : Pattern} {text : Text} {found : Found} (index : Nat)
    (success : search isWord pattern text = some found) : (groupOf found.place index).Sublist text :=
  getD_sublist fun taken same => (search_found success).2 index taken same

theorem withoutMark_sublist (body : Text) : (withoutMark isWord body).Sublist body := by
  rw [withoutMark]
  cases found : matchStart isWord listMark body with
  | none => exact List.Sublist.refl body
  | some place =>
    obtain ⟨read, split, -⟩ := (ways_reads (List.mem_of_head? found)).path
    have suffix : body = read ++ place.rest := split
    rw [Option.map_some, Option.getD_some, suffix]
    exact List.sublist_append_right _ _

-- What is captured at the end leaves room for what was read before it.
theorem rest_length {first second inner : Pattern} {text : Text} {place : Place}
    (found : fullmatch isWord (all [first, second, .group 3 inner, .finish]) text = some place) :
    (bodyOf place).length + first.least + second.least ≤ text.length := by
  have way := List.mem_of_find?_eq_some found
  simp only [all, List.foldr_cons, List.foldr_nil, ways, List.mem_flatMap] at way
  obtain ⟨middle, first', last, second', captured, group, finished, atEnd, here⟩ := way
  obtain ⟨after, -, rfl⟩ := List.mem_map.mp group
  have one := ways_least first'
  have two := ways_least second'
  split at atEnd
  next =>
    obtain rfl := List.mem_singleton.mp atEnd
    obtain rfl := List.mem_singleton.mp here
    have length : (bodyOf (last.capture after 3)).length ≤ last.rest.length := List.length_take_le' _ _
    simp only at one
    omega
  next => cases atEnd

theorem ordered_length {line : Text} {place : Place} (found : fullmatch isWord ordered line = some place) :
    (bodyOf place).length + 2 ≤ line.length := rest_length found

-- A time in front of a row is short.
theorem timed_length {line : Text} {place : Place} (found : fullmatch isWord timed line = some place) :
    (originalOf place).length ≤ 12 := by
  have limits : ∀ index ∈ [1, 2], ∀ entry ∈ timed.captures, entry.1 = index → entry.2.longest = some 12 := by decide
  rw [originalOf]
  cases first : place.text? 1 with
  | some original => exact fullmatch_captures found first (limits 1 (by decide))
  | none =>
    cases second : place.text? 2 with
    | some original => exact fullmatch_captures found second (limits 2 (by decide))
    | none => exact Nat.zero_le _

/-! ## Row syntax -/

-- Parts of a line, with room for the unit of a time in minutes.
structure PartsOf (line : Text) (parsed : TextRowSyntax) : Prop where
  body : parsed.body.Sublist line
  time : ∀ original, parsed.time = some original → original.Sublist line
  minute : ∀ original, parsed.time = some original → original.length ≤ 12 ∨ original.length + 4 ≤ line.length

theorem opens_cons {body : Text} (opens : startsWith body "[" = true) : body = .scalar '[' :: body.tail := by
  have letters : str "[" = [.scalar '['] := by decide
  obtain ⟨rest, same⟩ := letters ▸ List.isPrefixOf_iff_prefix.mp opens
  rw [← same]
  rfl

theorem closes_mem {text : Text} (closes : contains text "]" = true) : .scalar ']' ∈ text := by
  have letters : str "]" = [.scalar ']'] := by decide
  obtain ⟨tail, member, starts⟩ := List.any_eq_true.mp closes
  obtain ⟨rest, same⟩ := letters ▸ List.isPrefixOf_iff_prefix.mp starts
  apply ((List.mem_tails _ _).mp member).subset
  rw [← same]
  exact List.mem_cons_self

theorem splitBracket_length {body : Text} (closes : .scalar ']' ∈ body) :
    (splitBracket body).1.length + (splitBracket body).2.length + 1 ≤ body.length := by
  have parts := congrArg List.length (List.takeWhile_append_dropWhile (p := fun point => decide (point ≠ CodePoint.scalar ']')) (l := body))
  have left : body.dropWhile (fun point => decide (point ≠ CodePoint.scalar ']')) ≠ [] := by
    intro empty
    rw [List.dropWhile_eq_nil_iff] at empty
    simpa using empty _ closes
  have positive := List.length_pos_iff.mpr left
  rw [List.length_append] at parts
  simp only [splitBracket, List.length_tail]
  omega

theorem prefixOf_parts (line : Text) : PartsOf line (prefixOf isWord line) := by
  rw [prefixOf]
  cases timedLine : fullmatch isWord timed line with
  | some place =>
    obtain ⟨body, original⟩ := captured_sublist timedLine
    have short := timed_length timedLine
    dsimp only
    cases following : fullmatch isWord ordered (bodyOf place) with
    | some next =>
      have inner := (captured_sublist following).1
      exact
        { body := (withoutMark_sublist _).trans (inner.trans body)
          time := fun taken same => Option.some.inj same ▸ original
          minute := fun taken same => Option.some.inj same ▸ .inl short }
    | none =>
      exact
        { body
          time := fun taken same => Option.some.inj same ▸ original
          minute := fun taken same => Option.some.inj same ▸ .inl short }
  | none =>
    cases orderedLine : fullmatch isWord ordered line with
    | none =>
      dsimp only
      exact
        { body := List.Sublist.refl line
          time := fun _ same => by cases same
          minute := fun _ same => by cases same }
    | some place =>
      have captured := (captured_sublist orderedLine).1
      have room := ordered_length orderedLine
      have mark : (withoutMark isWord (bodyOf place)).Sublist (bodyOf place) := withoutMark_sublist _
      have whole := mark.trans captured
      dsimp only
      split
      next bracket =>
        simp only [Bool.and_eq_true] at bracket
        have cons := opens_cons bracket.1
        have closes : .scalar ']' ∈ (withoutMark isWord (bodyOf place)).tail := by
          have member := closes_mem bracket.2
          rw [cons] at member
          obtain same | rest := List.mem_cons.mp member
          · cases same
          · exact rest
        have pieces := splitBracket_sublist (withoutMark isWord (bodyOf place)).tail
        have lengths := splitBracket_length closes
        have total := congrArg List.length cons
        have shorter := mark.length_le
        have tail := (List.tail_sublist (withoutMark isWord (bodyOf place))).trans whole
        rw [List.length_cons] at total
        exact
          { body := (strip_sublist _).trans (pieces.2.trans tail)
            time := fun _ same => Option.some.inj same ▸ pieces.1.trans tail
            minute := fun _ same => Option.some.inj same ▸ .inr (by omega) }
      next =>
        cases trailing : fullmatch isWord timed (withoutMark isWord (bodyOf place)) with
        | some last =>
          obtain ⟨body, original⟩ := captured_sublist trailing
          exact
            { body := body.trans whole
              time := fun _ same => Option.some.inj same ▸ original.trans whole
              minute := fun _ same => Option.some.inj same ▸ .inl (timed_length trailing) }
        | none =>
          exact
            { body := whole
              time := fun _ same => by cases same
              minute := fun _ same => by cases same }

theorem rowSyntax_parts (context : TextContext) (index : Nat) (line : Text) : PartsOf line (rowSyntax isWord context index line) := by
  rw [rowSyntax]
  split
  · exact
      { body := List.Sublist.refl line
        time := fun _ same => by cases same
        minute := fun _ same => by cases same }
  · exact prefixOf_parts line

end Phaze.Tracklist
