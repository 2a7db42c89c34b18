import Phaze.Shared.Texts

set_option autoImplicit false

/-!
# Patterns

Backtracking patterns over code points, as `re` matches them: every way to match, in order of preference.
-/

namespace Phaze.Patterns

open Phaze.Percent Phaze.Unicode

inductive Pattern where
  | empty
  | one (holds : CodePoint → Bool)
  -- As many points of a class as there are, or as few.
  | run (holds : CodePoint → Bool) (least : Nat) (most : Option Nat)
  | fewest (holds : CodePoint → Bool) (least : Nat) (most : Option Nat)
  | seq (first second : Pattern)
  | either (first second : Pattern)
  | group (index : Nat) (inner : Pattern)
  | boundary
  | finish

-- A place in a text, with what stands before it, nearest first.
structure Place where
  before : Str
  rest : Str
  groups : List (Nat × Str) := []

def Place.advance (place : Place) (count : Nat) : Place :=
  { place with before := (place.rest.take count).reverse ++ place.before, rest := place.rest.drop count }

def runLength (holds : CodePoint → Bool) (most : Option Nat) (text : Str) : Nat :=
  let all := (text.takeWhile holds).length
  most.elim all (min all)

-- The counts from the least to the most.
def counts (least longest : Nat) : List Nat := List.range' least (longest + 1 - least)

def atBoundary (isWord : CodePoint → Bool) (place : Place) : Bool := place.before.head?.any isWord != place.rest.head?.any isWord

def Place.capture (place after : Place) (index : Nat) : Place :=
  { after with groups := (index, place.rest.take (place.rest.length - after.rest.length)) :: after.groups }

variable (isWord : CodePoint → Bool)

def ways : Pattern → Place → List Place
  | .empty, place => [place]
  | .one holds, place => if place.rest.head?.any holds then [place.advance 1] else []
  | .run holds least most, place => ((counts least (runLength holds most place.rest)).reverse).map place.advance
  | .fewest holds least most, place => (counts least (runLength holds most place.rest)).map place.advance
  | .seq first second, place => (ways first place).flatMap (ways second)
  | .either first second, place => ways first place ++ ways second place
  | .group index inner, place => (ways inner place).map (place.capture · index)
  | .boundary, place => if atBoundary isWord place then [place] else []
  | .finish, place => if place.rest = [] ∨ place.rest = [newline] then [place] else []

def fullmatch (pattern : Pattern) (text : Str) : Option Place :=
  (ways isWord pattern { before := [], rest := text }).find? fun place => place.rest = []

def matchStart (pattern : Pattern) (text : Str) : Option Place := (ways isWord pattern { before := [], rest := text }).head?

-- Where a match starts, and where it ends.
structure Found where
  front : Str
  place : Place

def searchFrom (pattern : Pattern) (before : Str) : Str → Option Found
  | [] => (ways isWord pattern { before, rest := [] }).head?.map ({ front := before.reverse, place := · })
  | point :: rest =>
      match (ways isWord pattern { before, rest := point :: rest }).head? with
      | some place => some { front := before.reverse, place }
      | none => searchFrom pattern (point :: before) rest

def search (pattern : Pattern) (text : Str) : Option Found := searchFrom isWord pattern [] text

def Place.text? (place : Place) (index : Nat) : Option Str := place.groups.lookup index

/-! ## Forms -/

def all (patterns : List Pattern) : Pattern := patterns.foldr .seq .empty

def Pattern.optional (pattern : Pattern) : Pattern := .either pattern .empty

def any : List Pattern → Pattern
  | [] => .one fun _ => false
  | [pattern] => pattern
  | pattern :: rest => .either pattern (any rest)

def literal (text : String) : Pattern := all (text.toList.map fun char => .one (· = .scalar char))

-- A literal under `re.IGNORECASE`.
def caseless (text : String) : Pattern := all (text.toList.map fun char => .one (sameLetter char))

def oneOf (chars : String) : CodePoint → Bool := fun point => chars.toList.any fun char => point = .scalar char

def digitsOf (least most : Nat) : Pattern := .run isDecimal least (some most)

def spaces (least : Nat) : Pattern := .run isSpace least none

def dot (point : CodePoint) : Bool := point ≠ newline

/-! ## What is captured -/

variable {isWord}

-- A place further on in the same text, whose new captures were read on the way.
structure Reads (place after : Place) : Prop where
  path : ∃ read, place.rest = read ++ after.rest ∧ after.before = read.reverse ++ place.before
  captured : ∀ entry ∈ after.groups, entry ∈ place.groups ∨ entry.2 <:+: place.rest

theorem Reads.refl (place : Place) : Reads place place := ⟨⟨[], by simp⟩, fun _ member => .inl member⟩

theorem Reads.trans {place middle after : Place} (first : Reads place middle) (second : Reads middle after) :
    Reads place after := by
  obtain ⟨read, rest, before⟩ := first.path
  obtain ⟨next, rest', before'⟩ := second.path
  constructor
  · exact ⟨read ++ next, by rw [rest, rest', List.append_assoc], by rw [before', before, List.reverse_append, List.append_assoc]⟩
  · intro entry member
    obtain earlier | inside := second.captured entry member
    · exact first.captured entry earlier
    · exact .inr (inside.trans (rest ▸ (List.suffix_append read middle.rest).isInfix))

theorem advance_reads (place : Place) (count : Nat) : Reads place (place.advance count) :=
  ⟨⟨place.rest.take count, (List.take_append_drop count place.rest).symm, rfl⟩, fun _ member => .inl member⟩

theorem ways_reads {pattern : Pattern} {place after : Place} (way : after ∈ ways isWord pattern place) : Reads place after := by
  induction pattern generalizing place after with
  | empty =>
    obtain rfl := List.mem_singleton.mp way
    exact Reads.refl after
  | one holds =>
    rw [ways] at way
    split at way
    · obtain rfl := List.mem_singleton.mp way
      exact advance_reads place 1
    · cases way
  | run holds least most =>
    obtain ⟨count, -, rfl⟩ := List.mem_map.mp way
    exact advance_reads place count
  | fewest holds least most =>
    obtain ⟨count, -, rfl⟩ := List.mem_map.mp way
    exact advance_reads place count
  | seq first second ihFirst ihSecond =>
    obtain ⟨middle, reached, left⟩ := List.mem_flatMap.mp way
    exact (ihFirst reached).trans (ihSecond left)
  | either first second ihFirst ihSecond =>
    obtain left | right := List.mem_append.mp way
    · exact ihFirst left
    · exact ihSecond right
  | group index inner ih =>
    obtain ⟨end', reached, rfl⟩ := List.mem_map.mp way
    have reads := ih reached
    refine ⟨reads.path, fun entry member => ?_⟩
    obtain rfl | earlier := List.mem_cons.mp member
    · exact .inr (List.take_prefix _ place.rest).isInfix
    · exact reads.captured entry earlier
  | boundary =>
    rw [ways] at way
    split at way
    · obtain rfl := List.mem_singleton.mp way
      exact Reads.refl after
    · cases way
  | finish =>
    rw [ways] at way
    split at way
    · obtain rfl := List.mem_singleton.mp way
      exact Reads.refl after
    · cases way

theorem captured_of_ways {pattern : Pattern} {before text group : Str} {after : Place} {index : Nat}
    (way : after ∈ ways isWord pattern { before, rest := text }) (captured : after.text? index = some group) : group <:+: text := by
  have member : (index, group) ∈ after.groups := by
    obtain ⟨front, back, same, -⟩ := List.lookup_eq_some_iff.mp captured
    exact same ▸ List.mem_append_right front List.mem_cons_self
  obtain earlier | inside := (ways_reads way).captured _ member
  · cases earlier
  · exact inside

/-! ## How much is read -/

-- The fewest points that a match reads.
def Pattern.least : Pattern → Nat
  | .empty => 0
  | .one _ => 1
  | .run _ least _ => least
  | .fewest _ least _ => least
  | .seq first second => first.least + second.least
  | .either first second => min first.least second.least
  | .group _ inner => inner.least
  | .boundary => 0
  | .finish => 0

-- The most points that a match reads, where there is such a number.
def Pattern.longest : Pattern → Option Nat
  | .empty => some 0
  | .one _ => some 1
  | .run _ _ most => most
  | .fewest _ _ most => most
  | .seq first second => first.longest.bind fun count => second.longest.map (count + ·)
  | .either first second => first.longest.bind fun count => second.longest.map (max count)
  | .group _ inner => inner.longest
  | .boundary => some 0
  | .finish => some 0

theorem mem_counts {least longest count : Nat} : count ∈ counts least longest ↔ least ≤ count ∧ count ≤ longest := by
  rw [counts, List.mem_range'_1]
  omega

theorem runLength_le (holds : CodePoint → Bool) (most : Option Nat) (text : Str) :
    runLength holds most text ≤ text.length ∧ ∀ bound, most = some bound → runLength holds most text ≤ bound := by
  have all := (List.takeWhile_sublist holds (l := text)).length_le
  cases most with
  | none => exact ⟨all, fun _ same => by cases same⟩
  | some bound => exact ⟨(Nat.min_le_left _ _).trans all, fun other same => Option.some.inj same ▸ Nat.min_le_right _ _⟩

theorem advance_length {place : Place} {count least : Nat} {most : Option Nat} {holds : CodePoint → Bool}
    (member : count ∈ counts least (runLength holds most place.rest)) :
    (place.advance count).rest.length + least ≤ place.rest.length ∧
      ∀ bound, most = some bound → place.rest.length ≤ (place.advance count).rest.length + bound := by
  have range := mem_counts.mp member
  have bounds := runLength_le holds most place.rest
  have length : (place.advance count).rest.length = place.rest.length - count := List.length_drop
  rw [length]
  refine ⟨by omega, fun bound same => ?_⟩
  have short := bounds.2 bound same
  omega

theorem ways_least {pattern : Pattern} {place after : Place} (way : after ∈ ways isWord pattern place) :
    after.rest.length + pattern.least ≤ place.rest.length := by
  induction pattern generalizing place after with
  | empty =>
    obtain rfl := List.mem_singleton.mp way
    exact le_refl _
  | one holds =>
    rw [ways] at way
    split at way
    next starts =>
      obtain rfl := List.mem_singleton.mp way
      have filled : place.rest ≠ [] := by
        intro empty
        rw [empty] at starts
        cases starts
      have positive := List.length_pos_iff.mpr filled
      have length : (place.advance 1).rest.length = place.rest.length - 1 := List.length_drop
      rw [length, Pattern.least]
      omega
    next => cases way
  | run holds least most =>
    obtain ⟨count, member, rfl⟩ := List.mem_map.mp way
    exact (advance_length (List.mem_reverse.mp member)).1
  | fewest holds least most =>
    obtain ⟨count, member, rfl⟩ := List.mem_map.mp way
    exact (advance_length member).1
  | seq first second ihFirst ihSecond =>
    obtain ⟨middle, reached, left⟩ := List.mem_flatMap.mp way
    have one := ihFirst reached
    have two := ihSecond left
    rw [Pattern.least]
    omega
  | either first second ihFirst ihSecond =>
    rw [Pattern.least]
    obtain left | right := List.mem_append.mp way
    · have one := ihFirst left
      omega
    · have two := ihSecond right
      omega
  | group index inner ih =>
    obtain ⟨reached, inside, rfl⟩ := List.mem_map.mp way
    have bound := ih inside
    exact bound
  | boundary =>
    rw [ways] at way
    split at way
    · obtain rfl := List.mem_singleton.mp way
      exact le_refl _
    · cases way
  | finish =>
    rw [ways] at way
    split at way
    · obtain rfl := List.mem_singleton.mp way
      exact le_refl _
    · cases way

theorem ways_longest {pattern : Pattern} {place after : Place} {bound : Nat} (limited : pattern.longest = some bound)
    (way : after ∈ ways isWord pattern place) : place.rest.length ≤ after.rest.length + bound := by
  induction pattern generalizing place after bound with
  | empty =>
    obtain rfl := List.mem_singleton.mp way
    exact Nat.le_add_right _ _
  | one holds =>
    obtain rfl := Option.some.inj limited
    rw [ways] at way
    split at way
    · obtain rfl := List.mem_singleton.mp way
      have length : (place.advance 1).rest.length = place.rest.length - 1 := List.length_drop
      omega
    · cases way
  | run holds least most =>
    obtain ⟨count, member, rfl⟩ := List.mem_map.mp way
    exact (advance_length (List.mem_reverse.mp member)).2 bound limited
  | fewest holds least most =>
    obtain ⟨count, member, rfl⟩ := List.mem_map.mp way
    exact (advance_length member).2 bound limited
  | seq first second ihFirst ihSecond =>
    obtain ⟨one, atMost, limited⟩ := Option.bind_eq_some_iff.mp limited
    obtain ⟨two, atMost', rfl⟩ := Option.map_eq_some_iff.mp limited
    obtain ⟨middle, reached, left⟩ := List.mem_flatMap.mp way
    have before := ihFirst atMost reached
    have after := ihSecond atMost' left
    omega
  | either first second ihFirst ihSecond =>
    obtain ⟨one, atMost, limited⟩ := Option.bind_eq_some_iff.mp limited
    obtain ⟨two, atMost', rfl⟩ := Option.map_eq_some_iff.mp limited
    obtain left | right := List.mem_append.mp way
    · have before := ihFirst atMost left
      omega
    · have after := ihSecond atMost' right
      omega
  | group index inner ih =>
    obtain ⟨reached, inside, rfl⟩ := List.mem_map.mp way
    have atMost := ih limited inside
    exact atMost
  | boundary =>
    rw [ways] at way
    split at way
    · obtain rfl := List.mem_singleton.mp way
      exact Nat.le_add_right _ _
    · cases way
  | finish =>
    rw [ways] at way
    split at way
    · obtain rfl := List.mem_singleton.mp way
      exact Nat.le_add_right _ _
    · cases way

def Pattern.captures : Pattern → List (Nat × Pattern)
  | .seq first second => first.captures ++ second.captures
  | .either first second => first.captures ++ second.captures
  | .group index inner => (index, inner) :: inner.captures
  | _ => []

-- What a group has captured is no longer than what its pattern reads.
theorem ways_captures {pattern : Pattern} {place after : Place} {entry : Nat × Str} (way : after ∈ ways isWord pattern place)
    (member : entry ∈ after.groups) : entry ∈ place.groups ∨
      ∃ inner, (entry.1, inner) ∈ pattern.captures ∧ ∀ bound, inner.longest = some bound → entry.2.length ≤ bound := by
  induction pattern generalizing place after with
  | seq first second ihFirst ihSecond =>
    obtain ⟨middle, reached, left⟩ := List.mem_flatMap.mp way
    obtain earlier | ⟨inner, listed, short⟩ := ihSecond left member
    · obtain before | ⟨inner, listed, short⟩ := ihFirst reached earlier
      · exact .inl before
      · exact .inr ⟨inner, List.mem_append_left _ listed, short⟩
    · exact .inr ⟨inner, List.mem_append_right _ listed, short⟩
  | either first second ihFirst ihSecond =>
    obtain left | right := List.mem_append.mp way
    · obtain before | ⟨inner, listed, short⟩ := ihFirst left member
      · exact .inl before
      · exact .inr ⟨inner, List.mem_append_left _ listed, short⟩
    · obtain before | ⟨inner, listed, short⟩ := ihSecond right member
      · exact .inl before
      · exact .inr ⟨inner, List.mem_append_right _ listed, short⟩
  | group index inner ih =>
    obtain ⟨reached, inside, rfl⟩ := List.mem_map.mp way
    obtain rfl | earlier := List.mem_cons.mp member
    · refine .inr ⟨inner, List.mem_cons_self, fun bound limited => ?_⟩
      have atMost := ways_longest limited inside
      have length := List.length_take_le (place.rest.length - reached.rest.length) place.rest
      simp only at length ⊢
      omega
    · obtain before | ⟨other, listed, short⟩ := ih inside earlier
      · exact .inl before
      · exact .inr ⟨other, List.mem_cons_of_mem _ listed, short⟩
  | run holds least most =>
    obtain ⟨count, -, rfl⟩ := List.mem_map.mp way
    exact .inl member
  | fewest holds least most =>
    obtain ⟨count, -, rfl⟩ := List.mem_map.mp way
    exact .inl member
  | empty =>
    obtain rfl := List.mem_singleton.mp way
    exact .inl member
  | one holds =>
    rw [ways] at way
    split at way
    · obtain rfl := List.mem_singleton.mp way
      exact .inl member
    · cases way
  | boundary =>
    rw [ways] at way
    split at way
    · obtain rfl := List.mem_singleton.mp way
      exact .inl member
    · cases way
  | finish =>
    rw [ways] at way
    split at way
    · obtain rfl := List.mem_singleton.mp way
      exact .inl member
    · cases way

theorem fullmatch_captures {pattern : Pattern} {text group : Str} {place : Place} {index bound : Nat}
    (found : fullmatch isWord pattern text = some place) (captured : place.text? index = some group)
    (limited : ∀ entry ∈ pattern.captures, entry.1 = index → entry.2.longest = some bound) : group.length ≤ bound := by
  have member : (index, group) ∈ place.groups := by
    obtain ⟨front, back, same, -⟩ := List.lookup_eq_some_iff.mp captured
    exact same ▸ List.mem_append_right front List.mem_cons_self
  obtain earlier | ⟨inner, listed, short⟩ := ways_captures (List.mem_of_find?_eq_some found) member
  · cases earlier
  · exact short bound (limited (index, inner) listed rfl)

theorem fullmatch_captured {pattern : Pattern} {text group : Str} {place : Place} {index : Nat}
    (found : fullmatch isWord pattern text = some place) (captured : place.text? index = some group) : group <:+: text :=
  captured_of_ways (List.mem_of_find?_eq_some found) captured

theorem searchFrom_found {pattern : Pattern} {before text : Str} {found : Found}
    (success : searchFrom isWord pattern before text = some found) :
    found.front <+: before.reverse ++ text ∧
      ∀ index group, found.place.text? index = some group → group <:+: text := by
  induction text generalizing before with
  | nil =>
    obtain ⟨place, way, rfl⟩ := Option.map_eq_some_iff.mp success
    exact ⟨List.prefix_append _ _, fun _ _ captured => captured_of_ways (List.mem_of_head? way) captured⟩
  | cons point rest ih =>
    rw [searchFrom] at success
    cases way : (ways isWord pattern { before, rest := point :: rest }).head? with
    | some place =>
      rw [way] at success
      obtain rfl := Option.some.inj success
      exact ⟨List.prefix_append _ _, fun _ _ captured => captured_of_ways (List.mem_of_head? way) captured⟩
    | none =>
      rw [way] at success
      obtain ⟨front, captured⟩ := ih success
      rw [List.reverse_cons, List.append_assoc, List.singleton_append] at front
      exact ⟨front, fun index group taken => (captured index group taken).trans (List.suffix_cons point rest).isInfix⟩

theorem search_found {pattern : Pattern} {text : Str} {found : Found} (success : search isWord pattern text = some found) :
    found.front <+: text ∧ ∀ index group, found.place.text? index = some group → group <:+: text :=
  searchFrom_found success

end Phaze.Patterns
