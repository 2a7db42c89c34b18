import Mathlib.Data.List.SplitBy

set_option autoImplicit false

/-!
# Joining neighbours

A pass that joins each item with the open one while the two are the same, told by the blocks that `List.splitBy`
makes of the sources behind the items.
-/

namespace Phaze.Coalesce

variable {Item Source : Type}

def coalesceFrom (same : Item → Item → Bool) (join : Item → Item → Item) (current : Item) : List Item → List Item
  | [] => [current]
  | next :: rest =>
      if same current next then coalesceFrom same join (join current next) rest else current :: coalesceFrom same join next rest

def coalesce (same : Item → Item → Bool) (join : Item → Item → Item) : List Item → List Item
  | [] => []
  | first :: rest => coalesceFrom same join first rest

-- An item stands for a block of sources, and goes on doing so while sources join it.
structure Tells (same : Item → Item → Bool) (join : Item → Item → Item) (related : Source → Source → Bool)
    (unit : Source → Item → Prop) (stands : List Source → Item → Prop) : Prop where
  single : ∀ source item, unit source item → stands [source] item
  alike : ∀ block source open' item, stands (block ++ [source]) open' → ∀ next, unit next item → same open' item = related source next
  joins : ∀ block source open' item, stands block open' → unit source item → same open' item = true →
    stands (block ++ [source]) (join open' item)

variable {same : Item → Item → Bool} {join : Item → Item → Item} {related : Source → Source → Bool} {unit : Source → Item → Prop}
  {stands : List Source → Item → Prop}

theorem coalesceFrom_stands (tells : Tells same join related unit stands) {sources : List Source} {items : List Item}
    (units : List.Forall₂ unit sources items) (block : List Source) (source : Source) {current : Item}
    (chain : (block ++ [source]).IsChain fun source other => related source other) (standing : stands (block ++ [source]) current) :
    List.Forall₂ stands ((block ++ source :: sources).splitBy related) (coalesceFrom same join current items) := by
  induction units generalizing block source current with
  | nil =>
    rw [coalesceFrom, List.splitBy_of_isChain (by simp) chain]
    exact .cons standing .nil
  | @cons next item sources items first rest ih =>
    have alike := tells.alike block source current item standing next first
    rw [coalesceFrom]
    split
    next going =>
      have longer : (block ++ [source] ++ [next]).IsChain fun source other => related source other := by
        rw [List.isChain_append]
        refine ⟨chain, .singleton next, fun last at' other here => ?_⟩
        rw [List.getLast?_concat] at at'
        obtain rfl := Option.some.inj at'
        obtain rfl := Option.some.inj here
        exact alike.symm.trans going
      have later := ih (block ++ [source]) next longer (tells.joins _ next current item standing first going)
      rwa [List.append_assoc, List.singleton_append] at later
    next apart =>
      have apart' : related source next = false := alike.symm.trans (Bool.eq_false_iff.mpr apart)
      have split : (block ++ source :: next :: sources).splitBy related =
          (block ++ [source]) :: (next :: sources).splitBy related := by
        have whole : block ++ source :: next :: sources = (block ++ [source]) ++ next :: sources := by simp
        rw [whole, List.splitBy_append_cons, List.splitBy_of_isChain (by simp) chain, List.singleton_append]
        intro last at'
        rw [List.getLast?_concat] at at'
        obtain rfl := Option.some.inj at'
        exact apart'
      rw [split]
      exact .cons standing (ih [] next (.singleton next) (tells.single next item first))

theorem coalesce_stands (tells : Tells same join related unit stands) {sources : List Source} {items : List Item}
    (units : List.Forall₂ unit sources items) :
    List.Forall₂ stands (sources.splitBy related) (coalesce same join items) := by
  cases units with
  | nil => exact .nil
  | cons first rest => exact coalesceFrom_stands tells rest [] _ (.singleton _) (tells.single _ _ first)

/-! ## Blocks of one key -/

variable {Key : Type} [DecidableEq Key] {key : Source → Key}

def sameKey (key : Source → Key) (source other : Source) : Bool := decide (key source = key other)

def blocksOf (key : Source → Key) (sources : List Source) : List (List Source) := sources.splitBy (sameKey key)

-- The sources of a block share its key.
def Constant (key : Source → Key) (block : List Source) (value : Key) : Prop := block ≠ [] ∧ ∀ source ∈ block, key source = value

theorem constant_of_chain {block : List Source} {first : Source} (chain : (first :: block).IsChain fun source other => sameKey key source other) :
    Constant key (first :: block) (key first) := by
  refine ⟨List.cons_ne_nil _ _, ?_⟩
  induction block generalizing first with
  | nil =>
    intro source member
    rw [List.mem_singleton.mp member]
  | cons second rest ih =>
    rw [List.isChain_cons_cons] at chain
    have equal : key first = key second := of_decide_eq_true chain.1
    intro source member
    obtain rfl | later := List.mem_cons.mp member
    · rfl
    · exact (ih chain.2 source later).trans equal.symm

theorem chain_of_constant {block : List Source} {value : Key} (constant : Constant key block value) :
    block.IsChain fun source other => sameKey key source other := by
  apply List.Pairwise.isChain
  rw [List.pairwise_iff_getElem]
  intro place other here there _
  exact decide_eq_true ((constant.2 _ (List.getElem_mem here)).trans (constant.2 _ (List.getElem_mem there)).symm)

theorem blocksOf_constant {sources block : List Source} (member : block ∈ blocksOf key sources) : ∃ value, Constant key block value := by
  have chain := List.isChain_of_mem_splitBy member
  obtain ⟨first, rest, rfl⟩ := List.exists_cons_of_ne_nil (List.ne_nil_of_mem_splitBy member)
  exact ⟨key first, constant_of_chain chain⟩

omit [DecidableEq Key] in
theorem Constant.unique {block : List Source} {value other : Key} (first : Constant key block value) (second : Constant key block other) :
    value = other := by
  obtain ⟨source, rest, rfl⟩ := List.exists_cons_of_ne_nil first.1
  exact (first.2 source List.mem_cons_self).symm.trans (second.2 source List.mem_cons_self)

-- Two blocks of different keys.
def Apart (key : Source → Key) (block other : List Source) : Prop :=
  ∀ value rival, Constant key block value → Constant key other rival → value ≠ rival

theorem apart_iff {block other : List Source} {value rival : Key} (first : Constant key block value) (second : Constant key other rival) :
    (∃ here there, sameKey key (block.getLast here) (other.head there) = false) ↔ value ≠ rival := by
  have last : key (block.getLast first.1) = value := first.2 _ (List.getLast_mem first.1)
  have head : key (other.head second.1) = rival := second.2 _ (List.head_mem second.1)
  constructor
  · rintro ⟨here, there, differ⟩
    rw [← last, ← head]
    exact of_decide_eq_false differ
  · intro differ
    exact ⟨first.1, second.1, by rw [sameKey, last, head]; exact decide_eq_false differ⟩

-- Blocks of one key each, no two neighbours alike, are the blocks of what they make up.
theorem blocksOf_flatten {blocks : List (List Source)} (constant : ∀ block ∈ blocks, ∃ value, Constant key block value)
    (apart : blocks.IsChain (Apart key)) : blocksOf key blocks.flatten = blocks := by
  apply List.splitBy_flatten
  · intro empty
    obtain ⟨value, filled, -⟩ := constant [] empty
    exact filled rfl
  · intro block member
    obtain ⟨value, same⟩ := constant block member
    exact chain_of_constant same
  · apply apart.imp_of_mem_imp
    intro block other here there differ
    obtain ⟨value, first⟩ := constant block here
    obtain ⟨rival, second⟩ := constant other there
    exact (apart_iff first second).mpr (differ value rival first second)

theorem blocksOf_apart (key : Source → Key) (sources : List Source) : (blocksOf key sources).IsChain (Apart key) := by
  apply (List.isChain_getLast_head_splitBy (sameKey key) sources).imp
  intro block other differ value rival first second
  exact (apart_iff first second).mp differ

-- Whatever reads the key of a block differs between neighbours.
theorem blocksOf_differ {sources : List Source} {value : List Source → Key} (reads : ∀ block found, Constant key block found → value block = found) :
    (blocksOf key sources).IsChain fun block other => value block ≠ value other := by
  apply (blocksOf_apart key sources).imp_of_mem_imp
  intro block other here there apart
  obtain ⟨found, first⟩ := blocksOf_constant here
  obtain ⟨rival, second⟩ := blocksOf_constant there
  rw [reads block found first, reads other rival second]
  exact apart found rival first second

theorem blocksOf_singles {sources : List Source} (apart : sources.IsChain fun source other => key source ≠ key other) :
    blocksOf key sources = sources.map fun source => [source] := by
  have single : ∀ source : Source, Constant key [source] (key source) := fun source =>
    ⟨List.cons_ne_nil _ _, fun other member => by rw [List.mem_singleton.mp member]⟩
  have blocks : blocksOf key (sources.map fun source => [source]).flatten = sources.map fun source => [source] := by
    apply blocksOf_flatten
    · intro block member
      obtain ⟨source, -, rfl⟩ := List.mem_map.mp member
      exact ⟨key source, single source⟩
    · rw [List.isChain_map]
      apply apart.imp
      intro source other differ value rival first second
      rwa [first.unique (single source), second.unique (single other)]
  have whole : (sources.map fun source => [source]).flatten = sources := by
    rw [← List.flatMap_def, List.flatMap_singleton']
  rwa [whole] at blocks

/-! ## Sources left out -/

variable {keep : Source → Bool}

-- The part of the sources from the first to the last of a group of those kept.
structure Spans (keep : Source → Bool) (sources group whole : List Source) : Prop where
  part : whole <:+: sources
  chosen : whole.filter keep = group
  first : whole.head? = group.head?
  last : whole.getLast? = group.getLast?

theorem exists_suffix {sources group : List Source} (chosen : sources.filter keep = group) (filled : group ≠ []) :
    ∃ whole, whole <:+ sources ∧ whole.filter keep = group ∧ whole.head? = group.head? := by
  obtain ⟨first, rest, rfl⟩ := List.exists_cons_of_ne_nil filled
  obtain ⟨skipped, later, rfl, -, held, chosen'⟩ := List.filter_eq_cons_iff.mp chosen
  refine ⟨first :: later, List.suffix_append skipped _, ?_, rfl⟩
  rw [List.filter_cons, if_pos held, chosen']

theorem exists_prefix {sources group : List Source} (chosen : sources.filter keep = group) (filled : group ≠ []) :
    ∃ whole, whole <+: sources ∧ whole.filter keep = group ∧ whole.getLast? = group.getLast? := by
  have turned : sources.reverse.filter keep = group.reverse := by rw [List.filter_reverse, chosen]
  obtain ⟨whole, part, kept, head⟩ := exists_suffix turned (by simpa using filled)
  refine ⟨whole.reverse, by simpa using List.reverse_prefix.mpr part, ?_, ?_⟩
  · rw [List.filter_reverse, kept, List.reverse_reverse]
  · rw [List.getLast?_reverse, head, List.head?_reverse]

theorem exists_spans {sources group : List Source} (part : group <:+: sources.filter keep) (filled : group ≠ []) :
    ∃ whole, Spans keep sources group whole := by
  obtain ⟨left, right, same⟩ := part
  obtain ⟨front, back, rfl, chosen, -⟩ := List.filter_eq_append_iff.mp same.symm
  obtain ⟨skipped, middle, rfl, -, chosen⟩ := List.filter_eq_append_iff.mp chosen
  obtain ⟨late, ends, chosen, head⟩ := exists_suffix chosen filled
  obtain ⟨whole, begins, held, last⟩ := exists_prefix chosen filled
  refine ⟨whole, ?_, held, ?_, last⟩
  · have inner : middle <:+: skipped ++ middle ++ back := ⟨skipped, back, rfl⟩
    exact begins.isInfix.trans (ends.isInfix.trans inner)
  · obtain ⟨rest, rfl⟩ := begins
    rw [← head, List.head?_append_of_ne_nil]
    rintro rfl
    exact filled held.symm

-- Two alike are kept, and all between them are left out.
def Bridged (key : Source → Key) (keep : Source → Bool) (sources : List Source) : Prop :=
  ∃ before first dropped last after, sources = before ++ first :: (dropped ++ last :: after) ∧ dropped ≠ [] ∧
    (∀ source ∈ dropped, keep source = false) ∧ keep first = true ∧ keep last = true ∧ key first = key last

omit [DecidableEq Key] in
theorem filter_apart_iff {sources : List Source} (apart : sources.IsChain fun source other => key source ≠ key other) :
    ((sources.filter keep).IsChain fun source other => key source ≠ key other) ↔ ¬ Bridged key keep sources := by
  constructor
  · rintro chain ⟨before, first, dropped, last, after, rfl, -, left, here, there, alike⟩
    have none : dropped.filter keep = [] := List.filter_eq_nil_iff.mpr fun source member => by simp [left source member]
    rw [List.filter_append, List.filter_cons, if_pos here, List.filter_append, none, List.nil_append, List.filter_cons,
      if_pos there] at chain
    have next := (List.isChain_append.mp chain).2.1
    exact (List.isChain_cons_cons.mp next).1 alike
  · intro unbridged
    apply (List.isChain_isInfix (sources.filter keep)).imp
    intro first last part alike
    obtain ⟨whole, spans⟩ := exists_spans part (List.cons_ne_nil _ _)
    have held : ∀ source ∈ [first, last], keep source = true := by
      intro source member
      rw [← spans.chosen] at member
      exact (List.mem_filter.mp member).2
    have here := held first (by simp)
    have there := held last (by simp)
    obtain ⟨rest, rfl⟩ : ∃ rest, whole = first :: rest := by
      obtain ⟨rest, same⟩ := List.head?_eq_some_iff.mp spans.first
      exact ⟨rest, same⟩
    have chosen := spans.chosen
    rw [List.filter_cons, if_pos here, List.cons.injEq] at chosen
    have filled : rest ≠ [] := by
      rintro rfl
      exact absurd chosen.2 (by simp)
    have final : rest.getLast? = some last := by
      have := spans.last
      rwa [List.getLast?_cons_of_ne_nil filled, List.getLast?_cons_cons, List.getLast?_singleton] at this
    obtain ⟨dropped, rfl⟩ := List.getLast?_eq_some_iff.mp final
    have none : dropped.filter keep = [] := by
      have both := chosen.2
      rw [List.filter_append, List.filter_singleton, there] at both
      simpa using both
    obtain ⟨before, after, place⟩ := spans.part
    apply unbridged
    refine ⟨before, first, dropped, last, after, ?_, ?_, ?_, here, there, alike⟩
    · rw [← place]
      simp
    · rintro rfl
      have chain := List.IsChain.infix apart spans.part
      exact (List.isChain_cons_cons.mp chain).1 alike
    · intro source member
      have absent := List.filter_eq_nil_iff.mp none source member
      simpa using absent

omit [DecidableEq Key] in
-- A group of one key that nothing was left out of is one source.
theorem Spans.single {sources group whole : List Source} (apart : sources.IsChain fun source other => key source ≠ key other)
    (spans : Spans keep sources group whole) {value : Key} (constant : Constant key group value) (full : whole = group) :
    ∃ source, group = [source] := by
  subst full
  have chain := List.IsChain.infix apart spans.part
  obtain ⟨source, rest, rfl⟩ := List.exists_cons_of_ne_nil constant.1
  cases rest with
  | nil => exact ⟨source, rfl⟩
  | cons next rest =>
    have here := constant.2 source (by simp)
    have there := constant.2 next (by simp)
    exact absurd (here.trans there.symm) (List.isChain_cons_cons.mp chain).1

omit [DecidableEq Key] in
theorem Spans.of_single {sources whole : List Source} {source : Source} (spans : Spans keep sources [source] whole) : whole = [source] := by
  obtain ⟨rest, rfl⟩ := List.head?_eq_some_iff.mp spans.first
  cases rest with
  | nil => rfl
  | cons next rest =>
    have last := spans.last
    rw [List.getLast?_cons_cons, List.getLast?_singleton] at last
    have held : keep source = true := by
      have member : source ∈ (source :: next :: rest).filter keep := spans.chosen ▸ List.mem_singleton_self source
      exact (List.mem_filter.mp member).2
    have chosen := spans.chosen
    rw [List.filter_cons, if_pos held, List.cons.injEq] at chosen
    have again := List.filter_eq_nil_iff.mp chosen.2 source (List.mem_of_getLast? last)
    exact absurd held again

theorem chain_of_singles {sources : List Source} (singles : ∀ group ∈ blocksOf key sources, ∃ source, group = [source]) :
    sources.IsChain fun source other => key source ≠ key other := by
  have pieces : (blocksOf key sources).flatten = sources := List.flatten_splitBy (sameKey key) sources
  have filled : [] ∉ blocksOf key sources := List.nil_notMem_splitBy (sameKey key) sources
  rw [← pieces, List.isChain_flatten filled]
  constructor
  · intro group member
    obtain ⟨source, rfl⟩ := singles group member
    exact .singleton source
  · apply (blocksOf_apart key sources).imp_of_mem_imp
    intro group other here there apart last at' head at''
    obtain ⟨source, rfl⟩ := singles group here
    obtain ⟨next, rfl⟩ := singles other there
    obtain rfl := Option.some.inj at'
    obtain rfl := Option.some.inj at''
    exact apart _ _ (constant_of_chain (.singleton source)) (constant_of_chain (.singleton next))

theorem infix_of_mem_blocksOf {sources group : List Source} (member : group ∈ blocksOf key sources) : group <:+: sources := by
  have part := List.infix_of_mem_flatten member
  rwa [blocksOf, List.flatten_splitBy] at part

-- Nothing is left out of any group exactly when nothing bridges two of them.
theorem groups_full_iff {sources : List Source} (apart : sources.IsChain fun source other => key source ≠ key other) :
    (∀ group ∈ blocksOf key (sources.filter keep), ∀ whole, Spans keep sources group whole → whole = group) ↔
      ¬ Bridged key keep sources := by
  rw [← filter_apart_iff apart]
  constructor
  · intro full
    apply chain_of_singles
    intro group member
    obtain ⟨value, constant⟩ := blocksOf_constant member
    obtain ⟨whole, spans⟩ := exists_spans (infix_of_mem_blocksOf member) constant.1
    exact spans.single apart constant (full group member whole spans)
  · intro chain group member whole spans
    rw [blocksOf_singles chain] at member
    obtain ⟨source, -, rfl⟩ := List.mem_map.mp member
    exact spans.of_single

end Phaze.Coalesce
