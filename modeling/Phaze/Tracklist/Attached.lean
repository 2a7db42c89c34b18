import Phaze.Tracklist.TextRun

set_option autoImplicit false

/-!
# Errors reach their sections

Where `_text` puts the errors that are left at the end, and the parse it returns.
-/

namespace Phaze.Tracklist

open Phaze.Guards Phaze.Percent Phaze.Unicode

/-! ## Sections with more errors -/

structure Extended (errors : List Text) (before after : TextSection) : Prop where
  same : after = { before with errors := after.errors }
  kept : ∀ error ∈ before.errors, error ∈ after.errors
  added : ∀ error ∈ after.errors, error ∈ before.errors ∨ error ∈ errors

variable {errors : List Text} {error : Text} {before after part : TextSection} {sections later : List TextSection}

theorem Extended.refl (errors : List Text) (part : TextSection) : Extended errors part part :=
  { same := rfl, kept := fun _ member => member, added := fun _ member => .inl member }

theorem Extended.trans {others : List Text} (first : Extended errors before part) (second : Extended others part after) :
    Extended (errors ++ others) before after where
  same := by
    rw [second.same, first.same]
  kept error member := second.kept error (first.kept error member)
  added error member := by
    obtain earlier | new := second.added error member
    · obtain old | old := first.added error earlier
      · exact .inl old
      · exact .inr (List.mem_append_left _ old)
    · exact .inr (List.mem_append_right _ new)

theorem Extended.line (extended : Extended errors before after) : after.line = before.line := by rw [extended.same]

theorem Extended.ordinal (extended : Extended errors before after) : after.ordinal = before.ordinal := by rw [extended.same]

theorem Extended.rowCount (extended : Extended errors before after) : after.rowCount = before.rowCount := by rw [extended.same]

theorem Extended.sound (extended : Extended errors before after) (sound : before.Sound) (plain : AllPlain errors) : after.Sound := by
  rw [extended.same]
  refine { sound with errors := fun error member => ?_ }
  obtain old | new := extended.added error member
  · exact sound.errors error old
  · exact plain error new

/-! ## One error -/

-- The last section that starts at the line or before it.
def enclosing (line : Nat) (sections : List TextSection) : Option TextSection :=
  (sections.filter fun part => decide (part.line ≤ line)).getLast?

theorem enclosing_none {line : Nat} : enclosing line sections = none ↔ ∀ part ∈ sections, line < part.line := by
  simp [enclosing]

theorem enclosing_cons_some {line : Nat} (found : enclosing line sections = some part) (first : TextSection) :
    enclosing line (first :: sections) = some part := by
  rw [enclosing] at found ⊢
  rw [List.filter_cons]
  split
  · rw [List.getLast?_cons, found]
    rfl
  · exact found

theorem enclosing_cons_none {line : Nat} (none : enclosing line sections = none) {first : TextSection} (starts : first.line ≤ line) :
    enclosing line (first :: sections) = some first := by
  rw [enclosing] at none ⊢
  rw [List.filter_cons, if_pos (decide_eq_true starts), List.getLast?_cons, none]
  rfl

theorem enclosing_mem {line : Nat} (found : enclosing line sections = some part) : part ∈ sections ∧ part.line ≤ line := by
  have member := List.mem_filter.mp (List.mem_of_getLast? found)
  exact ⟨member.1, of_decide_eq_true member.2⟩

theorem attach_none : attach error sections = none ↔ enclosing (errorLine error) sections = none := by
  rw [enclosing_none]
  induction sections with
  | nil => simp [attach]
  | cons first rest ih =>
    rw [attach]
    cases placed : attach error rest with
    | some others =>
      have some : ¬ ∀ part ∈ rest, errorLine error < part.line := fun all => by
        rw [ih.mpr all] at placed
        cases placed
      simp only [reduceCtorEq, false_iff]
      intro all
      exact some fun part member => all part (List.mem_cons_of_mem _ member)
    | none =>
      have all := ih.mp placed
      dsimp only
      split
      next starts =>
        simp only [reduceCtorEq, false_iff]
        intro every
        exact absurd (every first List.mem_cons_self) (Nat.not_lt_of_le starts)
      next after =>
        simp only [true_iff]
        intro part member
        obtain rfl | rest := List.mem_cons.mp member
        · exact Nat.lt_of_not_le after
        · exact all part rest

theorem attach_some (placed : attach error sections = some later) :
    List.Forall₂ (Extended [error]) sections later ∧ ∃ part, enclosing (errorLine error) later = some part ∧ error ∈ part.errors := by
  induction sections generalizing later with
  | nil => cases placed
  | cons first rest ih =>
    rw [attach] at placed
    split at placed
    next others found =>
      obtain rfl := Option.some.inj placed
      obtain ⟨extended, part, encloses, inside⟩ := ih found
      exact ⟨.cons (Extended.refl _ first) extended, part, enclosing_cons_some encloses first, inside⟩
    next absent =>
      split at placed
      next starts =>
        obtain rfl := Option.some.inj placed
        have none := attach_none.mp absent
        split
        next known => exact ⟨List.forall₂_same.mpr fun part _ => Extended.refl _ part, first, enclosing_cons_none none starts, known⟩
        next =>
          have extended : Extended [error] first { first with errors := first.errors ++ [error] } :=
            { same := rfl
              kept := fun _ member => List.mem_append_left _ member
              added := fun _ member => List.mem_append.mp member }
          have encloses : enclosing (errorLine error) ({ first with errors := first.errors ++ [error] } :: rest) =
              some { first with errors := first.errors ++ [error] } := enclosing_cons_none none starts
          exact ⟨.cons extended (List.forall₂_same.mpr fun part _ => Extended.refl _ part), _, encloses, by simp⟩
      next => cases placed

-- Sections keep their lines, so a line stays in its section.
theorem enclosing_extended {line : Nat} (extended : List.Forall₂ (Extended errors) sections later) :
    Option.Rel (Extended errors) (enclosing line sections) (enclosing line later) := by
  induction extended with
  | nil => exact .none
  | @cons first second rest others head tail ih =>
    cases found : enclosing line rest with
    | some part =>
      rw [found] at ih
      cases other : enclosing line others with
      | none =>
        rw [other] at ih
        cases ih
      | some next =>
        rw [other] at ih
        rw [enclosing_cons_some found, enclosing_cons_some other]
        exact ih
    | none =>
      rw [found] at ih
      cases other : enclosing line others with
      | some next =>
        rw [other] at ih
        cases ih
      | none =>
        by_cases starts : first.line ≤ line
        · rw [enclosing_cons_none found starts, enclosing_cons_none other (head.line.trans_le starts)]
          exact .some head
        · have left : enclosing line (first :: rest) = none := by
            rw [enclosing_none] at found ⊢
            simpa [Nat.lt_of_not_le starts] using found
          have right : enclosing line (second :: others) = none := by
            rw [enclosing_none] at other ⊢
            simpa [head.line, Nat.lt_of_not_le starts] using other
          rw [left, right]
          exact .none

/-! ## All errors -/

def attachOne (found : List TextSection × Bool) (error : Text) : List TextSection × Bool :=
  match attach error found.1 with
  | some placed => (placed, found.2)
  | none => (found.1, true)

-- An error is with its section, or the grammar of the whole is uncertain.
def Attached (error : Text) (found : List TextSection × Bool) : Prop :=
  match enclosing (errorLine error) found.1 with
  | some part => error ∈ part.errors
  | none => found.2 = true

variable {found : List TextSection × Bool}

theorem attachOne_extends (found : List TextSection × Bool) (error : Text) :
    List.Forall₂ (Extended [error]) found.1 (attachOne found error).1 ∧ (found.2 = true → (attachOne found error).2 = true) := by
  rw [attachOne]
  cases placed : attach error found.1 with
  | some later => exact ⟨(attach_some placed).1, id⟩
  | none => exact ⟨List.forall₂_same.mpr fun part _ => Extended.refl _ part, fun _ => rfl⟩

theorem attachOne_attached (found : List TextSection × Bool) (error : Text) : Attached error (attachOne found error) := by
  rw [attachOne]
  cases placed : attach error found.1 with
  | some later =>
    obtain ⟨part, encloses, inside⟩ := (attach_some placed).2
    simp only [Attached, encloses]
    exact inside
  | none => simp only [Attached, attach_none.mp placed]

theorem Attached.extended {next : List TextSection × Bool} (attached : Attached error found)
    (extended : List.Forall₂ (Extended errors) found.1 next.1) (flag : found.2 = true → next.2 = true) : Attached error next := by
  have related : Option.Rel (Extended errors) (enclosing (errorLine error) found.1) (enclosing (errorLine error) next.1) :=
    enclosing_extended extended
  rw [Attached] at attached ⊢
  cases first : enclosing (errorLine error) found.1 with
  | some part =>
    rw [first] at attached related
    cases second : enclosing (errorLine error) next.1 with
    | some other =>
      rw [second] at related
      cases related with
      | some same => exact same.kept error attached
    | none =>
      rw [second] at related
      cases related
  | none =>
    rw [first] at attached related
    cases second : enclosing (errorLine error) next.1 with
    | some other =>
      rw [second] at related
      cases related
    | none => exact flag attached

theorem forall₂_trans {others : List Text} {middle : List TextSection} (first : List.Forall₂ (Extended errors) sections middle)
    (second : List.Forall₂ (Extended others) middle later) : List.Forall₂ (Extended (errors ++ others)) sections later := by
  induction first generalizing later with
  | nil =>
    cases second
    exact .nil
  | cons head tail ih =>
    cases second with
    | cons next rest => exact .cons (head.trans next) (ih rest)

theorem attachAll_extends (found : List TextSection × Bool) (errors : List Text) :
    List.Forall₂ (Extended errors) found.1 (errors.foldl attachOne found).1 ∧
      (found.2 = true → (errors.foldl attachOne found).2 = true) := by
  induction errors generalizing found with
  | nil => exact ⟨List.forall₂_same.mpr fun part _ => Extended.refl _ part, id⟩
  | cons error rest ih =>
    obtain ⟨first, flag⟩ := attachOne_extends found error
    obtain ⟨second, later⟩ := ih (attachOne found error)
    exact ⟨forall₂_trans first second, fun set => later (flag set)⟩

theorem attachAll_attached {error : Text} (member : error ∈ errors) (found : List TextSection × Bool) :
    Attached error (errors.foldl attachOne found) := by
  induction errors generalizing found with
  | nil => cases member
  | cons first rest ih =>
    obtain rfl | later := List.mem_cons.mp member
    · obtain ⟨extended, flag⟩ := attachAll_extends (attachOne found error) rest
      exact (attachOne_attached found error).extended extended flag
    · exact ih later _

/-! ## Where the errors of a section come from -/

-- The section that a line falls in, by its number.
def sectionAt (line : Nat) (sections : List TextSection) : Option Nat := (enclosing line sections).map TextSection.ordinal

theorem sectionAt_extended {line : Nat} (extended : List.Forall₂ (Extended errors) sections later) :
    sectionAt line later = sectionAt line sections := by
  have related : Option.Rel (Extended errors) (enclosing line sections) (enclosing line later) := enclosing_extended extended
  rw [sectionAt, sectionAt]
  generalize enclosing line sections = first at related ⊢
  generalize enclosing line later = second at related ⊢
  cases related with
  | some extended => rw [Option.map_some, Option.map_some, extended.ordinal]
  | none => rfl

-- Every error was in the section before, or one of the section's lines has it.
def Origin (errors : List Text) (sections later : List TextSection) : Prop :=
  ∀ part ∈ later, ∀ error ∈ part.errors, (∃ old ∈ sections, old.ordinal = part.ordinal ∧ error ∈ old.errors) ∨
    error ∈ errors ∧ sectionAt (errorLine error) sections = some part.ordinal

theorem Origin.refl (errors : List Text) (sections : List TextSection) : Origin errors sections sections :=
  fun part member _ inside => .inl ⟨part, member, rfl, inside⟩

theorem attach_origin (placed : attach error sections = some later) : Origin [error] sections later := by
  induction sections generalizing later with
  | nil => cases placed
  | cons first rest ih =>
    rw [attach] at placed
    split at placed
    next others found =>
      obtain rfl := Option.some.inj placed
      intro part member held inside
      obtain rfl | behind := List.mem_cons.mp member
      · exact .inl ⟨part, List.mem_cons_self, rfl, inside⟩
      · obtain ⟨old, present, same, before⟩ | ⟨new, falls⟩ := ih found part behind held inside
        · exact .inl ⟨old, List.mem_cons_of_mem _ present, same, before⟩
        · obtain ⟨own, encloses, ordinal⟩ := Option.map_eq_some_iff.mp falls
          exact .inr ⟨new, by rw [sectionAt, enclosing_cons_some encloses, Option.map_some, ordinal]⟩
    next absent =>
      split at placed
      next starts =>
        obtain rfl := Option.some.inj placed
        have falls : sectionAt (errorLine error) (first :: rest) = some first.ordinal := by
          rw [sectionAt, enclosing_cons_none (attach_none.mp absent) starts, Option.map_some]
        intro part member held inside
        obtain rfl | behind := List.mem_cons.mp member
        · split at inside
          next => exact .inl ⟨first, List.mem_cons_self, by split <;> rfl, inside⟩
          next =>
            obtain before | last := List.mem_append.mp inside
            · exact .inl ⟨first, List.mem_cons_self, by split <;> rfl, before⟩
            · obtain rfl := List.mem_singleton.mp last
              exact .inr ⟨last, falls.trans (by split <;> rfl)⟩
        · exact .inl ⟨part, List.mem_cons_of_mem _ behind, rfl, inside⟩
      next => cases placed

theorem attachOne_origin (found : List TextSection × Bool) (error : Text) : Origin [error] found.1 (attachOne found error).1 ∧
    ((attachOne found error).2 = true → found.2 = true ∨ sectionAt (errorLine error) found.1 = none) := by
  rw [attachOne]
  cases placed : attach error found.1 with
  | some later => exact ⟨attach_origin placed, .inl⟩
  | none => exact ⟨Origin.refl _ _, fun _ => .inr (by rw [sectionAt, attach_none.mp placed, Option.map_none])⟩

theorem attachAll_origin (errors : List Text) (found : List TextSection × Bool) : Origin errors found.1 (errors.foldl attachOne found).1 ∧
    ((errors.foldl attachOne found).2 = true → found.2 = true ∨ ∃ error ∈ errors, sectionAt (errorLine error) found.1 = none) := by
  induction errors generalizing found with
  | nil => exact ⟨Origin.refl _ _, .inl⟩
  | cons first rest ih =>
    obtain ⟨placed, flag⟩ := attachOne_origin found first
    obtain ⟨later, flags⟩ := ih (attachOne found first)
    have same : ∀ line, sectionAt line (attachOne found first).1 = sectionAt line found.1 :=
      fun _ => sectionAt_extended (attachOne_extends found first).1
    constructor
    · intro part member error inside
      obtain ⟨middle, present, ordinal, held⟩ | ⟨new, falls⟩ := later part member error inside
      · rw [← ordinal]
        obtain old | ⟨new, falls⟩ := placed middle present error held
        · exact .inl old
        · exact .inr ⟨List.mem_cons.mpr (.inl (List.mem_singleton.mp new)), falls⟩
      · exact .inr ⟨List.mem_cons_of_mem _ new, same _ ▸ falls⟩
    · intro set
      obtain before | ⟨error, member, falls⟩ := flags set
      · exact (flag before).imp_right fun falls => ⟨first, List.mem_cons_self, falls⟩
      · exact .inr ⟨error, List.mem_cons_of_mem _ member, same _ ▸ falls⟩

/-! ## The parse of a text -/

theorem fits_errorText {line : Nat} {reason : Text} (small : line < 10 ^ 5) (plain : Plain reason) (short : reason.length ≤ 64) :
    fits 4096 (errorText line reason) = true := by
  refine fits_iff.mpr ⟨?_, plain_errorText plain⟩
  have digits := length_digits_le small
  have tag : (str "line:").length = 5 := by decide
  have colon : (str ":").length = 1 := by decide
  rw [errorText, lineTag, List.length_append, List.length_append, List.length_append, tag, colon]
  omega

theorem problems_plain (sound : part.Sound) : AllPlain part.problems := by
  rw [TextSection.problems]
  split
  · exact sound.errors
  · split
    · exact allPlain_nil
    · exact (plain_errorText (plain_str _)).single

theorem close_fits (sound : part.Sound) : part.close.fieldsFit = true := by
  have heading : evidenceFits [errorText part.line (str "section_heading")] = true :=
    evidenceFits_iff.mpr ⟨by simp, fun text member => List.mem_singleton.mp member ▸ fits_errorText sound.line (plain_str _) (by decide)⟩
  have reasons : fits 4096 (if part.problems = [] then str "Section rows exhausted" else str "Unsupported or absent section rows") = true := by
    split
    · decide
    · decide
  simp only [TrackSection.fieldsFit, TextSection.close, Completeness.fieldsFit, Bool.and_eq_true]
  exact ⟨⟨⟨⟨⟨decide_eq_true sound.ordinal.1, decide_eq_true sound.ordinal.2⟩, sound.title⟩, reasons,
    boundedEvidence_fits (problems_plain sound)⟩, boundedEvidence_fits sound.warnings⟩, heading⟩

variable {budget : LoadBudget} {state : TextState}

-- The sections of the parse are those of the run, with the errors that reached them.
theorem finish_extends (state : TextState) :
    List.Forall₂ (Extended state.parse.errors) state.sections (attachAll state.parse.errors state.sections).1 :=
  (attachAll_extends (state.sections, false) state.parse.errors).1

theorem finish_ordinals (state : TextState) :
    (attachAll state.parse.errors state.sections).1.map TextSection.ordinal = state.sections.map TextSection.ordinal := by
  symm
  rw [← List.forall₂_eq_eq_eq, List.forall₂_map_left_iff, List.forall₂_map_right_iff]
  exact (finish_extends state).imp fun _ _ extended => extended.ordinal.symm

theorem TextState.Sound.finish (sound : state.Sound budget) : state.finish.Sound budget := by
  have extends' := finish_extends state
  have length := extends'.length_eq
  have ordinals : (attachAll state.parse.errors state.sections).1.map TextSection.ordinal = List.range' 1 state.sections.length :=
    (finish_ordinals state).trans sound.ordinals
  have closed : (state.finish.sections.map TrackSection.ordinal) = List.range' 1 state.sections.length := by
    rw [← ordinals, TextState.finish]
    simp only [List.map_map]
    rfl
  refine ⟨{ sound.kept with }, ?_, ?_, ?_⟩
  · intro closed member
    obtain ⟨part, present, rfl⟩ := List.mem_map.mp member
    obtain ⟨index, bound, rfl⟩ := List.mem_iff_getElem.mp present
    have extended := extends'.get (length.symm ▸ bound) bound
    exact close_fits (extended.sound (sound.parts _ (List.get_mem _ _)) sound.kept.errors)
  · show ((attachAll state.parse.errors state.sections).1.map TextSection.close).length ≤ 4096
    rw [List.length_map, ← length]
    exact sound.few
  · constructor
    · rw [closed]
      exact List.pairwise_lt_range'
    · intro ordinal member
      obtain ⟨row, present, same⟩ := List.mem_map.mp member
      obtain ⟨named, given, positive, bound⟩ := sound.named row present
      obtain rfl := Option.some.inj (given.symm.trans same)
      rw [closed, List.mem_range'_1]
      omega
    · intro _ member
      obtain ⟨row, present, none⟩ := List.mem_map.mp member
      obtain ⟨named, given, -⟩ := sound.named row present
      cases given.symm.trans none

theorem text_sound {isWord : CodePoint → Bool} {lines : List Text} (plain : AllPlain lines) (few : lines.length ≤ 16384) :
    (text isWord lines budget).Sound budget := by
  have run : (textRun isWord { lines, budget }).Sound budget := textRun_sound { lines, budget } plain few
  exact run.finish

end Phaze.Tracklist
