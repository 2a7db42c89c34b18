import Phaze.Tracklist.LocalReads

set_option autoImplicit false

/-!
# Rejected lines are seen

Which rejections of free text show in the section that a reviewer may select.
-/

namespace Phaze.Tracklist

open Phaze.Guards Phaze.Patterns Phaze.Percent Phaze.Unicode

/-! ## Where a section of a snapshot starts -/

theorem errorLine_errorText (line : Nat) (reason : Text) : errorLine (errorText line reason) = line := by
  have shape : errorText line reason = str "line" ++ (.scalar ':' :: (digits line ++ (.scalar ':' :: reason))) := by
    have tag : str "line:" = str "line" ++ [.scalar ':'] := by decide
    have colon : str ":" = [.scalar ':'] := by decide
    rw [errorText, lineTag, tag, colon]
    simp
  have front : ∀ point ∈ str "line", decide (point ≠ CodePoint.scalar ':') = true := by decide
  have plain : ∀ point ∈ digits line, decide (point ≠ CodePoint.scalar ':') = true := by
    intro point member
    have digit := isAsciiDigit_of_mem_digits member
    rw [decide_eq_true_eq]
    rintro rfl
    cases digit
  rw [errorLine, shape, List.dropWhile_append_of_pos front, List.dropWhile_cons_of_neg (by simp), List.tail_cons,
    List.takeWhile_append_of_pos plain, List.takeWhile_cons_of_neg (by simp), List.append_nil, number, parseDecimal_digits]
  rfl

def TrackSection.startLine (part : TrackSection) : Nat := errorLine (part.evidence.headD [])

def enclosingPart (line : Nat) (sections : List TrackSection) : Option TrackSection :=
  (sections.filter fun part => decide (part.startLine ≤ line)).getLast?

theorem close_startLine (part : TextSection) : part.close.startLine = part.line := errorLine_errorText part.line _

theorem enclosingPart_close (line : Nat) (sections : List TextSection) :
    enclosingPart line (sections.map TextSection.close) = (enclosing line sections).map TextSection.close := by
  rw [enclosingPart, enclosing, List.filter_map, List.getLast?_map]
  have same : ((fun part : TrackSection => decide (part.startLine ≤ line)) ∘ TextSection.close) = fun part => decide (part.line ≤ line) := by
    funext part
    rw [Function.comp_apply, close_startLine]
  rw [same]

-- The line's section is incomplete; without one, the scan is.
structure Visible (outcome : LoadOutcome) (line : Nat) : Prop where
  incomplete : outcome.status = .incomplete
  enclosed : ∀ snapshot part, outcome.snapshot = some snapshot → enclosingPart line snapshot.sections = some part →
    part.completeness.state = .incomplete
  outside : ∀ snapshot, outcome.snapshot = some snapshot → enclosingPart line snapshot.sections = none →
    snapshot.sectionScanComplete = false

-- What a complete section of a complete scan stands for.
structure Trusted (parse : Parse) (snapshot : Snapshot) (part : TrackSection) : Prop where
  unrejected : ∀ entry ∈ parse.rejected, 0 < entry.1 → enclosingPart entry.1 snapshot.sections ≠ some part
  rows : ∀ row ∈ parse.rows, row.sectionOrdinal = some part.ordinal → trackOf row ∈ snapshot.tracks

variable {isWord : CodePoint → Bool} {originKey : SourceIdentity → Text} {candidate : ProviderCandidate} {source : SourceReference}
  {content : SourceRead} {contentText : Text} {budget : LoadBudget} {decoded : Decoded} {sourceFormat : Text} {parse : Parse}
  {state : TextState} {outcome : LoadOutcome}

/-! ## What shows a line -/

-- What the scan leaves that shows a line, once the list of errors is full: an error that found room in it, of a line
-- in the same section, or one that the section noted itself, or a section without rows. Before the first section the
-- scan shows the line where the text has no section or was clipped.
def Marked (state : TextState) (clipped : Bool) (line : Nat) : Prop :=
  (∃ error ∈ state.parse.errors, sectionAt (errorLine error) state.sections = sectionAt line state.sections) ∨
    (∃ part ∈ enclosing line state.sections, part.errors ≠ [] ∨ part.rowCount = 0) ∨
    enclosing line state.sections = none ∧ (state.sections = [] ∨ clipped = true)

instance (state : TextState) (clipped : Bool) (line : Nat) : Decidable (Marked state clipped line) :=
  inferInstanceAs (Decidable (_ ∨ _ ∨ _))

theorem close_incomplete {part : TextSection} : part.close.completeness.state = .incomplete ↔ part.errors ≠ [] ∨ part.rowCount = 0 := by
  show (if part.problems = [] then CompletenessState.complete else .incomplete) = _ ↔ _
  rw [TextSection.problems]
  by_cases noted : part.errors = []
  · by_cases rows : 0 < part.rowCount
    · simp [noted, rows, Nat.ne_of_gt rows]
    · simp [noted, Nat.eq_zero_of_not_pos rows]
  · simp [noted]

theorem enclosing_extends (state : TextState) (line : Nat) : Option.Rel (Extended state.parse.errors) (enclosing line state.sections)
    (enclosing line (attachAll state.parse.errors state.sections).1) := enclosing_extended (finish_extends state)

theorem attached_falls {error : Text} {line : Nat} (recorded : error ∈ state.parse.errors)
    (same : sectionAt (errorLine error) state.sections = sectionAt line state.sections) :
    match enclosing line (attachAll state.parse.errors state.sections).1 with
    | some part => ∃ other ∈ (attachAll state.parse.errors state.sections).1, other.ordinal = part.ordinal ∧ error ∈ other.errors
    | none => (attachAll state.parse.errors state.sections).2 = true := by
  have attached : Attached error (attachAll state.parse.errors state.sections) := attachAll_attached recorded _
  have falls : sectionAt (errorLine error) (attachAll state.parse.errors state.sections).1 =
      sectionAt line (attachAll state.parse.errors state.sections).1 := by
    rw [sectionAt_extended (finish_extends state), sectionAt_extended (finish_extends state), same]
  rw [sectionAt, sectionAt] at falls
  rw [Attached] at attached
  cases encloses : enclosing (errorLine error) (attachAll state.parse.errors state.sections).1 with
  | some other =>
    rw [encloses] at attached falls
    obtain ⟨part, found, ordinal⟩ := Option.map_eq_some_iff.mp falls.symm
    rw [found]
    exact ⟨other, (enclosing_mem encloses).1, ordinal.symm, attached⟩
  | none =>
    rw [encloses] at attached falls
    rw [Option.map_eq_none_iff.mp falls.symm]
    exact attached

theorem sameOrdinal {sections : List TextSection} {part other : TextSection} (ordinals : sections.map TextSection.ordinal = List.range' 1 sections.length)
    (first : part ∈ sections) (second : other ∈ sections) (same : other.ordinal = part.ordinal) : other = part := by
  have distinct : (sections.map TextSection.ordinal).Nodup := ordinals ▸ List.nodup_range'
  exact List.inj_on_of_nodup_map distinct second first same

theorem finish_marked (sound : state.Sound budget) (clipped : Bool) (line : Nat) :
    (match enclosingPart line state.finish.sections with
      | some part => part.completeness.state = .incomplete
      | none => state.sections = [] ∨ state.finish.globalGrammarUncertain = true ∨ clipped = true) ↔ Marked state clipped line := by
  have related := enclosing_extends state line
  obtain ⟨origin, uncertain⟩ := attachAll_origin state.parse.errors (state.sections, false)
  have ordinals : (attachAll state.parse.errors state.sections).1.map TextSection.ordinal =
      List.range' 1 (attachAll state.parse.errors state.sections).1.length := by
    rw [finish_ordinals, sound.ordinals, (finish_extends state).length_eq]
  rw [Marked, TextState.finish]
  simp only [enclosingPart_close]
  cases before : enclosing line state.sections with
  | some part =>
    cases after : enclosing line (attachAll state.parse.errors state.sections).1 with
    | none =>
      rw [before, after] at related
      cases related
    | some later =>
      rw [before, after] at related
      obtain extended : Extended state.parse.errors part later := by
        cases related with
        | some extended => exact extended
      simp only [Option.map_some, Option.mem_def, Option.some.injEq, exists_eq_left', reduceCtorEq, false_and, or_false]
      rw [close_incomplete, extended.rowCount]
      constructor
      · rintro (noted | rowless)
        · obtain ⟨error, inside⟩ := List.exists_mem_of_ne_nil _ noted
          obtain ⟨old, present, ordinal, held⟩ | ⟨recorded, falls⟩ := origin later (enclosing_mem after).1 error inside
          · have own : old = part := sameOrdinal sound.ordinals (enclosing_mem before).1 present (ordinal.trans extended.ordinal)
            exact .inr (.inl (own ▸ List.ne_nil_of_mem held))
          · refine .inl ⟨error, recorded, ?_⟩
            rw [falls, sectionAt, before, Option.map_some, extended.ordinal]
        · exact .inr (.inr rowless)
      · rintro (⟨error, recorded, same⟩ | noted | rowless)
        · have falls := attached_falls recorded same
          rw [after] at falls
          obtain ⟨other, present, ordinal, inside⟩ := falls
          have own : other = later := sameOrdinal ordinals (enclosing_mem after).1 present ordinal
          exact .inl (own ▸ List.ne_nil_of_mem inside)
        · obtain ⟨error, inside⟩ := List.exists_mem_of_ne_nil _ noted
          exact .inl (List.ne_nil_of_mem (extended.kept error inside))
        · exact .inr rowless
  | none =>
    cases after : enclosing line (attachAll state.parse.errors state.sections).1 with
    | some later =>
      rw [before, after] at related
      cases related
    | none =>
      have outside : sectionAt line state.sections = none := by rw [sectionAt, before, Option.map_none]
      simp only [Option.map_none, Option.mem_def, reduceCtorEq, false_and, exists_false, false_or, true_and, outside]
      have listed : (attachAll state.parse.errors state.sections).2 = true ↔
          ∃ error ∈ state.parse.errors, sectionAt (errorLine error) state.sections = none := by
        constructor
        · intro set
          exact (uncertain set).resolve_left Bool.false_ne_true
        · rintro ⟨error, recorded, falls⟩
          have placed := attached_falls recorded (falls.trans outside.symm)
          rw [after] at placed
          exact placed
      rw [listed]
      exact or_left_comm

/-! ## From the run to the outcome -/

-- Nothing after the parse takes a rejection back or changes a section.
structure Continues (parse later : Parse) : Prop where
  sections : later.sections = parse.sections
  rows : later.rows = parse.rows
  uncertain : later.globalGrammarUncertain = parse.globalGrammarUncertain
  errors : parse.errors ≠ [] → later.errors ≠ []

theorem Continues.refl (parse : Parse) : Continues parse parse := ⟨rfl, rfl, rfl, id⟩

theorem Continues.trans {middle later : Parse} (first : Continues parse middle) (second : Continues middle later) :
    Continues parse later :=
  { sections := second.sections.trans first.sections
    rows := second.rows.trans first.rows
    uncertain := second.uncertain.trans first.uncertain
    errors := fun some => second.errors (first.errors some) }

theorem Continues.reject (parse : Parse) (line : Nat) (reason : Text) : Continues parse (parse.reject line reason) :=
  ⟨rfl, rfl, rfl, fun _ => reject_errors_ne_nil parse line reason⟩

theorem noteLimits_continues (content : SourceRead) (decoded : Decoded) (parse : Parse) : Continues parse (noteLimits content decoded parse) := by
  rw [noteLimits]
  split
  · exact Continues.reject parse 0 _
  · exact Continues.refl parse

theorem noteEmpty_continues (parse : Parse) : Continues parse (noteEmpty parse) := by
  rw [noteEmpty]
  split
  · exact Continues.reject parse 0 _
  · exact Continues.refl parse

theorem suffix_errorText (line : Nat) (reason : Text) : reason <:+ errorText line reason := List.suffix_append _ _

-- The cap of the output is always among the errors.
theorem capped_reject (parse : Parse) (line : Nat) : capped (parse.reject line (str "snapshot_output_cap")) = true := by
  have ends : endsWith (errorText line (str "snapshot_output_cap")) (str "cap") = true := by
    rw [endsWith, List.isSuffixOf_iff_suffix]
    have inner : str "cap" <:+ str "snapshot_output_cap" := List.isSuffixOf_iff_suffix.mp (by decide)
    exact inner.trans (suffix_errorText line _)
  have member : errorText line (str "snapshot_output_cap") ∈ (parse.reject line (str "snapshot_output_cap")).errors := by
    rw [Parse.reject]
    split
    · simp
    · split
      · simp
      next other => exact absurd (by decide) other
  rw [capped, List.any_eq_true]
  exact ⟨_, member, by rw [ends, Bool.true_or]⟩

theorem laterParse_uncapped {count : Nat} (uncapped : capped (laterParse parse count) = false) : parse.rows.length ≤ count := by
  rw [laterParse] at uncapped
  cases found : parse.rows[count]? with
  | none => exact List.getElem?_eq_none_iff.mp found
  | some row =>
    rw [found, Option.map_some, Option.elim_some, capped_reject] at uncapped
    cases uncapped

theorem finalOf_scan {count : Nat} : (finalOf candidate content decoded sourceFormat parse count).sectionScanComplete = true ↔
    parse.sections ≠ [] ∧ parse.globalGrammarUncertain = false ∧
      (decoded.limited || decoded.partly || capped (laterParse parse count)) = false := by
  have before : capped (laterParse parse count) = false → capped parse = false := fun uncapped => by
    rwa [laterParse_all (laterParse_uncapped uncapped)] at uncapped
  show ((baseSnapshot candidate content decoded sourceFormat parse).sectionScanComplete && !capped (laterParse parse count)) = true ↔ _
  simp only [baseSnapshot, Bool.and_eq_true, Bool.not_eq_true', Bool.or_eq_false_iff, decide_eq_true_eq]
  constructor
  · rintro ⟨⟨⟨⟨⟨some, certain⟩, whole⟩, all⟩, -⟩, uncapped⟩
    exact ⟨some, certain, ⟨whole, all⟩, uncapped⟩
  · rintro ⟨some, certain, ⟨whole, all⟩, uncapped⟩
    exact ⟨⟨⟨⟨⟨some, certain⟩, whole⟩, all⟩, before uncapped⟩, uncapped⟩

theorem laterParse_noticed (sound : parse.Sound budget) {count : Nat} {entry : Nat × Text} (member : entry ∈ (laterParse parse count).rejected) :
    (laterParse parse count).errors ≠ [] := by
  rw [laterParse] at member ⊢
  cases found : parse.rows[count]? with
  | none =>
    rw [found] at member
    exact fun empty => List.ne_nil_of_mem member (sound.kept.noticed.mp empty)
  | some row => exact reject_errors_ne_nil parse row.line _

theorem visible_iff (sound : state.Sound budget) (onward : Continues state.finish parse) {count : Nat} (errors : (laterParse parse count).errors ≠ [])
    (line : Nat) :
    Visible (outcomeOf content (laterParse parse count) (finalOf candidate content decoded sourceFormat parse count)) line ↔
      Marked state (decoded.limited || decoded.partly || capped (laterParse parse count)) line := by
  have sections : (finalOf candidate content decoded sourceFormat parse count).sections = state.finish.sections := onward.sections
  have none : state.finish.sections = [] ↔ state.sections = [] := by
    rw [← List.length_eq_zero_iff, ← List.length_eq_zero_iff, TextState.finish, List.length_map, (finish_extends state).length_eq]
  have scan : (finalOf candidate content decoded sourceFormat parse count).sectionScanComplete = true ↔
      state.sections ≠ [] ∧ state.finish.globalGrammarUncertain = false ∧
        (decoded.limited || decoded.partly || capped (laterParse parse count)) = false := by
    rw [finalOf_scan, onward.sections, onward.uncertain, ne_eq, none]
  rw [← finish_marked sound]
  constructor
  · intro visible
    cases encloses : enclosingPart line state.finish.sections with
    | some part => exact visible.enclosed _ part rfl (sections ▸ encloses)
    | none =>
      have incomplete := visible.outside _ rfl (sections ▸ encloses)
      by_contra hidden
      simp only [not_or, Bool.not_eq_true] at hidden
      rw [scan.mpr hidden] at incomplete
      cases incomplete
  · intro shown
    constructor
    · have incomplete : completeParse (laterParse parse count) = false := by
        rw [completeParse, decide_eq_false errors, Bool.false_and]
      rw [outcomeOf, incomplete]
      rfl
    · intro snapshot part taken encloses
      obtain rfl := Option.some.inj taken
      rw [sections] at encloses
      rw [encloses] at shown
      exact shown
    · intro snapshot taken encloses
      obtain rfl := Option.some.inj taken
      rw [sections] at encloses
      rw [encloses] at shown
      rw [Bool.eq_false_iff, ne_eq, scan]
      rintro ⟨some, certain, whole⟩
      simp [some, certain, whole] at shown

theorem text_parse_sound (contentValid : content.valid = true) (budgetValid : budget.valid = true) (text : content.text = some contentText) :
    (textRun isWord { lines := (decode content contentText budget).lines, budget }).Sound budget := by
  have contentFits := contentValid
  simp only [SourceRead.valid, Bool.and_eq_true, text, Option.all_some] at contentFits
  obtain ⟨plain, few⟩ := decode_lines content budget (fits_iff.mp contentFits.1.1.1.2).2
  simp only [LoadBudget.valid, Bool.and_eq_true, decide_eq_true_eq] at budgetValid
  exact textRun_sound { lines := (decode content contentText budget).lines, budget } plain (by simp only; omega)

/-! ## Rejections of an interpretation -/

section

variable (isWord : CodePoint → Bool) (originKey : SourceIdentity → Text) (candidate : ProviderCandidate) (content : SourceRead)
  (contentText : Text) (budget : LoadBudget) (sourceFormat : Text)

def textScan : TextState := textRun isWord { lines := (decode content contentText budget).lines, budget }

-- The parse once every call of `reject` is made.
def reportedParse : Parse :=
  outputParse candidate content (decode content contentText budget) sourceFormat
    (readParse isWord originKey candidate content contentText budget sourceFormat)

def clipped : Bool :=
  (decode content contentText budget).limited || (decode content contentText budget).partly ||
    capped (reportedParse isWord originKey candidate content contentText budget sourceFormat)

end

theorem freeParse (isWord : CodePoint → Bool) (originKey : SourceIdentity → Text) (candidate : ProviderCandidate) (content : SourceRead)
    (contentText : Text) (budget : LoadBudget) (free : sourceFormat ≠ str "cue") :
    readParse isWord originKey candidate content contentText budget sourceFormat =
      noteEmpty (noteLimits content (decode content contentText budget) (textScan isWord content contentText budget).finish) := by
  rw [readParse, parseSource, if_neg free]
  rfl

theorem mem_noted {entry : Nat × Text} (member : entry ∈ (noteEmpty (noteLimits content decoded parse)).rejected) (positive : 0 < entry.1) :
    entry ∈ parse.rejected := by
  have later : ∀ (parse : Parse) (reason : Text), entry ∈ (parse.reject 0 reason).rejected → entry ∈ parse.rejected := by
    intro parse reason member
    obtain before | rfl := List.mem_append.mp member |>.imp_right List.mem_singleton.mp
    · exact before
    · cases positive
  have limited : entry ∈ (noteLimits content decoded parse).rejected := by
    rw [noteEmpty] at member
    split at member
    · exact later _ _ member
    · exact member
  rw [noteLimits] at limited
  split at limited
  · exact later _ _ limited
  · exact limited

-- Where every call finds room and the output holds every row, nothing is lost.
theorem few_rejections_are_marked (contentValid : content.valid = true) (budgetValid : budget.valid = true)
    (text : content.text = some contentText) (free : sourceFormat ≠ str "cue")
    (few : (textScan isWord content contentText budget).parse.rejected.length ≤ 64)
    (fits : reportedParse isWord originKey candidate content contentText budget sourceFormat =
      readParse isWord originKey candidate content contentText budget sourceFormat) :
    ∀ entry ∈ (reportedParse isWord originKey candidate content contentText budget sourceFormat).rejected, 0 < entry.1 →
      Marked (textScan isWord content contentText budget)
        (clipped isWord originKey candidate content contentText budget sourceFormat) entry.1 := by
  have sound : (textScan isWord content contentText budget).Sound budget := text_parse_sound contentValid budgetValid text
  intro entry member positive
  rw [fits, freeParse isWord originKey candidate content contentText budget free] at member
  have called : entry ∈ (textScan isWord content contentText budget).finish.rejected := mem_noted member positive
  refine .inl ⟨errorText entry.1 entry.2, ?_, by rw [errorLine_errorText]⟩
  rw [sound.kept.recorded few]
  exact List.mem_map.mpr ⟨entry, called, rfl⟩

-- A text without rows has no complete section.
theorem rowless_sections_incomplete (sound : state.Sound budget) (rowless : state.parse.rows = []) :
    ∀ part ∈ state.finish.sections, part.completeness.state = .incomplete := by
  intro closed member
  obtain ⟨part, present, rfl⟩ := List.mem_map.mp member
  obtain ⟨index, bound, rfl⟩ := List.mem_iff_getElem.mp present
  have extended := (finish_extends state).get ((finish_extends state).length_eq.symm ▸ bound) bound
  have counted := sound.counted _ (List.get_mem state.sections ⟨index, (finish_extends state).length_eq.symm ▸ bound⟩)
  rw [rowless, List.countP_nil] at counted
  exact close_incomplete.mpr (.inr (extended.rowCount.trans counted))

def rowLines : List Text := [str "1. A - B [label: x] [label: y]"]

def doubledText : Text := rowLines.flatMap (· ++ [newline])

def doubledRead : SourceRead := { rowRead with text := some doubledText }

theorem doubled_evaluated :
    (interpret asciiWord smallKey textCandidate doubledRead widestBudget).isOk = true ∧
      (1, str "duplicate_label") ∈ (reportedParse asciiWord smallKey textCandidate doubledRead doubledText widestBudget
        (sourceFormatOf textSource)).rejected ∧
      ∀ entry ∈ (reportedParse asciiWord smallKey textCandidate doubledRead doubledText widestBudget (sourceFormatOf textSource)).rejected,
        0 < entry.1 → Marked (textScan asciiWord doubledRead doubledText widestBudget)
          (clipped asciiWord smallKey textCandidate doubledRead doubledText widestBudget (sourceFormatOf textSource)) entry.1 := by
  decide +kernel

theorem doubled_returns : ∃ outcome, interpret asciiWord smallKey textCandidate doubledRead widestBudget = .ok outcome := by
  have returned := doubled_evaluated.1
  cases result : interpret asciiWord smallKey textCandidate doubledRead widestBudget with
  | error raised =>
    rw [result] at returned
    cases returned
  | ok outcome => exact ⟨outcome, rfl⟩

-- Side numbers fill the list of errors before the row of the second part.
def crowdedLines : List Text :=
  str "Part 1" :: (List.replicate 64 (str "A1. x") ++ [str "Part 2", str "1. A - B [label: x] [label: y]"])

def crowdedText : Text := crowdedLines.flatMap (· ++ [newline])

def crowdedRead : SourceRead := { rowRead with text := some crowdedText }

def secondComplete (outcome : LoadOutcome) : Bool :=
  outcome.snapshot.any fun snapshot => snapshot.sectionScanComplete &&
    (enclosingPart 67 snapshot.sections).any fun part => part.completeness.state = .complete

theorem crowded_evaluated : (interpret asciiWord smallKey textCandidate crowdedRead widestBudget).toOption.any secondComplete = true ∧
    (67, str "duplicate_label") ∈
      (reportedParse asciiWord smallKey textCandidate crowdedRead crowdedText widestBudget (str "txt")).rejected := by
  decide +kernel

end Phaze.Tracklist
