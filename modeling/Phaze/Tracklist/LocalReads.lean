import Phaze.Cue.Reading
import Phaze.Tracklist.LocalOutcome

set_option autoImplicit false

/-!
# Reads of local sources

What `interpret` returns for any text, status and budget that the contract admits.
-/

namespace Phaze.Tracklist

open Phaze.Guards Phaze.Json Phaze.Patterns Phaze.Percent Phaze.Unicode

variable {isWord : CodePoint → Bool} {originKey : SourceIdentity → Text} {candidate : ProviderCandidate} {source : SourceReference}
  {content : SourceRead} {contentText : Text} {budget : LoadBudget}

-- The reads whose text is parsed.
structure Parsed (source : SourceReference) (content : SourceRead) (contentText : Text) : Prop where
  text : content.text = some contentText
  status : content.status = .found ∨ content.status = .incomplete
  format : sourceFormatOf source ∈ sourceFormats

-- Nothing rejected, nothing cut, and nothing left out.
structure Clean (content : SourceRead) (decoded : Decoded) (parse : Parse) (outcome : LoadOutcome) : Prop where
  unrejected : parse.rejected = []
  uncut : content.cut = false ∧ decoded.limited = false
  uncapped : ∃ snapshot, outcome.snapshot = some snapshot ∧ snapshot.tracks = parse.rows.map trackOf
  sections : ∀ part ∈ parse.sections, part.completeness.state = .complete

structure Reported (isWord : CodePoint → Bool) (originKey : SourceIdentity → Text) (candidate : ProviderCandidate)
    (source : SourceReference) (content : SourceRead) (budget : LoadBudget) (outcome : LoadOutcome) : Prop where
  snapshot : ∀ snapshot, outcome.snapshot = some snapshot → snapshot.validate = .ok () ∧ snapshot.tracks.length ≤ budget.maxTracks
  -- The rows that the output has no room for pass their checks as well.
  rows : ∀ contentText, Parsed source content contentText →
    ∀ row ∈ (readParse isWord originKey candidate content contentText budget (sourceFormatOf source)).rows,
      (trackOf row).validate = .ok ()
  found : outcome.status = .found ↔ ∃ contentText, Parsed source content contentText ∧
    Clean content (decode content contentText budget)
      (readParse isWord originKey candidate content contentText budget (sourceFormatOf source)) outcome

theorem readParse_sound (contentValid : content.valid = true) (budgetValid : budget.valid = true) (text : content.text = some contentText)
    (digest : fits 64 (originKey candidate.identity) = true) (sourceFormat : Text) :
    (readParse isWord originKey candidate content contentText budget sourceFormat).Sound budget := by
  have contentFits := contentValid
  simp only [SourceRead.valid, Bool.and_eq_true, text, Option.all_some] at contentFits
  obtain ⟨plain, few⟩ := decode_lines content budget (fits_iff.mp contentFits.1.1.1.2).2
  simp only [LoadBudget.valid, Bool.and_eq_true, decide_eq_true_eq] at budgetValid
  have most : (decode content contentText budget).lines.length ≤ 16384 := by omega
  have parsed : (parseSource isWord originKey candidate (decode content contentText budget) budget sourceFormat).Sound budget := by
    rw [parseSource]
    split
    · exact cue_sound plain most digest
    · exact text_sound plain most
  exact noteEmpty_sound (noteLimits_sound parsed)

theorem outcomeOf_found (content : SourceRead) (parse : Parse) (snapshot : Snapshot) :
    (outcomeOf content parse snapshot).status = .found ↔ completeParse parse = true := by
  rw [outcomeOf]
  cases completeParse parse with
  | true => simp
  | false => simp

theorem noteEmpty_rejected {parse : Parse} (none : (noteEmpty parse).rejected = []) : noteEmpty parse = parse := by
  rw [noteEmpty] at none ⊢
  split
  next empty =>
    rw [if_pos empty, reject_rejected] at none
    simp at none
  · rfl

-- A read without a rejection was taken whole.
theorem readParse_uncut {sourceFormat : Text}
    (none : (readParse isWord originKey candidate content contentText budget sourceFormat).rejected = []) :
    content.cut = false ∧ (decode content contentText budget).limited = false := by
  have limits := noteEmpty_rejected none
  rw [readParse, limits, noteLimits] at none
  split at none
  · simp at none
  next whole => simpa [Bool.or_eq_true, not_or] using whole

theorem laterParse_all {parse : Parse} {count : Nat} (whole : parse.rows.length ≤ count) : laterParse parse count = parse := by
  rw [laterParse, List.getElem?_eq_none whole]
  rfl

theorem reported_parse {outcome : LoadOutcome} (contentValid : content.valid = true) (budgetValid : budget.valid = true)
    (parsed : Parsed source content contentText) (digest : fits 64 (originKey candidate.identity) = true)
    (same : finish candidate content (decode content contentText budget) (sourceFormatOf source)
      (readParse isWord originKey candidate content contentText budget (sourceFormatOf source)) = .ok outcome) :
    Reported isWord originKey candidate source content budget outcome := by
  have sound : (readParse isWord originKey candidate content contentText budget (sourceFormatOf source)).Sound budget :=
    readParse_sound contentValid budgetValid parsed.text digest _
  have text : ∀ other, Parsed source content other → other = contentText := fun other given =>
    Option.some.inj (given.text.symm.trans parsed.text)
  obtain ⟨count, rfl, -, valid⟩ := finish_outcome sound same
  refine ⟨fun snapshot taken => ?_, fun other given row member => ?_, ?_⟩
  · obtain rfl := Option.some.inj taken
    refine ⟨valid, ?_⟩
    show (((readParse isWord originKey candidate content contentText budget (sourceFormatOf source)).rows.take count).map trackOf).length ≤ _
    rw [List.length_map]
    exact (List.length_take_le' _ _).trans sound.kept.few
  · obtain rfl := text other given
    exact (sound.kept.rows row member).track
  · rw [outcomeOf_found, completeParse_iff, laterParse_sections]
    constructor
    · rintro ⟨errors, sections⟩
      obtain ⟨whole, all⟩ := laterParse_errors count errors
      rw [whole] at errors
      have none := sound.kept.noticed.mp errors
      refine ⟨contentText, parsed, none, readParse_uncut none, ⟨_, rfl, ?_⟩, sections⟩
      show List.map trackOf (List.take count _) = _
      rw [List.take_of_length_le all]
    · rintro ⟨other, given, clean⟩
      obtain rfl := text other given
      obtain ⟨snapshot, taken, tracks⟩ := clean.uncapped
      obtain rfl := Option.some.inj taken
      have lengths := congrArg List.length tracks
      have shape : (finalOf candidate content (decode content other budget) (sourceFormatOf source)
          (readParse isWord originKey candidate content other budget (sourceFormatOf source)) count).tracks =
          ((readParse isWord originKey candidate content other budget (sourceFormatOf source)).rows.take count).map trackOf := rfl
      rw [shape, List.length_map, List.length_map, List.length_take] at lengths
      rw [laterParse_all (by omega)]
      exact ⟨sound.kept.noticed.mpr clean.unrejected, clean.sections⟩

theorem readParse_reported (sourceFormat : Text) :
    (readParse isWord originKey candidate content contentText budget sourceFormat).rows = [] →
      (readParse isWord originKey candidate content contentText budget sourceFormat).errors ≠ [] := noteEmpty_reported _

-- Outcomes without a snapshot.
theorem bare_ok {outcome : LoadOutcome}
    (fields : (fits 4096 outcome.code && fits 4096 outcome.scope && fits 4096 outcome.detail && evidenceFits outcome.evidence) = true)
    (bare : outcome.snapshot = none) (status : outcome.status ≠ .found) : LoadOutcome.build outcome = .ok outcome := by
  apply build_ok fields
  · rw [bare]
    rfl
  · simp [LoadOutcome.validateFound, bare, status, bind_require]

theorem reported_bare {outcome : LoadOutcome} (bare : outcome.snapshot = none) (status : outcome.status ≠ .found)
    (unparsed : ∀ contentText, ¬ Parsed source content contentText) :
    Reported isWord originKey candidate source content budget outcome :=
  { snapshot := by
      intro snapshot taken
      rw [bare] at taken
      cases taken
    rows := fun contentText parsed => absurd parsed (unparsed contentText)
    found := ⟨fun found => absurd found status, fun clean => clean.elim fun contentText both => absurd both.1 (unparsed contentText)⟩ }

-- The contract's reads, whatever the parse makes of them.
theorem local_sources_are_read (isWord : CodePoint → Bool) (originKey : SourceIdentity → Text) (candidate : ProviderCandidate)
    (source : SourceReference) (content : SourceRead) (budget : LoadBudget) (candidateValid : candidate.valid = true)
    (contentValid : content.valid = true) (budgetValid : budget.valid = true) (sourced : candidate.source = some source)
    (digest : fits 64 (originKey candidate.identity) = true) :
    (∃ outcome, interpret isWord originKey candidate content budget = .ok outcome ∧
        Reported isWord originKey candidate source content budget outcome) ↔
      ∀ contentText, Parsed source content contentText →
        Compact candidate content (decode content contentText budget) (sourceFormatOf source)
          (readParse isWord originKey candidate content contentText budget (sourceFormatOf source)) := by
  have atMost : budget.maxTracks ≤ 4096 := by
    simp only [LoadBudget.valid, Bool.and_eq_true, decide_eq_true_eq] at budgetValid
    exact budgetValid.2
  have whole : ∀ contentText, Parsed source content contentText →
      interpret isWord originKey candidate content budget =
        finish candidate content (decode content contentText budget) (sourceFormatOf source)
          (readParse isWord originKey candidate content contentText budget (sourceFormatOf source)) ∧
      ((∃ outcome, finish candidate content (decode content contentText budget) (sourceFormatOf source)
          (readParse isWord originKey candidate content contentText budget (sourceFormatOf source)) = .ok outcome) ↔
        Compact candidate content (decode content contentText budget) (sourceFormatOf source)
          (readParse isWord originKey candidate content contentText budget (sourceFormatOf source))) := by
    intro contentText parsed
    have given : Given candidate content (decode content contentText budget) (sourceFormatOf source) :=
      given_of candidateValid contentValid parsed.text parsed.format
    refine ⟨interpret_parsed candidateValid contentValid budgetValid sourced parsed.text parsed.status parsed.format, ?_⟩
    exact finish_iff given (readParse_sound contentValid budgetValid parsed.text digest _) atMost (readParse_reported _)
  constructor
  · rintro ⟨outcome, same, -⟩ contentText parsed
    obtain ⟨read, iff⟩ := whole contentText parsed
    exact iff.mp ⟨outcome, read.symm.trans same⟩
  · intro compact
    by_cases parsed : ∃ contentText, Parsed source content contentText
    · obtain ⟨contentText, parsed⟩ := parsed
      obtain ⟨read, iff⟩ := whole contentText parsed
      obtain ⟨outcome, same⟩ := iff.mpr (compact contentText parsed)
      exact ⟨outcome, read.trans same, reported_parse contentValid budgetValid parsed digest same⟩
    · have unparsed : ∀ contentText, ¬ Parsed source content contentText := fun contentText given => parsed ⟨contentText, given⟩
      have contentFits := contentValid
      simp only [SourceRead.valid, Bool.and_eq_true] at contentFits
      obtain ⟨⟨⟨⟨⟨⟨code, scope⟩, evidence⟩, -⟩, -⟩, -⟩, -⟩ := contentFits
      rw [interpret]
      simp only [candidateValid, contentValid, budgetValid, require, if_true, bind, Except.bind, sourced]
      cases text : content.text with
      | none =>
        dsimp only
        split
        · refine ⟨_, bare_ok ?_ rfl (by simp), reported_bare rfl (by simp) unparsed⟩
          simp only [Bool.and_eq_true]
          exact ⟨⟨⟨by decide, scope⟩, rfl⟩, rfl⟩
        next other =>
          refine ⟨_, bare_ok ?_ rfl other, reported_bare rfl other unparsed⟩
          simp only [Bool.and_eq_true]
          exact ⟨⟨⟨code, scope⟩, rfl⟩, evidence⟩
      | some contentText =>
        dsimp only
        split
        next other =>
          refine ⟨_, bare_ok ?_ rfl other.1, reported_bare rfl other.1 unparsed⟩
          simp only [Bool.and_eq_true]
          exact ⟨⟨⟨code, scope⟩, rfl⟩, evidence⟩
        next read =>
          split
          · refine ⟨_, bare_ok ?_ rfl (by simp), reported_bare rfl (by simp) unparsed⟩
            simp only [Bool.and_eq_true]
            exact ⟨⟨⟨by decide, scope⟩, rfl⟩, rfl⟩
          next format =>
            have status : content.status = .found ∨ content.status = .incomplete := by
              by_contra neither
              exact read (not_or.mp neither)
            exact absurd ⟨text, status, not_not.mp format⟩ (unparsed contentText)

/-! ## Rows of two parts -/

def smallIdentity : SourceIdentity := { providerId := str "local", nativeId := str "x" }

def textSource : SourceReference := { identity := smallIdentity, format := str "txt" }

def textCandidate : ProviderCandidate := { identity := smallIdentity, source := some textSource }

def widestBudget : LoadBudget := { maxBytes := 1048576, maxCharacters := 524288, maxLines := 16384, maxTracks := 4096 }

-- The digest of the identity.
def smallKey : SourceIdentity → Text := fun _ => str "7067a788f37ebc7476ccd99fc63575561d2745392a4a8e5c1d6ab22f89ecb96e"

def rowRead : SourceRead :=
  { status := .found, code := str "read", scope := str "x", text := some (str "1. A - B\n"), retrievedAt := str "2024-01-01T00:00:00Z" }

-- The numbers of the second part start again at 1.
def partsText : Text :=
  [str "Part 1", str "1. A - B", str "2. C - D", str "Part 2", str "1. E - F", str "2. G - H"].flatMap (· ++ [newline])

def partsRead : SourceRead := { rowRead with text := some partsText }

def placesOf (snapshot : Snapshot) : List (Int × Option Nat) :=
  snapshot.tracks.map fun track => (track.position, track.sectionOrdinal)

def numberedParts (outcome : LoadOutcome) : Bool :=
  outcome.status = .found && outcome.snapshot.any fun snapshot =>
    placesOf snapshot = [(1, some 1), (2, some 1), (3, some 2), (4, some 2)]

-- One evaluation of the text for all that is needed of it.
theorem parts_evaluated :
    (baseSnapshot textCandidate partsRead (decode partsRead partsText widestBudget) (sourceFormatOf textSource)
        (readParse asciiWord smallKey textCandidate partsRead partsText widestBudget (sourceFormatOf textSource))).dumpLength +
      4096 ≤ outputCap ∧
      (∀ row ∈ (readParse asciiWord smallKey textCandidate partsRead partsText widestBudget (sourceFormatOf textSource)).rows.head?,
        (trackOf row).dumpLength < 4096) ∧
      (interpret asciiWord smallKey textCandidate partsRead widestBudget).toOption.any numberedParts = true := by
  decide +kernel

-- Room for a row, on lengths that are not to be evaluated.
theorem fits_of_room {base row : Nat} (wide : base + 4096 ≤ outputCap) (short : row < 4096) : ¬ outputCap < base + row + 1 := by
  omega

theorem small_of_room {base : Nat} (wide : base + 4096 ≤ outputCap) : base ≤ 4 * 1024 * 1024 := by
  rw [outputCap] at wide
  omega

theorem parts_compact (contentText : Text) (parsed : Parsed textSource partsRead contentText) :
    Compact textCandidate partsRead (decode partsRead contentText widestBudget) (sourceFormatOf textSource)
      (readParse asciiWord smallKey textCandidate partsRead contentText widestBudget (sourceFormatOf textSource)) := by
  obtain rfl : partsText = contentText := Option.some.inj parsed.text
  obtain ⟨wide, short, -⟩ := parts_evaluated
  exact ⟨small_of_room wide, fun row member full => absurd full (fits_of_room wide (short row member))⟩

theorem numbered_parts_are_read : ∃ outcome, interpret asciiWord smallKey textCandidate partsRead widestBudget = .ok outcome ∧
    Reported asciiWord smallKey textCandidate textSource partsRead widestBudget outcome ∧ numberedParts outcome = true := by
  have exactly := local_sources_are_read asciiWord smallKey textCandidate textSource partsRead widestBudget (by decide +kernel)
    (by decide +kernel) (by decide) rfl (by decide +kernel)
  obtain ⟨outcome, returned, reported⟩ := exactly.mpr parts_compact
  have read := parts_evaluated.2.2
  rw [returned] at read
  exact ⟨outcome, returned, reported, read⟩

/-! ## A text of headings -/

-- Escapes make the title of every section six times as long, beside the text and the evidence.
def heavyLine : Text := str "cd1 " ++ List.replicate 56 (.scalar '\x01')

def heavyText : Text := (List.replicate 4096 heavyLine).flatMap (· ++ [newline])

def heavyRead : SourceRead :=
  { status := .found, code := str "read", scope := str "x", evidence := List.replicate 64 (List.replicate 4096 (.scalar '\x01'))
    text := some heavyText, retrievedAt := str "2024-01-01T00:00:00Z" }

def headings (context : TextContext) : Prop := context.budget.maxTracks = 4096 ∧ ∀ index < 4096, context.lines.getD index [] = heavyLine

theorem heavyLine_kind {context : TextContext} (heavy : headings context) {index : Nat} (inside : index < 4096) (explicitHeading : Bool) :
    lineKind asciiWord context false explicitHeading index heavyLine = .declared heavyLine := by
  have noted : noteLine heavyLine = heavyLine := by decide +kernel
  have unframed : startsWith (lstrip heavyLine) "/" = false := by decide +kernel
  have plain : (fullmatch asciiWord decoration heavyLine).isSome = false := by decide +kernel
  have notHeading : heading asciiWord heavyLine = false := by decide +kernel
  have part : (fullmatch asciiWord sectionPattern heavyLine).isSome = true := by decide +kernel
  have filled : heavyLine ≠ [] ∧ ¬ heavyLine.length > 4096 := by decide +kernel
  have frame : exportFrame asciiWord context.lines index = false := by
    rw [exportFrame, heavy.2 index inside, unframed]
    rfl
  rw [lineKind]
  simp only [frame, noted, filled.1, plain, filled.2, notHeading, part, Bool.false_eq_true, decide_false, Bool.or_self, if_false,
    Bool.true_or, if_true]

-- As many sections as lines, each with the whole line as its title.
structure Headings (count : Nat) (state : TextState) : Prop where
  going : state.stopped = false
  unframed : state.headerFrame = false
  rows : state.parse.rows = []
  evidence : state.parse.evidence = []
  errors : state.parse.errors = []
  sections : state.sections.length = count
  titled : ∀ part ∈ state.sections, part.title = some heavyLine ∧ part.declared = true

theorem headings_step {context : TextContext} (heavy : headings context) {index : Nat} (inside : index < 4096) {state : TextState}
    (held : Headings index state) : Headings (index + 1) (textStep asciiWord context state (heavyLine, index)) := by
  have room : ¬ state.sections.length ≥ min context.budget.maxTracks sectionCap := by
    rw [held.sections, heavy.1, sectionCap]
    omega
  have kept : (state.current.any fun part => !part.used && !part.declared) = false := by
    rw [TextState.current]
    cases last : state.sections.getLast? with
    | none => rfl
    | some part => simp [(held.titled part (List.mem_of_getLast? last)).2]
  rw [textStep, held.going, held.unframed]
  simp only [Bool.false_eq_true, if_false]
  rw [heavyLine_kind heavy inside, TextState.take, TextState.declared, kept]
  simp only [Bool.false_eq_true, if_false]
  rw [TextState.begin, if_neg room]
  refine ⟨held.going, held.unframed, held.rows, held.evidence, held.errors, ?_, ?_⟩
  · simp [TextState.onSection, length_modifyLast, held.sections]
  · intro part member
    rw [TextState.onSection] at member
    simp only [List.modifyLast_concat] at member
    obtain earlier | last := List.mem_append.mp member
    · exact held.titled part earlier
    · rw [List.mem_singleton.mp last]
      exact ⟨rfl, rfl⟩

theorem headings_run {context : TextContext} (heavy : headings context) (count start : Nat) (inside : start + count ≤ 4096)
    {state : TextState} (held : Headings start state) :
    Headings (start + count) (((List.replicate count heavyLine).zipIdx start).foldl (textStep asciiWord context) state) := by
  induction count generalizing start state with
  | zero => exact held
  | succ count ih =>
    have next := headings_step heavy (by omega) held
    have later := ih (start + 1) (by omega) next
    have sum : start + 1 + count = start + (count + 1) := by omega
    rw [List.replicate_succ, List.zipIdx_cons, List.foldl_cons]
    exact sum ▸ later

theorem listLength_ge (values : List Value) : (values.map Value.length).sum ≤ listLength values := by
  induction values with
  | nil => exact Nat.le_refl 0
  | cons value rest ih =>
    rw [List.map_cons, List.sum_cons, listLength_cons]
    omega

theorem dumpLength_ge (snapshot : Snapshot) :
    (Json.optional snapshot.text).length + (snapshot.sections.map fun part => (Json.optional part.title).length).sum +
      (texts snapshot.provenance).length ≤ snapshot.dumpLength := by
  have parts : (snapshot.sections.map fun part => (Json.optional part.title).length).sum ≤
      listLength (snapshot.sections.map TrackSection.json) := by
    refine le_trans ?_ (listLength_ge _)
    rw [List.map_map]
    apply List.sum_le_sum
    intro part _
    simp only [Function.comp_apply, TrackSection.json, length_record, recordLength_cons]
    omega
  simp only [Snapshot.dumpLength, Snapshot.json, length_record, recordLength_cons, Value.length]
  omega

theorem textLength_replicate (count : Nat) (point : CodePoint) : textLength (List.replicate count point) = count * pointLength point + 2 := by
  rw [textLength, List.map_replicate, List.sum_replicate, smul_eq_mul]

theorem textLength_joined (count : Nat) (line : Text) :
    textLength ((List.replicate count line).flatMap (· ++ [newline])) = count * textLength line + 2 := by
  induction count with
  | zero => simp [textLength]
  | succ count ih =>
    have feed : textLength [newline] = 4 := by decide
    have first := textLength_append (line ++ [newline]) ((List.replicate count line).flatMap (· ++ [newline]))
    have second := textLength_append line [newline]
    rw [List.replicate_succ, List.flatMap_cons]
    rw [Nat.succ_mul]
    omega

theorem heavyText_length : heavyText.length = 249856 := by
  have line : heavyLine.length = 60 := by decide
  have each : ∀ count, ((List.replicate count heavyLine).flatMap (· ++ [newline])).length = count * 61 := by
    intro count
    induction count with
    | zero => rfl
    | succ count ih =>
      rw [List.replicate_succ, List.flatMap_cons, List.length_append, ih, List.length_append, line, List.length_singleton]
      omega
  rw [heavyText, each]

theorem mem_heavyText {point : CodePoint} (member : point ∈ heavyText) : point ∈ heavyLine ∨ point = newline := by
  obtain ⟨line, inside, here⟩ := List.mem_flatMap.mp member
  rw [List.eq_of_mem_replicate inside] at here
  obtain first | last := List.mem_append.mp here
  · exact .inl first
  · exact .inr (List.mem_singleton.mp last)

theorem heavyText_narrow : utf8Length heavyText = 249856 := by
  have narrow : ∀ point ∈ heavyLine, utf8Size point = 1 := by decide
  have all : heavyText.map utf8Size = List.replicate heavyText.length 1 := by
    rw [List.eq_replicate_iff, List.length_map]
    refine ⟨rfl, fun size member => ?_⟩
    obtain ⟨point, inside, rfl⟩ := List.mem_map.mp member
    obtain first | feed := mem_heavyText inside
    · exact narrow point first
    · rw [feed]
      decide
  rw [utf8Length, all, List.sum_replicate, heavyText_length, smul_eq_mul]

theorem heavy_decoded : (decode heavyRead heavyText widestBudget).text = heavyText ∧
    (decode heavyRead heavyText widestBudget).lines = List.replicate 4096 heavyLine ∧
    (decode heavyRead heavyText widestBudget).limited = false := by
  have short : heavyText.take 524288 = heavyText := List.take_of_length_le (by rw [heavyText_length]; omega)
  have unmarked : removeMark heavyText = heavyText := by
    have split : heavyText = heavyLine ++ ([newline] ++ (List.replicate 4095 heavyLine).flatMap (· ++ [newline])) := by
      rw [heavyText, List.replicate_succ, List.flatMap_cons, List.append_assoc]
    have first : heavyLine = .scalar 'c' :: heavyLine.tail := by decide
    have other : CodePoint.scalar 'c' ≠ byteOrderMark := by decide
    rw [split, first, List.cons_append, removeMark, if_neg other]
  have lines : splitlines heavyText = List.replicate 4096 heavyLine := by
    have unbroken : Unbroken heavyLine := by
      show ∀ point ∈ heavyLine, isLineBreak point = false
      decide
    have filled : heavyLine ≠ [] := by decide
    exact splitlines_joined (fun line member => List.eq_of_mem_replicate member ▸ unbroken) fun line member =>
      List.eq_of_mem_replicate member ▸ filled
  have counts : ¬ heavyText.length > 524288 ∧ ¬ utf8Length heavyText > 1048576 := by
    rw [heavyText_length, heavyText_narrow]
    omega
  have whole : SourceRead.cut heavyRead = false ∧ ¬ heavyRead.bytesRead > 1048576 := by decide
  have few : (List.replicate 4096 heavyLine).take 16384 = List.replicate 4096 heavyLine :=
    List.take_of_length_le (by rw [List.length_replicate]; omega)
  simp only [decode, widestBudget, short, counts.1, counts.2, whole.1, whole.2, unmarked, lines, decide_false, Bool.or_self,
    Bool.false_and, Bool.false_eq_true, if_false, few, List.length_replicate]
  decide

theorem heavyText_fits : fits 262144 heavyText = true := by
  have plainLine : ∀ point ∈ heavyLine, CodePoint.isScalar point = true := by decide
  rw [fits_iff, heavyText_length]
  refine ⟨by omega, fun point member => ?_⟩
  obtain first | feed := mem_heavyText member
  · exact plainLine point first
  · rw [feed]
    rfl

def heavyEvidence : List Text := List.replicate 64 (List.replicate 4096 (.scalar '\x01'))

theorem heavyEvidence_fits : evidenceFits heavyEvidence = true := by
  rw [heavyEvidence, evidenceFits_iff, List.length_replicate]
  refine ⟨Nat.le_refl 64, fun text member => ?_⟩
  rw [List.eq_of_mem_replicate member, fits_iff, List.length_replicate]
  exact ⟨Nat.le_refl 4096, fun point inside => List.eq_of_mem_replicate inside ▸ rfl⟩

theorem heavyRead_valid : heavyRead.valid = true := by
  have words : fits 4096 heavyRead.code = true ∧ fits 4096 heavyRead.scope = true := by decide
  have evidence : heavyRead.evidence = heavyEvidence := rfl
  have text : heavyRead.text = some heavyText := rfl
  have rest : heavyRead.encoding = none ∧ heavyRead.revision = none ∧ heavyRead.bytesRead = 0 := ⟨rfl, rfl, rfl⟩
  rw [SourceRead.valid, words.1, words.2, evidence, heavyEvidence_fits, text, Option.all_some, heavyText_fits, rest.1, rest.2.1, rest.2.2]
  decide

theorem heavy_parsed : parseSource asciiWord smallKey textCandidate (decode heavyRead heavyText widestBudget) widestBudget (str "txt") =
    (textRun asciiWord { lines := List.replicate 4096 heavyLine, budget := widestBudget }).finish := by
  have other : str "txt" ≠ str "cue" := by decide
  rw [parseSource, if_neg other, heavy_decoded.2.1]
  rfl

theorem heavy_run : Headings 4096 (textRun asciiWord { lines := List.replicate 4096 heavyLine, budget := widestBudget }) := by
  have heavy : headings { lines := List.replicate 4096 heavyLine, budget := widestBudget } := by
    refine ⟨rfl, fun index inside => ?_⟩
    rw [List.getD_eq_getElem _ _ (by rw [List.length_replicate]; exact inside), List.getElem_replicate]
  have empty : Headings 0 {} :=
    { going := rfl, unframed := rfl, rows := rfl, evidence := rfl, errors := rfl, sections := rfl
      titled := fun _ member => absurd member List.not_mem_nil }
  have steps := headings_run heavy 4096 0 (by omega) empty
  rwa [Nat.zero_add] at steps

theorem heavy_read : interpret asciiWord smallKey textCandidate heavyRead widestBudget =
    finish textCandidate heavyRead (decode heavyRead heavyText widestBudget) (sourceFormatOf textSource)
      (readParse asciiWord smallKey textCandidate heavyRead heavyText widestBudget (sourceFormatOf textSource)) := by
  have candidate : textCandidate.valid = true := by decide +kernel
  have budget : widestBudget.valid = true := by decide
  have format : sourceFormatOf textSource ∈ sourceFormats := by decide +kernel
  exact interpret_parsed candidate heavyRead_valid budget rfl rfl (.inl rfl) format

theorem finish_titles {count : Nat} {state : TextState} (held : Headings count state) :
    state.finish.sections.map TrackSection.title = List.replicate count (some heavyLine) := by
  have unattached : attachAll state.parse.errors state.sections = (state.sections, false) := by
    rw [held.errors]
    rfl
  rw [TextState.finish, unattached]
  simp only [List.map_map]
  rw [List.eq_replicate_iff, List.length_map]
  refine ⟨held.sections, fun title member => ?_⟩
  obtain ⟨part, inside, rfl⟩ := List.mem_map.mp member
  exact (held.titled part inside).1

theorem heavy_weight : (texts heavyEvidence).length = 1573057 := by
  have point : pointLength (.scalar '\x01') = 6 := by decide
  have length := length_texts heavyEvidence
  have filled : heavyEvidence ≠ [] := by
    rw [heavyEvidence]
    exact List.ne_nil_of_length_pos (by rw [List.length_replicate]; omega)
  have sum : jsonWeight heavyEvidence = 64 * (4096 * 6 + 2 + 1) := by
    rw [jsonWeight, heavyEvidence, List.map_replicate, List.sum_replicate, textLength_replicate, point, smul_eq_mul]
  rw [if_neg filled, sum] at length
  omega

-- The text, the titles and the evidence exceed the limit together.
theorem heavy_base (parse : Parse) (titles : parse.sections.map TrackSection.title = List.replicate 4096 (some heavyLine))
    (evidence : parse.evidence = []) :
    4 * 1024 * 1024 < (baseSnapshot textCandidate heavyRead (decode heavyRead heavyText widestBudget) (str "txt") parse).dumpLength := by
  have bound := dumpLength_ge (baseSnapshot textCandidate heavyRead (decode heavyRead heavyText widestBudget) (str "txt") parse)
  have line : textLength heavyLine = 342 := by decide
  have text : (baseSnapshot textCandidate heavyRead (decode heavyRead heavyText widestBudget) (str "txt") parse).text = some heavyText :=
    congrArg some heavy_decoded.1
  have provenance : (baseSnapshot textCandidate heavyRead (decode heavyRead heavyText widestBudget) (str "txt") parse).provenance =
      heavyEvidence := by
    have given : heavyRead.evidence = heavyEvidence := rfl
    have shape : (baseSnapshot textCandidate heavyRead (decode heavyRead heavyText widestBudget) (str "txt") parse).provenance =
        boundedEvidence (heavyRead.evidence ++ parse.evidence) := rfl
    rw [shape, evidence, List.append_nil, given, boundedEvidence, heavyEvidence, List.take_replicate, List.map_replicate,
      List.take_replicate, Nat.min_self, Nat.min_self]
  have sections : ((baseSnapshot textCandidate heavyRead (decode heavyRead heavyText widestBudget) (str "txt") parse).sections.map fun part =>
      (Json.optional part.title).length).sum = 4096 * 342 := by
    have shape : (parse.sections.map fun part => (Json.optional part.title).length) =
        (parse.sections.map TrackSection.title).map fun title => (Json.optional title).length := by
      rw [List.map_map]
      rfl
    show (parse.sections.map fun part => (Json.optional part.title).length).sum = _
    rw [shape, titles, List.map_replicate, List.sum_replicate, smul_eq_mul]
    exact congrArg (4096 * ·) line
  have whole : (Json.optional (some heavyText)).length = 4096 * 342 + 2 := by
    show textLength heavyText = _
    rw [heavyText, textLength_joined, line]
  rw [text, whole, sections, provenance, heavy_weight] at bound
  omega

theorem heavy_notes : readParse asciiWord smallKey textCandidate heavyRead heavyText widestBudget (str "txt") =
    noteEmpty (textRun asciiWord { lines := List.replicate 4096 heavyLine, budget := widestBudget }).finish := by
  have uncut : SourceRead.cut heavyRead = false := by decide
  rw [readParse, heavy_parsed, noteLimits, uncut, heavy_decoded.2.2, Bool.or_self, if_neg Bool.false_ne_true]

theorem finish_evidence (state : TextState) : state.finish.evidence = state.parse.evidence := rfl

theorem noteEmpty_fields (parse : Parse) : (noteEmpty parse).sections = parse.sections ∧ (noteEmpty parse).evidence = parse.evidence := by
  rw [noteEmpty]
  split
  · exact ⟨rfl, rfl⟩
  · exact ⟨rfl, rfl⟩

theorem finish_large {candidate : ProviderCandidate} {content : SourceRead} {decoded : Decoded} {sourceFormat : Text} {parse : Parse}
    (large : 4 * 1024 * 1024 < (baseSnapshot candidate content decoded sourceFormat parse).dumpLength) (outcome : LoadOutcome) :
    finish candidate content decoded sourceFormat parse ≠ .ok outcome := by
  intro same
  rw [finish, bind_ok] at same
  obtain ⟨⟨⟩, base, -⟩ := same
  have small := validate_small base
  omega

-- Sections and escapes are not counted before the first snapshot is built.
theorem escaped_headings_raise : ¬ ∃ outcome, interpret asciiWord smallKey textCandidate heavyRead widestBudget = .ok outcome := by
  have format : sourceFormatOf textSource = str "txt" := by decide +kernel
  have large := heavy_base (noteEmpty (textRun asciiWord { lines := List.replicate 4096 heavyLine, budget := widestBudget }).finish)
    (by rw [(noteEmpty_fields _).1, finish_titles heavy_run]) (by rw [(noteEmpty_fields _).2, finish_evidence, heavy_run.evidence])
  rw [← heavy_notes, ← format] at large
  rw [heavy_read]
  exact fun found => found.elim fun outcome same => finish_large large outcome same

end Phaze.Tracklist
