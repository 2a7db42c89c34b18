import Phaze.Tracklist.TextSound

set_option autoImplicit false

/-!
# Runs over free text

Every line keeps the sections numbered, their rows counted and the rows within the checks of a track.
-/

namespace Phaze.Tracklist

open Phaze.Guards Phaze.Percent Phaze.Unicode Phaze.Patterns

/-! ## The last of a list -/

section

variable {Item Part : Type}

theorem mem_modifyLast {change : Item → Item} {items : List Item} {item : Item} (member : item ∈ items.modifyLast change) :
    item ∈ items ∨ ∃ old ∈ items, item = change old := by
  obtain rfl | ⟨before, last, rfl⟩ := items.eq_nil_or_concat'
  · exact .inl member
  · rw [List.modifyLast_concat] at member
    obtain earlier | final := List.mem_append.mp member
    · exact .inl (List.mem_append_left _ earlier)
    · exact .inr ⟨last, by simp, List.mem_singleton.mp final⟩

theorem map_modifyLast {change : Item → Item} {part : Item → Part} (same : ∀ item, part (change item) = part item) (items : List Item) :
    (items.modifyLast change).map part = items.map part := by
  obtain rfl | ⟨before, last, rfl⟩ := items.eq_nil_or_concat'
  · rfl
  · rw [List.modifyLast_concat, List.map_append, List.map_append, List.map_singleton, List.map_singleton, same]

theorem length_modifyLast (change : Item → Item) (items : List Item) : (items.modifyLast change).length = items.length := by
  have unchanged : ∀ item : Item, (fun _ => () : Item → Unit) (change item) = () := fun _ => rfl
  have same : ((items.modifyLast change).map fun _ => ()) = items.map fun _ => () := map_modifyLast unchanged items
  have lengths := congrArg List.length same
  rwa [List.length_map, List.length_map] at lengths

end

/-! ## Sections under way -/

structure TextSection.Sound (part : TextSection) : Prop where
  ordinal : 0 < part.ordinal ∧ part.ordinal ≤ 4096
  title : part.title.all (fits 4096) = true
  line : part.line < 10 ^ 5
  errors : AllPlain part.errors
  warnings : AllPlain part.warnings

-- A change of a section that leaves its ordinal and its rows alone.
structure Notes (change : TextSection → TextSection) : Prop where
  ordinal : ∀ part, (change part).ordinal = part.ordinal
  count : ∀ part, (change part).rowCount = part.rowCount
  sound : ∀ part, part.Sound → (change part).Sound

def belongs (ordinal : Nat) (row : Row) : Bool := decide (row.sectionOrdinal = some ordinal)

structure TextState.Sound (budget : LoadBudget) (state : TextState) : Prop where
  kept : state.parse.Kept budget
  unqualified : ∀ row ∈ state.parse.rows, ∀ timestamp, row.timestamp = some timestamp → timestamp.offset = none
  ordinals : state.sections.map TextSection.ordinal = List.range' 1 state.sections.length
  few : state.sections.length ≤ 4096
  parts : ∀ part ∈ state.sections, part.Sound
  named : ∀ row ∈ state.parse.rows, ∃ ordinal, row.sectionOrdinal = some ordinal ∧ 0 < ordinal ∧ ordinal ≤ state.sections.length
  counted : ∀ part ∈ state.sections, part.rowCount = state.parse.rows.countP (belongs part.ordinal)
  pending : ∀ title line, state.pendingTitle = some (title, line) → fits 4096 title = true ∧ line < 10 ^ 5

variable {isWord : CodePoint → Bool} {budget : LoadBudget} {state : TextState} {line : Nat}

theorem TextState.Sound.initial : TextState.Sound budget {} :=
  { kept := Parse.Kept.initial
    unqualified := fun _ member => absurd member List.not_mem_nil
    ordinals := rfl
    few := Nat.zero_le _
    parts := fun _ member => absurd member List.not_mem_nil
    named := fun _ member => absurd member List.not_mem_nil
    counted := fun _ member => absurd member List.not_mem_nil
    pending := fun _ _ same => by cases same }

theorem TextState.Sound.reject {reason : Text} (sound : state.Sound budget) (line : Nat) (plain : Plain reason) :
    (state.reject line reason).Sound budget := { sound with kept := sound.kept.reject plain }

theorem TextState.Sound.rejectAll {reasons : List Text} (sound : state.Sound budget) (line : Nat) (plain : AllPlain reasons) :
    (state.rejectAll line reasons).Sound budget := by
  induction reasons generalizing state with
  | nil => exact sound
  | cons reason rest ih =>
    have next := sound.reject line (plain reason List.mem_cons_self)
    exact ih next fun other member => plain other (List.mem_cons_of_mem _ member)

theorem TextState.Sound.onSection {change : TextSection → TextSection} (sound : state.Sound budget) (notes : Notes change) :
    (state.onSection change).Sound budget := by
  have length : (state.onSection change).sections.length = state.sections.length := length_modifyLast change state.sections
  exact
    { sound with
      ordinals := by
        rw [length, ← sound.ordinals]
        exact map_modifyLast notes.ordinal state.sections
      few := length ▸ sound.few
      parts := by
        intro part member
        obtain present | ⟨old, present, rfl⟩ := mem_modifyLast member
        · exact sound.parts part present
        · exact notes.sound old (sound.parts old present)
      named := length ▸ sound.named
      counted := by
        intro part member
        obtain present | ⟨old, present, rfl⟩ := mem_modifyLast member
        · exact sound.counted part present
        · rw [notes.count, notes.ordinal]
          exact sound.counted old present }

theorem notes_errors {errors : List Text} (plain : AllPlain errors) : Notes fun part => { part with errors := part.errors ++ errors } :=
  { ordinal := fun _ => rfl, count := fun _ => rfl, sound := fun _ part => { part with errors := part.errors.append plain } }

theorem notes_warnings {warnings : List Text} (plain : AllPlain warnings) :
    Notes fun part => { part with warnings := part.warnings ++ warnings } :=
  { ordinal := fun _ => rfl, count := fun _ => rfl, sound := fun _ part => { part with warnings := part.warnings.append plain } }

theorem notes_take (number : Nat) : Notes (TextSection.take · number) :=
  { ordinal := fun _ => rfl, count := fun _ => rfl, sound := fun _ part => { part with } }

theorem TextState.Sound.fail (sound : state.Sound budget) (line : Nat) (reason : String) : (state.fail line reason).Sound budget :=
  (sound.reject line (plain_str reason)).onSection (notes_errors (plain_errorText (plain_str reason)).single)

theorem TextState.Sound.exclude (sound : state.Sound budget) (line : Nat) (reason : String) : (state.exclude line reason).Sound budget :=
  { sound with
    kept := { sound.kept with evidence := sound.kept.evidence.append (plain_errorText (plain_str reason)).single } }

/-! ## Sections begin and go -/

theorem TextState.Sound.begin {title : Option Text} (sound : state.Sound budget) (fit : title.all (fits 4096) = true)
    (small : line < 10 ^ 5) : (state.begin budget title line).Sound budget := by
  rw [TextState.begin]
  split
  · exact sound.reject line (plain_str _)
  next room =>
    have few : state.sections.length + 1 ≤ 4096 := by
      rw [sectionCap] at room
      omega
    have absent : state.parse.rows.countP (belongs (state.sections.length + 1)) = 0 := by
      rw [List.countP_eq_zero]
      intro row member belonging
      obtain ⟨ordinal, named, -, bound⟩ := sound.named row member
      have same : some ordinal = some (state.sections.length + 1) := named.symm.trans (of_decide_eq_true belonging)
      have equal := Option.some.inj same
      omega
    exact
      { sound with
        ordinals := by
          rw [List.map_append, sound.ordinals, List.length_append, List.length_singleton, List.range'_1_concat, List.map_singleton,
            Nat.add_comm 1]
        few := by simpa using few
        parts := by
          intro part member
          obtain earlier | last := List.mem_append.mp member
          · exact sound.parts part earlier
          · rw [List.mem_singleton.mp last]
            exact { ordinal := ⟨Nat.succ_pos _, few⟩, title := fit, line := small, errors := allPlain_nil, warnings := allPlain_nil }
        named := by
          intro row member
          obtain ⟨ordinal, named, positive, bound⟩ := sound.named row member
          exact ⟨ordinal, named, positive, by simp; omega⟩
        counted := by
          intro part member
          obtain earlier | last := List.mem_append.mp member
          · exact sound.counted part earlier
          · rw [List.mem_singleton.mp last]
            exact absent.symm }

theorem TextState.Sound.untitled (sound : state.Sound budget) : TextState.Sound budget { state with pendingTitle := none } :=
  { sound with pending := fun _ _ same => by cases same }

theorem TextState.Sound.beginPending {title : Option Text} (sound : state.Sound budget) (fit : title.all (fits 4096) = true)
    (small : line < 10 ^ 5) : (state.beginPending budget title line).Sound budget := by
  rw [TextState.beginPending]
  split
  next pending place same =>
    have held := sound.pending pending place same
    exact (sound.begin (by simpa using held.1) held.2).untitled
  · exact (sound.begin fit small).untitled

theorem TextState.Sound.last {before : List TextSection} {part : TextSection} (sound : state.Sound budget)
    (sections : state.sections = before ++ [part]) :
    before.map TextSection.ordinal = List.range' 1 before.length ∧ part.ordinal = before.length + 1 := by
  have ordinals := sound.ordinals
  rw [sections, List.map_append, List.length_append, List.length_singleton, List.range'_1_concat, List.map_singleton] at ordinals
  obtain ⟨front, back⟩ := List.append_inj' ordinals rfl
  exact ⟨front, (List.singleton_inj.mp back).trans (Nat.add_comm _ _)⟩

-- A section without rows can go.
theorem TextState.Sound.pop {before : List TextSection} {part : TextSection} (sound : state.Sound budget)
    (sections : state.sections = before ++ [part]) (unused : part.rowCount = 0) :
    TextState.Sound budget { state with sections := before } := by
  obtain ⟨front, back⟩ := sound.last sections
  have parts := sound.parts
  have counted := sound.counted
  have few := sound.few
  have named := sound.named
  rw [sections] at parts counted few named
  rw [List.length_append, List.length_singleton] at few
  exact
    { sound with
      ordinals := front
      few := by simp only; omega
      parts := fun other member => parts other (List.mem_append_left _ member)
      counted := fun other member => counted other (List.mem_append_left _ member)
      named := by
        intro row member
        obtain ⟨ordinal, same, positive, bound⟩ := named row member
        rw [List.length_append, List.length_singleton] at bound
        refine ⟨ordinal, same, positive, ?_⟩
        have empty : state.parse.rows.countP (belongs part.ordinal) = 0 := (counted part (by simp)).symm.trans unused
        have elsewhere : ordinal ≠ part.ordinal := by
          rintro rfl
          exact List.countP_eq_zero.mp empty row member (decide_eq_true same)
        simp only
        omega }

theorem TextState.Sound.heading {text : Text} (sound : state.Sound budget) (fit : fits 4096 text = true) (small : line < 10 ^ 5) :
    (state.heading budget text line).Sound budget := by
  have opened : TextState.Sound budget { state with explicitHeading := true } := { sound with }
  rw [TextState.heading]
  dsimp only
  split
  · exact opened.beginPending (by simpa using fit) small
  · exact opened.untitled

theorem TextState.Sound.declared {text : Text} (sound : state.Sound budget) (fit : fits 4096 text = true) (small : line < 10 ^ 5) :
    (state.declared budget text line).Sound budget := by
  have begun : ∀ {kept : TextState}, kept.Sound budget → TextState.Sound budget
      { (kept.begin budget (some text) line).onSection fun part => { part with declared := true } with
        explicitHeading := true, pendingTitle := none } := by
    intro kept keptSound
    have begun : (kept.begin budget (some text) line).Sound budget := keptSound.begin (by simpa using fit) small
    have marked : Notes fun part => { part with declared := true } :=
      { ordinal := fun _ => rfl, count := fun _ => rfl, sound := fun _ part => { part with } }
    exact { (begun.onSection marked) with pending := fun _ _ same => by cases same }
  rw [TextState.declared]
  apply begun
  split
  next empty =>
    rw [TextState.current] at empty
    obtain none | ⟨before, part, sections⟩ := state.sections.eq_nil_or_concat'
    · rw [none] at empty
      cases empty
    · rw [sections, List.getLast?_concat, Option.any_some] at empty
      have unused : part.rowCount = 0 := by
        simp only [TextSection.used, Bool.and_eq_true, Bool.not_eq_true', Bool.or_eq_false_iff, decide_eq_false_iff_not] at empty
        omega
      have popped := sound.pop sections unused
      rwa [sections, List.dropLast_concat]
  · exact sound

theorem TextState.Sound.absent (sound : state.Sound budget) (small : line < 10 ^ 5) : (state.absent budget line).Sound budget := by
  have noted : ∀ {opened : TextState}, opened.Sound budget → TextState.Sound budget
      { opened.onSection fun part => { part with errors := part.errors ++ [errorText line (str "no_tracklist_present")] } with
        explicitHeading := false } := by
    intro opened openedSound
    exact { (openedSound.onSection (notes_errors (plain_errorText (plain_str "no_tracklist_present")).single)) with }
  rw [TextState.absent]
  apply noted
  split
  · exact sound.beginPending rfl small
  · exact sound.untitled

/-! ## Rows -/

-- The last row, in the last section.
structure TextState.Open (state : TextState) (rows : List Row) (row : Row) : Prop where
  rows : state.parse.rows = rows ++ [row]
  owned : ∃ parts part, state.sections = parts ++ [part] ∧ row.sectionOrdinal = some part.ordinal

variable {rows : List Row} {row : Row}

@[simp]
theorem rejectAll_sections (state : TextState) (line : Nat) (reasons : List Text) :
    (state.rejectAll line reasons).sections = state.sections := by
  induction reasons generalizing state with
  | nil => rfl
  | cons reason rest ih => exact ih (state.reject line reason)

@[simp]
theorem rejectAll_rows (state : TextState) (line : Nat) (reasons : List Text) :
    (state.rejectAll line reasons).parse.rows = state.parse.rows := by
  induction reasons generalizing state with
  | nil => rfl
  | cons reason rest ih => exact ih (state.reject line reason)

theorem TextState.Open.onSection {change : TextSection → TextSection} (opened : state.Open rows row)
    (same : ∀ part, (change part).ordinal = part.ordinal) : (state.onSection change).Open rows row := by
  obtain ⟨parts, part, sections, ordinal⟩ := opened.owned
  refine ⟨opened.rows, parts, change part, ?_, ordinal.trans (congrArg some (same part).symm)⟩
  rw [TextState.onSection]
  show state.sections.modifyLast change = _
  rw [sections, List.modifyLast_concat]

theorem TextState.Open.rejectAll {reasons : List Text} (opened : state.Open rows row) : (state.rejectAll line reasons).Open rows row :=
  ⟨(rejectAll_rows state line reasons).trans opened.rows, (rejectAll_sections state line reasons).symm ▸ opened.owned⟩

theorem OffsetsOrdered.unqualified {other : Row} (none : ∀ timestamp, other.timestamp = some timestamp → timestamp.offset = none) :
    OffsetsOrdered (trackOf row) (trackOf other) := by
  intro origin offset later _ second
  exfalso
  rw [qualifiedOrigin] at second
  obtain ⟨timestamp, same, taken⟩ := Option.bind_eq_some_iff.mp second
  split at taken
  · rw [none timestamp same] at taken
    cases taken
  · cases taken

-- A change of the last row that keeps its place and its section.
theorem TextState.Sound.onRow {change : Row → Row} (sound : state.Sound budget) (last : state.parse.rows = rows ++ [row])
    (changed : (change row).Sound) (position : (change row).position = row.position)
    (ordinal : (change row).sectionOrdinal = row.sectionOrdinal)
    (unqualified : ∀ timestamp, (change row).timestamp = some timestamp → timestamp.offset = none) :
    (state.onRow change).Sound budget := by
  have after : (state.onRow change).parse.rows = rows ++ [change row] := by
    rw [TextState.onRow, Parse.onLast]
    show state.parse.rows.modifyLast change = _
    rw [last, List.modifyLast_concat]
  have each : ∀ {holds : Row → Prop}, (∀ other ∈ state.parse.rows, holds other) → holds (change row) →
      ∀ other ∈ (state.onRow change).parse.rows, holds other := by
    intro holds front back other member
    rw [after] at member
    obtain earlier | final := List.mem_append.mp member
    · exact front other (last ▸ List.mem_append_left _ earlier)
    · exact List.mem_singleton.mp final ▸ back
  have member : row ∈ state.parse.rows := last ▸ List.mem_append_right _ (List.mem_singleton_self row)
  exact
    { sound with
      kept := sound.kept.onLast last changed position fun _ _ => OffsetsOrdered.unqualified unqualified
      unqualified := each sound.unqualified unqualified
      named := each sound.named (ordinal ▸ sound.named row member)
      counted := by
        intro part present
        have same : belongs part.ordinal (change row) = belongs part.ordinal row := by rw [belongs, belongs, ordinal]
        rw [after, List.countP_append, List.countP_singleton, same, ← List.countP_singleton, ← List.countP_append, ← last]
        exact sound.counted part present }

theorem Parse.Kept.fewer {parse : Parse} {others : List Row} (kept : parse.Kept budget) (sub : others.Sublist parse.rows) :
    Parse.Kept budget { parse with rows := others } :=
  { kept with
    rows := fun other member => kept.rows other (sub.subset member)
    rising := kept.rising.sublist sub
    few := sub.length_le.trans kept.few }

-- The last row goes, and its section counts one less.
theorem TextState.Sound.dropRow (sound : state.Sound budget) (opened : state.Open rows row) :
    TextState.Sound budget
      ({ state with parse := { state.parse with rows := state.parse.rows.dropLast } }.onSection fun part =>
        { part with rowCount := part.rowCount - 1 }) := by
  obtain ⟨parts, last, sections, ordinal⟩ := opened.owned
  obtain ⟨front, back⟩ := sound.last sections
  have shape : (state.sections.modifyLast fun part => { part with rowCount := part.rowCount - 1 }) =
      parts ++ [{ last with rowCount := last.rowCount - 1 }] := by
    rw [sections, List.modifyLast_concat]
  have fewer : state.parse.rows.dropLast = rows := by rw [opened.rows, List.dropLast_concat]
  have sub : rows.Sublist state.parse.rows := opened.rows ▸ List.sublist_append_left rows [row]
  have kept := sound.kept.fewer sub
  have length : (parts ++ [{ last with rowCount := last.rowCount - 1 }]).length = state.sections.length := by simp [sections]
  have inside : last ∈ state.sections := by simp [sections]
  rw [TextState.onSection]
  simp only [shape, fewer]
  exact
    { kept
      unqualified := fun other member => sound.unqualified other (sub.subset member)
      ordinals := by
        simp only
        rw [length, ← sound.ordinals, sections]
        simp
      few := length.trans_le sound.few
      parts := by
        intro part member
        obtain earlier | final := List.mem_append.mp member
        · exact sound.parts part (sections ▸ List.mem_append_left _ earlier)
        · rw [List.mem_singleton.mp final]
          exact { sound.parts last inside with }
      named := by
        intro other member
        simp only
        rw [length]
        exact sound.named other (sub.subset member)
      counted := by
        intro part member
        obtain earlier | final := List.mem_append.mp member
        · have counted := sound.counted part (sections ▸ List.mem_append_left _ earlier)
          have below : part.ordinal ∈ List.range' 1 parts.length := front ▸ List.mem_map_of_mem earlier
          have elsewhere : belongs part.ordinal row = false := by
            rw [belongs, ordinal, back, decide_eq_false_iff_not]
            intro same
            have equal := Option.some.inj same
            have bound := List.mem_range'_1.mp below
            omega
          rw [opened.rows, List.countP_append, List.countP_singleton, elsewhere] at counted
          simpa using counted
        · rw [List.mem_singleton.mp final]
          have counted := sound.counted last inside
          have here : belongs last.ordinal row = true := decide_eq_true ordinal
          rw [opened.rows, List.countP_append, List.countP_singleton, here, if_pos rfl] at counted
          simp only
          omega
      pending := sound.pending }

theorem TextState.Sound.settle {base : Row} {draft : Draft} (sound : state.Sound budget) (opened : state.Open rows row)
    (drafted : Draft.Sound base draft) (position : base.position = row.position) (ordinal : base.sectionOrdinal = row.sectionOrdinal)
    (unqualified : ∀ timestamp, base.timestamp = some timestamp → timestamp.offset = none) :
    (state.settle line draft).Sound budget := by
  have notes : Notes fun part => { part with errors := part.errors ++ draft.noted, warnings := part.warnings ++ draft.warnings } :=
    { ordinal := fun _ => rfl
      count := fun _ => rfl
      sound := fun _ part => { part with errors := part.errors.append drafted.noted, warnings := part.warnings.append drafted.warnings } }
  have noted := (sound.rejectAll line drafted.reasons).onSection notes
  have rejected : (state.rejectAll line draft.reasons).Open rows row := opened.rejectAll
  have still := rejected.onSection notes.ordinal
  rw [TextState.settle]
  dsimp only
  split
  · exact noted.onRow still.rows drafted.row (drafted.position.trans position) (drafted.ordinal.trans ordinal)
      (drafted.timestamp ▸ unqualified)
  · exact noted.dropRow still

theorem unknownCue_sublist {body original rest : Text} (read : unknownCue body = some (original, rest)) :
    original.Sublist body ∧ rest.Sublist body := by
  rw [unknownCue] at read
  have pieces := splitBracket_sublist body.tail
  dsimp only at read
  split at read
  · obtain ⟨rfl, rfl⟩ := Prod.mk.inj (Option.some.inj read)
    exact ⟨pieces.1.trans (List.tail_sublist body), (strip_sublist _).trans (pieces.2.trans (List.tail_sublist body))⟩
  · cases read

-- The text of a time, its unit included.
theorem timed_fits {text : Text} {parsed : TextRowSyntax} {original : Text} (fit : fits 4096 text = true) (parts : PartsOf text parsed)
    (time : parsed.time = some original) : fits 4096 (if parsed.minute then original ++ str " min" else original) = true := by
  have part := fits_sublist fit (parts.time original time)
  split
  · have bounds := fits_iff.mp fit
    have unit : (str " min").length = 4 := by decide
    refine fits_iff.mpr ⟨?_, (fits_iff.mp part).2.append (plain_str _)⟩
    rw [List.length_append, unit]
    obtain short | room := parts.minute original time
    · omega
    · omega
  · exact part

theorem TextState.Sound.describe {text : Text} {parsed : TextRowSyntax} {context : TextContext} (sound : state.Sound budget)
    (opened : state.Open rows row) (fit : fits 4096 text = true) (parts : PartsOf text parsed) (small : line < 10 ^ 5)
    (untimed : row.timestamp = none) : (state.describe isWord context parsed line).Sound budget := by
  have rowSound : row.Sound := sound.kept.rows row (opened.rows ▸ List.mem_append_right _ (List.mem_singleton_self row))
  have last : state.lastRow = some row := by rw [TextState.lastRow, opened.rows, List.getLast?_concat]
  have bodyFits := fits_sublist fit parts.body
  rw [TextState.describe, last]
  dsimp only
  split
  next given =>
    obtain none | ⟨original, time⟩ := Option.eq_none_or_eq_some parsed.time
    · rw [none] at given
      exact absurd rfl given
    · rw [time, Option.getD_some]
      obtain ⟨valid, offset, reasons⟩ := textTimestamp_valid isWord (timed_fits fit parts time) small
      have stamped : Row.Sound { row with
          timestamp := some (textTimestamp isWord (if parsed.minute then original ++ str " min" else original) line).1 } :=
        { rowSound with timestamp := fun _ same => Option.some.inj same ▸ valid }
      exact (sound.rejectAll line reasons).settle opened.rejectAll (textFields_sound stamped bodyFits) rfl rfl fun _ same =>
        Option.some.inj same ▸ offset
  · split
    · split
      · exact sound.fail line _
      next original body read =>
        obtain ⟨first, second⟩ := unknownCue_sublist read
        have stampFits : Timestamp.fieldsFit
            { original, evidence := [lineTag line, str "Unknown source minute cue; origin unknown"] } = true := by
          simp only [Timestamp.fieldsFit, fits_sublist bodyFits first, Option.all_none, Bool.true_and]
          exact evidence_pair (fits_lineTag small) (by decide)
        have valid : Timestamp.validate { original, evidence := [lineTag line, str "Unknown source minute cue; origin unknown"] } = .ok () := by
          rw [Timestamp.validate_ok]
          exact ⟨stampFits, validateQualification_ok.mpr (by simp)⟩
        have stamped : Row.Sound { row with
            timestamp := some { original, evidence := [lineTag line, str "Unknown source minute cue; origin unknown"] } } :=
          { rowSound with timestamp := fun _ same => Option.some.inj same ▸ valid }
        have plain : Plain (errorText line (str "unknown_minute_cue")) := plain_errorText (plain_str _)
        have warned := notes_warnings plain.single
        exact (sound.onSection warned).settle (opened.onSection warned.ordinal) (textFields_sound stamped (fits_sublist bodyFits second))
          rfl rfl fun _ same => Option.some.inj same ▸ rfl
    · exact sound.settle opened (textFields_sound rowSound bodyFits) rfl rfl fun _ same => by rw [untimed] at same; cases same

-- A new row of the last section.
theorem TextState.Sound.placed {parts : List TextSection} {part : TextSection} {evidence : Text} (sound : state.Sound budget)
    (number position : Nat) (sections : state.sections = parts ++ [part]) (room : state.parse.rows.length < budget.maxTracks)
    (plain : Plain evidence) (small : line < 10 ^ 5) :
    ∃ row, row.timestamp = none ∧
      TextState.Sound budget
        (({ state with parse := (state.parse.add number line budget position).1 }.onSection fun part =>
          { part with rowCount := part.rowCount + 1 }).onRow fun row => { row.note evidence with sectionOrdinal := some part.ordinal }) ∧
      TextState.Open
        (({ state with parse := (state.parse.add number line budget position).1 }.onSection fun part =>
          { part with rowCount := part.rowCount + 1 }).onRow fun row => { row.note evidence with sectionOrdinal := some part.ordinal })
        state.parse.rows row := by
  obtain ⟨front, back⟩ := sound.last sections
  have inside : part ∈ state.sections := by simp [sections]
  have bounds := (sound.parts part inside).ordinal
  have added := (add_rows number line position room).2
  have fresh := addedRow_sound state.parse number position small
  have kept : (state.parse.add number line budget position).1.Kept budget := sound.kept.add small
  have placed : Row.Sound { (addedRow state.parse number line position).note evidence with sectionOrdinal := some part.ordinal } :=
    { fresh.note plain with ordinal := by simpa using bounds }
  have noted : ((state.parse.add number line budget position).1.onLast fun row =>
      { row.note evidence with sectionOrdinal := some part.ordinal }).Kept budget :=
    kept.onLast added placed rfl fun _ _ => OffsetsOrdered.untimed rfl
  have rows : ((state.parse.add number line budget position).1.onLast fun row =>
      { row.note evidence with sectionOrdinal := some part.ordinal }).rows =
      state.parse.rows ++ [{ (addedRow state.parse number line position).note evidence with sectionOrdinal := some part.ordinal }] := by
    rw [Parse.onLast]
    show (state.parse.add number line budget position).1.rows.modifyLast _ = _
    rw [added, List.modifyLast_concat]
  have counting : (state.sections.modifyLast fun part => { part with rowCount := part.rowCount + 1 }) =
      parts ++ [{ part with rowCount := part.rowCount + 1 }] := by
    rw [sections, List.modifyLast_concat]
  have length : (parts ++ [{ part with rowCount := part.rowCount + 1 }]).length = state.sections.length := by simp [sections]
  refine ⟨{ (addedRow state.parse number line position).note evidence with sectionOrdinal := some part.ordinal }, rfl, ?_, rows,
    parts, { part with rowCount := part.rowCount + 1 }, counting, rfl⟩
  rw [TextState.onRow, TextState.onSection]
  simp only [counting]
  have each : ∀ {holds : Row → Prop}, (∀ other ∈ state.parse.rows, holds other) →
      holds { (addedRow state.parse number line position).note evidence with sectionOrdinal := some part.ordinal } →
      ∀ other ∈ ((state.parse.add number line budget position).1.onLast fun row =>
        { row.note evidence with sectionOrdinal := some part.ordinal }).rows, holds other := by
    intro holds earlier newest other member
    rw [rows] at member
    obtain present | final := List.mem_append.mp member
    · exact earlier other present
    · exact List.mem_singleton.mp final ▸ newest
  exact
    { kept := noted
      unqualified := each sound.unqualified fun _ same => by cases same
      ordinals := by
        simp only
        rw [length, ← sound.ordinals, sections]
        simp
      few := length.trans_le sound.few
      parts := by
        intro other member
        obtain earlier | final := List.mem_append.mp member
        · exact sound.parts other (sections ▸ List.mem_append_left _ earlier)
        · rw [List.mem_singleton.mp final]
          exact { sound.parts part inside with }
      named := by
        simp only [length]
        refine each sound.named ⟨part.ordinal, rfl, bounds.1, ?_⟩
        rw [back, sections, List.length_append, List.length_singleton]
      counted := by
        intro other member
        simp only [rows, List.countP_append, List.countP_singleton]
        obtain earlier | final := List.mem_append.mp member
        · have below : other.ordinal ∈ List.range' 1 parts.length := front ▸ List.mem_map_of_mem earlier
          have bound := List.mem_range'_1.mp below
          have elsewhere : belongs other.ordinal
              { (addedRow state.parse number line position).note evidence with sectionOrdinal := some part.ordinal } = false := by
            rw [belongs, decide_eq_false_iff_not]
            intro same
            have equal := Option.some.inj same
            omega
          rw [elsewhere]
          exact sound.counted other (sections ▸ List.mem_append_left _ earlier)
        · rw [List.mem_singleton.mp final]
          have here : belongs part.ordinal
              { (addedRow state.parse number line position).note evidence with sectionOrdinal := some part.ordinal } = true :=
            decide_eq_true rfl
          simp only [here, if_true]
          rw [sound.counted part inside]
      pending := sound.pending }

theorem TextState.Sound.place {text : Text} {parsed : TextRowSyntax} {context : TextContext} (sound : state.Sound context.budget)
    (fit : fits 4096 text = true) (parts : PartsOf text parsed) (small : line < 10 ^ 5) :
    (state.place isWord context parsed line).Sound context.budget := by
  have opened : TextState.Sound context.budget
      (if state.current.isNone then state.beginPending context.budget none line else state) := by
    split
    · exact sound.beginPending rfl small
    · exact sound
  rw [TextState.place]
  dsimp only
  generalize (if state.current.isNone then state.beginPending context.budget none line else state) = open' at opened
  split
  · exact opened
  next part _ =>
    have placed : TextState.Sound context.budget
        (if part.goesBack (numberOf parsed part) then
          if open'.pendingTitle.isSome then { open'.beginPending context.budget none line with explicitHeading := true }
          else open'.fail line "conflicting_numbering"
        else open') := by
      split
      · split
        · exact { opened.beginPending rfl small with }
        · exact opened.fail line _
      · exact opened
    have taken := placed.onSection (notes_take (numberOf parsed part))
    revert taken
    generalize (TextState.onSection _ (TextSection.take · (numberOf parsed part))) = taken
    intro taken'
    split
    · exact taken'
    next last current =>
      obtain ⟨before, sections⟩ := List.getLast?_eq_some_iff.mp current
      by_cases room : taken.parse.rows.length < context.budget.maxTracks
      · have added := (add_rows (numberOf parsed part) line
          (max (last.offset + numberOf parsed part + last.zeroBased.toNat) (lastPosition taken.parse + 1)) room).1
        rw [added, if_neg (by decide)]
        have evidence : Plain (str "section:" ++ digits last.ordinal ++ str ":declared_position:" ++ digits (numberOf parsed part)) :=
          (((plain_str _).append (plain_digits _)).append (plain_str _)).append (plain_digits _)
        obtain ⟨row, untimed, held, still⟩ := taken'.placed (numberOf parsed part)
          (max (last.offset + numberOf parsed part + last.zeroBased.toNat) (lastPosition taken.parse + 1)) sections room evidence small
        exact held.describe still fit parts small untimed
      · rw [add_full _ _ _ (Nat.le_of_not_lt room), if_pos rfl]
        exact { taken'.reject line (plain_str "track_cap") with }

/-! ## Lines -/

def TextLine.Sound : TextLine → Prop
  | .heading line | .declared line | .titled line => fits 4096 line = true
  | .excluded pending | .label pending | .other pending => pending.all (fits 4096) = true
  | .row parsed => ∃ line, fits 4096 line = true ∧ PartsOf line parsed
  | .frame | .blank _ | .overlong | .inHeader | .absent | .unsupportedNumber | .ornament => True

theorem labelTitle_fits {text : Text} (fit : fits 4096 text = true) : (labelTitle isWord text).all (fits 4096) = true := by
  rw [labelTitle]
  split
  · exact fits_sublist fit (reverse_dropWhile_sublist _ _)
  · rfl

theorem rowKind_sound {text : Text} (context : TextContext) (explicitHeading : Bool) (index : Nat) (fit : fits 4096 text = true) :
    (rowKind isWord context explicitHeading index text).Sound := by
  rw [rowKind]
  split
  · exact fit
  · split
    · exact True.intro
    · split
      · show (if text.length ≤ 512 then some text else none).all (fits 4096) = true
        split
        · exact fit
        · rfl
      · split
        · exact True.intro
        · exact ⟨text, fit, rowSyntax_parts context index text⟩

theorem lineKind_sound {raw : Text} (context : TextContext) (headerFrame explicitHeading : Bool) (index : Nat) (plain : Plain raw) :
    (lineKind isWord context headerFrame explicitHeading index raw).Sound := by
  have kept := plain.sublist (noteLine_sublist raw)
  rw [lineKind]
  split
  · exact True.intro
  · split
    · exact True.intro
    · split
      · exact True.intro
      next short =>
        have fit : fits 4096 (noteLine raw) = true := fits_iff.mpr ⟨Nat.le_of_not_lt short, kept⟩
        split
        · exact True.intro
        · split
          · exact fit
          · split
            · exact fit
            · split
              · exact True.intro
              · split
                · exact fit
                · split
                  · exact rfl
                  · split
                    · exact labelTitle_fits fit
                    · exact rowKind_sound context explicitHeading index fit

theorem pending_cases {pending : Option Text} {place : Nat} {before : Option (Text × Nat)} {title : Text} {found : Nat}
    (same : ((pending.map (·, place)).orElse fun _ => before) = some (title, found)) :
    (pending = some title ∧ found = place) ∨ before = some (title, found) := by
  cases pending with
  | none => exact .inr same
  | some given =>
    obtain ⟨rfl, rfl⟩ := Prod.mk.inj (Option.some.inj same)
    exact .inl ⟨rfl, rfl⟩

-- What an excluded line leaves as a title.
theorem TextState.Sound.leave {pending : Option Text} {reason : String} (sound : state.Sound budget)
    (fit : pending.all (fits 4096) = true) (small : line < 10 ^ 5) :
    TextState.Sound budget
      { state.exclude line reason with pendingTitle := (pending.map (·, line)).orElse fun _ => state.pendingTitle } :=
  { sound.exclude line reason with
    pending := by
      intro title place same
      obtain ⟨given, rfl⟩ | before := pending_cases same
      · rw [given] at fit
        exact ⟨fit, small⟩
      · exact sound.pending title place before }

theorem TextState.Sound.titled {text : Text} (sound : state.Sound budget) (fit : fits 4096 text = true) (small : line < 10 ^ 5) :
    TextState.Sound budget { state with pendingTitle := some (text, line) } :=
  { sound with
    pending := by
      intro title place same
      obtain ⟨rfl, rfl⟩ := Prod.mk.inj (Option.some.inj same)
      exact ⟨fit, small⟩ }

theorem TextState.Sound.take {context : TextContext} {kind : TextLine} (sound : state.Sound context.budget) (kindSound : kind.Sound)
    (small : line < 10 ^ 5) : (state.take isWord context line kind).Sound context.budget := by
  cases kind with
  | frame => exact { sound with }
  | blank closes =>
    rw [TextState.take]
    split
    · exact { sound with }
    · exact sound
  | overlong => exact sound.reject line (plain_str _)
  | inHeader => exact sound.exclude line _
  | heading text => exact sound.heading kindSound small
  | declared text => exact sound.declared kindSound small
  | absent => exact sound.absent small
  | excluded pending => exact { sound.leave kindSound small with }
  | label title =>
    cases title with
    | none => exact { sound with }
    | some text => exact sound.titled kindSound small
  | titled text => exact { sound.titled kindSound small with }
  | unsupportedNumber => exact sound.fail line _
  | other pending => exact sound.leave kindSound small
  | ornament => exact sound
  | row parsed =>
    obtain ⟨text, fit, parts⟩ := kindSound
    exact sound.place fit parts small

theorem textStep_sound {context : TextContext} {entry : Text × Nat} (sound : state.Sound context.budget) (plain : Plain entry.1)
    (small : entry.2 + 1 < 10 ^ 5) : (textStep isWord context state entry).Sound context.budget := by
  rw [textStep]
  split
  · exact sound
  · exact sound.take (lineKind_sound context _ _ _ plain) small

theorem textSteps_sound {context : TextContext} {entries : List (Text × Nat)} (sound : state.Sound context.budget)
    (plain : ∀ entry ∈ entries, Plain entry.1) (small : ∀ entry ∈ entries, entry.2 + 1 < 10 ^ 5) :
    (entries.foldl (textStep isWord context) state).Sound context.budget := by
  induction entries generalizing state with
  | nil => exact sound
  | cons entry rest ih =>
    have next : (textStep isWord context state entry).Sound context.budget :=
      textStep_sound sound (plain entry List.mem_cons_self) (small entry List.mem_cons_self)
    exact ih next (fun other member => plain other (List.mem_cons_of_mem _ member)) fun other member =>
      small other (List.mem_cons_of_mem _ member)

theorem textRun_sound (context : TextContext) (plain : AllPlain context.lines) (few : context.lines.length ≤ 16384) :
    (textRun isWord context).Sound context.budget := by
  apply textSteps_sound TextState.Sound.initial
  · intro entry member
    exact plain _ (List.fst_mem_of_mem_zipIdx member)
  · intro entry member
    have bound := List.snd_lt_of_mem_zipIdx member
    omega

end Phaze.Tracklist
