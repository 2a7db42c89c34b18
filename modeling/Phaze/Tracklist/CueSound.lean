import Phaze.Tracklist.Sound

set_option autoImplicit false

/-!
# Rows of a CUE sheet pass their checks

An invariant of the directives of `LocalCue`.
-/

namespace Phaze.Tracklist

open Phaze.Guards Phaze.Percent Phaze.Unicode

/-! ## Parts of a line -/

theorem cueLineFrom_sublist {line before rest : Text} {quoted : Bool} (split : line = before ++ rest) :
    (cueLineFrom line quoted before rest).Sublist line := by
  induction rest generalizing before quoted with
  | nil => exact List.Sublist.refl _
  | cons point rest ih =>
    have next : line = (before ++ [point]) ++ rest := by rw [split, List.append_assoc, List.singleton_append]
    rw [cueLineFrom]
    split
    · exact ih next
    · split
      · exact (rstrip_sublist before).trans (split ▸ List.sublist_append_left _ _)
      · exact ih next

theorem cueLine_sublist (line : Text) : (cueLine line).Sublist line := cueLineFrom_sublist (List.nil_append line).symm

theorem directive_sublist {line keyword value : Text} (read : directive line = some (keyword, value)) :
    keyword.Sublist line ∧ value.Sublist line := by
  rw [directive] at read
  split at read
  · cases read
  · obtain ⟨rfl, rfl⟩ := Prod.mk.inj (Option.some.inj read)
    exact ⟨List.takeWhile_sublist _, (List.dropWhile_sublist _).trans (List.dropWhile_sublist _)⟩

theorem quotedValue_sublist {value inner : Text} (read : quotedValue value = some inner) : inner.Sublist value := by
  cases value with
  | nil => cases read
  | cons first rest =>
    rw [quotedValue] at read
    split at read
    · obtain rfl := Option.some.inj read
      exact (List.dropLast_sublist rest).trans (List.sublist_cons_self first rest)
    · cases read

theorem cueValue_sublist {value inner : Text} (read : cueValue value = some inner) : inner.Sublist value := by
  rw [cueValue] at read
  split at read
  next quoted =>
    obtain rfl := Option.some.inj read
    exact quotedValue_sublist quoted
  next =>
    split at read
    · exact Option.some.inj read ▸ List.Sublist.refl _
    · cases read

theorem cueFileName_sublist {value name : Text} (read : cueFileName value = some name) : name.Sublist value := by
  have quotedPart : ∀ {name : Text}, quotedFile value = some name → name.Sublist value := by
    intro name quoted
    cases value with
    | nil => cases quoted
    | cons first rest =>
      rw [quotedFile] at quoted
      split at quoted
      · cases quoted
      · split at quoted
        · obtain rfl := Option.some.inj quoted
          exact (List.takeWhile_sublist _).trans (List.sublist_cons_self first rest)
        · cases quoted
  rw [cueFileName] at read
  split at read
  next quoted =>
    obtain rfl := Option.some.inj read
    exact quotedPart quoted
  next =>
    rw [bareFile] at read
    split at read
    · exact Option.some.inj read ▸ List.takeWhile_sublist _
    · cases read

theorem digitRun_sublist {least most : Nat} {text run rest : Text} (read : digitRun least most text = some (run, rest)) :
    run.Sublist text ∧ rest.Sublist text ∧ run.length ≤ most := by
  rw [digitRun] at read
  split at read
  next sized =>
    obtain ⟨rfl, rfl⟩ := Prod.mk.inj (Option.some.inj read)
    simp only [Bool.and_eq_true, decide_eq_true_eq] at sized
    exact ⟨List.takeWhile_sublist _, List.dropWhile_sublist _, sized.2⟩
  next => cases read

theorem cueIndex_parts {value : Text} {spot : CueIndex} (read : cueIndex value = some spot) :
    spot.index.Sublist value ∧ spot.index.length ≤ 2 ∧ spot.frames.Sublist value ∧ spot.frames.length = 2 := by
  rw [cueIndex] at read
  obtain ⟨⟨index, rest⟩, run, read⟩ := Option.bind_eq_some_iff.mp read
  obtain ⟨spaced', blanks, read⟩ := Option.bind_eq_some_iff.mp read
  have parts := digitRun_sublist run
  have left : spaced'.Sublist rest := by
    rw [spaced] at blanks
    split at blanks
    · exact Option.some.inj blanks ▸ List.dropWhile_sublist _
    · cases blanks
  split at read
  next minutes seconds frames pieces =>
    split at read
    next shape =>
      obtain rfl := Option.some.inj read
      simp only [Bool.and_eq_true, decide_eq_true_eq] at shape
      have piece : frames.Sublist spaced' := by
        apply mem_splitOnP_sublist
        rw [← List.splitOn_eq_splitOnP, pieces]
        simp
      exact ⟨parts.1, parts.2.2, piece.trans (left.trans parts.2.1), shape.1.2⟩
    next => cases read
  next => cases read

/-! ## Timestamps -/

theorem validateQualification_ok {timestamp : Timestamp} :
    timestamp.validateQualification = .ok () ↔
      (timestamp.kind = .offset ∨ timestamp.offset = none) ∧
      (timestamp.offsetUsability = .unusable ∨ timestamp.kind = .offset ∧ timestamp.offset.isSome = true ∧
        (∃ origin, timestamp.origin = some origin ∧ origin ≠ []) ∧ timestamp.evidence ≠ []) ∧
      (timestamp.offsetUsability ≠ .qualified ∨ timestamp.precision = .cueFrame75 ∨ timestamp.precision = .second) ∧
      (timestamp.precision ≠ .cueFrame75 ∨ timestamp.offset.all (RationalOffset.whole · 75) = true) ∧
      (timestamp.precision ≠ .second ∨ timestamp.offset.all (RationalOffset.whole · 1) = true) ∧
      (timestamp.precision ≠ .minute ∨ timestamp.offset.all (RationalOffset.whole · (1 / 60)) = true) := by
  simp only [Timestamp.validateQualification, bind_require, require_ok]
  cases timestamp.origin <;> simp [and_assoc, or_assoc]

theorem unusable_valid {timestamp : Timestamp} (valid : timestamp.validate = .ok ()) : timestamp.unusable.validate = .ok () := by
  rw [Timestamp.validate_ok] at valid ⊢
  refine ⟨valid.1, ?_⟩
  obtain ⟨kind, -, -, frames, seconds, minutes⟩ := validateQualification_ok.mp valid.2
  exact validateQualification_ok.mpr ⟨kind, .inl rfl, .inl (by simp [Timestamp.unusable]), frames, seconds, minutes⟩

theorem whole_frames (total : Nat) : RationalOffset.whole { numerator := total, denominator := 75, positive := by decide } 75 = true := by
  have exact' : ((total : ℚ) / 75) * 75 = total := by ring
  have whole : (RationalOffset.asFraction { numerator := total, denominator := 75, positive := by decide }) * 75 = total := by
    rw [RationalOffset.asFraction]
    exact exact'
  rw [RationalOffset.whole, whole]
  simp

-- An origin that can qualify an offset.
def GoodOrigin (origin : Option Text) : Prop := ∀ text, origin = some text → fits 4096 text = true ∧ text ≠ []

theorem fits_lineTag {line : Nat} (small : line < 10 ^ 5) : fits 4096 (lineTag line) = true := by
  refine fits_iff.mpr ⟨?_, plain_lineTag line⟩
  have tag : (str "line:").length = 5 := by decide
  have short := length_digits_le small
  rw [lineTag, List.length_append, tag]
  omega

theorem evidence_pair {first second : Text} (left : fits 4096 first = true) (right : fits 4096 second = true) :
    evidenceFits [first, second] = true := by
  rw [evidenceFits_iff]
  refine ⟨by simp, fun text member => ?_⟩
  obtain rfl | rest := List.mem_cons.mp member
  · exact left
  · exact List.mem_singleton.mp rest ▸ right

theorem cueFrameStamp_valid {total line : Nat} {original : Text} {origin : Option Text} {usable : Bool}
    (fit : fits 4096 original = true) (small : line < 10 ^ 5) (good : GoodOrigin origin) (based : usable = true → origin.isSome = true) :
    (cueFrameStamp total line original origin usable).validate = .ok () := by
  have evidence : evidenceFits (cueFrameStamp total line original origin usable).evidence = true :=
    evidence_pair (by decide) (fits_lineTag small)
  have originFits : origin.all (fits 4096) = true := by
    cases same : origin with
    | none => rfl
    | some text => exact (good text same).1
  rw [Timestamp.validate_ok]
  constructor
  · simp only [Timestamp.fieldsFit, Bool.and_eq_true]
    exact ⟨⟨fit, originFits⟩, evidence⟩
  · refine validateQualification_ok.mpr ⟨.inl rfl, ?_, .inr (.inl rfl), .inr (whole_frames total), .inl ?_, .inl ?_⟩
    · cases usable with
      | false => exact .inl rfl
      | true =>
        obtain ⟨text, same⟩ := Option.isSome_iff_exists.mp (based rfl)
        exact .inr ⟨rfl, rfl, ⟨text, same, (good text same).2⟩, by simp [cueFrameStamp]⟩
    · simp [cueFrameStamp]
    · simp [cueFrameStamp]

theorem badFrameStamp_valid {original warning : Text} {origin : Option Text} (fit : fits 4096 original = true)
    (warned : fits 4096 warning = true) (good : GoodOrigin origin) : (badFrameStamp original warning origin).validate = .ok () := by
  have originFits : origin.all (fits 4096) = true := by
    cases same : origin with
    | none => rfl
    | some text => exact (good text same).1
  rw [Timestamp.validate_ok]
  constructor
  · simp only [Timestamp.fieldsFit, Bool.and_eq_true]
    exact ⟨⟨fit, originFits⟩, evidence_pair warned (by decide)⟩
  · refine validateQualification_ok.mpr ⟨.inr rfl, .inl rfl, .inl ?_, .inl ?_, .inl ?_, .inl ?_⟩
    all_goals simp [badFrameStamp]

/-! ## The state -/

-- Every qualified offset of the one was one of the other.
def Row.Milder (row other : Row) : Prop :=
  ∀ origin offset, qualifiedOrigin origin (trackOf row) = some offset → qualifiedOrigin origin (trackOf other) = some offset

theorem Row.Milder.same {row other : Row} (same : row.timestamp = other.timestamp) : row.Milder other := by
  intro origin offset found
  have equal : qualifiedOrigin origin (trackOf row) = qualifiedOrigin origin (trackOf other) := by
    simp only [qualifiedOrigin, trackOf, same]
  rw [← equal]
  exact found

theorem Row.Milder.ordered {row other before : Row} (milder : row.Milder other)
    (ordered : OffsetsOrdered (trackOf before) (trackOf other)) : OffsetsOrdered (trackOf before) (trackOf row) :=
  fun origin offset later first second => ordered origin offset later first (milder origin later second)

structure CueState.Sound (budget : LoadBudget) (state : CueState) : Prop where
  kept : state.parse.Kept budget
  reached : ∀ row ∈ state.parse.rows, ∀ origin offset, qualifiedOrigin origin (trackOf row) = some offset →
    offset ≤ (offsetOf origin state.offsets : ℚ) / 75
  origins : ∀ row ∈ state.parse.rows, GoodOrigin row.origin
  unsectioned : ∀ row ∈ state.parse.rows, row.sectionOrdinal = none
  sections : state.parse.sections = []
  fileOrigin : GoodOrigin state.fileOrigin
  fileEvidence : ∀ note, state.fileEvidence = some note → Plain note

variable {budget : LoadBudget} {originKey : Text} {state : CueState} {line : Nat}

theorem CueState.Sound.initial : CueState.Sound budget {} :=
  { kept := Parse.Kept.initial
    reached := fun _ member => absurd member List.not_mem_nil
    origins := fun _ member => absurd member List.not_mem_nil
    unsectioned := fun _ member => absurd member List.not_mem_nil
    sections := rfl
    fileOrigin := fun _ same => by cases same
    fileEvidence := fun _ same => by cases same }

theorem CueState.Sound.reject {reason : Text} (sound : state.Sound budget) (line : Nat) (plain : Plain reason) :
    (state.reject line reason).Sound budget := { sound with kept := sound.kept.reject plain }

theorem currentRow_some {row : Row} (current : state.currentRow = some row) : ∃ before, state.parse.rows = before ++ [row] := by
  rw [CueState.currentRow] at current
  split at current
  · obtain ⟨before, same⟩ := List.getLast?_eq_some_iff.mp current
    exact ⟨before, same⟩
  · cases current

theorem onCurrent_rows {before : List Row} {row : Row} (rows : state.parse.rows = before ++ [row]) (change : Row → Row) :
    (state.onCurrent change).parse.rows = before ++ [change row] := by
  show state.parse.rows.modifyLast change = _
  rw [rows, List.modifyLast_concat]

-- A change of the open row that qualifies no further offset.
theorem CueState.Sound.onCurrent {before : List Row} {row : Row} {change : Row → Row} (sound : state.Sound budget)
    (rows : state.parse.rows = before ++ [row]) (rowSound : (change row).Sound) (position : (change row).position = row.position)
    (origin : GoodOrigin (change row).origin) (ordinal : (change row).sectionOrdinal = row.sectionOrdinal)
    (milder : (change row).Milder row) : (state.onCurrent change).Sound budget := by
  have last : row ∈ state.parse.rows := rows ▸ List.mem_append_right before (List.mem_singleton_self row)
  have earlier : ∀ other ∈ before, other ∈ state.parse.rows := fun other member => rows ▸ List.mem_append_left _ member
  have rising := sound.kept.rising
  rw [rows] at rising
  have ordered : ∀ other ∈ before, OffsetsOrdered (trackOf other) (trackOf (change row)) := fun other member =>
    milder.ordered ((List.pairwise_append.mp rising).2.2 other member row (List.mem_singleton_self row)).2
  have each : ∀ {holds : Row → Prop}, (∀ other ∈ before, holds other) → holds (change row) →
      ∀ other ∈ (state.onCurrent change).parse.rows, holds other := by
    intro holds front back other member
    rw [onCurrent_rows rows] at member
    obtain first | second := List.mem_append.mp member
    · exact front other first
    · exact List.mem_singleton.mp second ▸ back
  exact
    { sound with
      kept := sound.kept.onLast rows rowSound position ordered
      reached := each (fun other member => sound.reached other (earlier other member))
        (fun at' offset found => sound.reached row last at' offset (milder at' offset found))
      origins := each (fun other member => sound.origins other (earlier other member)) origin
      unsectioned := each (fun other member => sound.unsectioned other (earlier other member))
        (ordinal.trans (sound.unsectioned row last)) }

theorem CueState.Sound.row {before : List Row} {row : Row} (sound : state.Sound budget) (rows : state.parse.rows = before ++ [row]) :
    row.Sound ∧ GoodOrigin row.origin := by
  have last : row ∈ state.parse.rows := rows ▸ List.mem_append_right before (List.mem_singleton_self row)
  exact ⟨sound.kept.rows row last, sound.origins row last⟩

theorem CueState.Sound.noted {before : List Row} {row : Row} {note : Text} (sound : state.Sound budget)
    (rows : state.parse.rows = before ++ [row]) (plain : Plain note) : (state.onCurrent (Row.note · note)).Sound budget :=
  sound.onCurrent rows ((sound.row rows).1.note plain) rfl (sound.row rows).2 rfl (Row.Milder.same rfl)

theorem CueState.Sound.remark {note : Text} (sound : state.Sound budget) (plain : Plain note) :
    CueState.Sound budget { state with parse := { state.parse with evidence := state.parse.evidence ++ [note] } } :=
  { sound with kept := { sound.kept with evidence := sound.kept.evidence.append plain.single } }

/-! ## The directives -/

theorem current_cases (state : CueState) :
    state.currentRow = none ∨ ∃ row before, state.currentRow = some row ∧ state.parse.rows = before ++ [row] := by
  cases current : state.currentRow with
  | none => exact .inl rfl
  | some row =>
    obtain ⟨before, rows⟩ := currentRow_some current
    exact .inr ⟨row, before, rfl, rows⟩

theorem CueState.Sound.noting {note : Text} (sound : state.Sound budget) (plain : Plain note) :
    (state.onCurrent (Row.note · note)).Sound budget := by
  obtain empty | ⟨before, row, rows⟩ := state.parse.rows.eq_nil_or_concat
  · have kept : state.parse.rows.modifyLast (Row.note · note) = state.parse.rows := by
      rw [empty]
      rfl
    rw [CueState.onCurrent, Parse.onLast, kept]
    exact sound
  · rw [List.concat_eq_append] at rows
    exact sound.noted rows plain

theorem cueNoted_sound {keyword : String} {value : Text} (sound : state.Sound budget) (plain : Plain value) :
    (cueNoted keyword value line state).Sound budget := by
  have note : Plain (lineTag line ++ str ":" ++ str keyword ++ str ":" ++ value) :=
    ((((plain_lineTag line).append (plain_str ":")).append (plain_str keyword)).append (plain_str ":")).append plain
  rw [cueNoted]
  split
  · exact sound.reject line ((plain_str _).append (plain_str _))
  · split
    · exact sound.reject line ((plain_str _).append (plain_str _))
    · split
      · exact sound.noting note
      · exact sound.remark note

theorem cueFile_sound {value : Text} (sound : state.Sound budget) (plain : Plain value) (key : fits 64 originKey = true)
    (few : state.fileCount + 1 < 10 ^ 5) : (cueFile originKey value line state).Sound budget := by
  rw [cueFile]
  split
  · apply CueState.Sound.reject _ line (plain_str _)
    exact
      { sound with
        fileOrigin := fun _ same => by cases same
        fileEvidence := fun _ same => by cases same }
  next name read =>
    have namePlain := plain.sublist (cueFileName_sublist read)
    have note : Plain (str "FILE:" ++ digits (state.fileCount + 1) ++ str ":" ++ name) :=
      (((plain_str _).append (plain_digits _)).append (plain_str _)).append namePlain
    have keyFits := fits_iff.mp key
    have origin : GoodOrigin (some (str "cue:" ++ originKey ++ str ":file:" ++ digits (state.fileCount + 1))) := by
      intro text same
      obtain rfl := Option.some.inj same
      have head : (str "cue:").length = 4 := by decide
      have middle : (str ":file:").length = 6 := by decide
      have short := length_digits_le few
      constructor
      · refine fits_iff.mpr ⟨?_, (((plain_str _).append keyFits.2).append (plain_str _)).append (plain_digits _)⟩
        simp only [List.length_append, head, middle]
        omega
      · intro empty
        have lengths := congrArg List.length empty
        simp only [List.length_append, head, List.length_nil] at lengths
        omega
    exact
      { sound with
        kept := { sound.kept with
          evidence := sound.kept.evidence.append (((plain_lineTag line).append (plain_str ":")).append note).single }
        fileOrigin := origin
        fileEvidence := fun _ same => Option.some.inj same ▸ note }

-- A row without a time, placed at the end.
theorem CueState.Sound.placed {row : Row} {parse : Parse} (sound : state.Sound budget) (kept : parse.Kept budget)
    (rows : parse.rows = state.parse.rows ++ [row]) (untimed : row.timestamp = none) (origin : GoodOrigin row.origin)
    (ordinal : row.sectionOrdinal = none) (sections : parse.sections = []) : CueState.Sound budget { state with parse } := by
  have each : ∀ {holds : Row → Prop}, (∀ other ∈ state.parse.rows, holds other) → holds row → ∀ other ∈ parse.rows, holds other := by
    intro holds front back other member
    rw [rows] at member
    obtain first | second := List.mem_append.mp member
    · exact front other first
    · exact List.mem_singleton.mp second ▸ back
  have unqualified : ∀ at', qualifiedOrigin at' (trackOf row) = none := by
    intro at'
    simp only [qualifiedOrigin, trackOf, untimed, Option.bind_none]
  exact
    { sound with
      kept
      reached := each sound.reached fun at' offset found => by rw [unqualified] at found; cases found
      origins := each sound.origins origin
      unsectioned := each sound.unsectioned ordinal
      sections }

theorem add_sections (parse : Parse) (number line position : Nat) :
    (parse.add number line budget position).1.sections = parse.sections := by
  rw [Parse.add]
  split
  · rfl
  · dsimp only
    split
    · rfl
    · rfl

theorem cueTrack_sound {value : Text} (sound : state.Sound budget) (small : line < 10 ^ 5) :
    (cueTrack budget value line state).Sound budget := by
  have closed : CueState.Sound budget { state with seenTrack := true, current := false } := { sound with }
  rw [cueTrack]
  split
  · exact closed.reject line (plain_str _)
  next number read =>
    dsimp only
    generalize state.trackOffset number = offset
    have kept : (state.parse.add number line budget (offset + number)).1.Kept budget := sound.kept.add small
    have sections : (state.parse.add number line budget (offset + number)).1.sections = [] :=
      (add_sections _ _ _ _).trans sound.sections
    by_cases room : state.parse.rows.length < budget.maxTracks
    · obtain ⟨added, rows⟩ := add_rows number line (offset + number) room
      simp only [added, Bool.true_eq_false, if_false]
      have opened : CueState.Sound budget
          { state with
            seenTrack := true, filePositionOffset := offset, fileFirstTrack := false
            parse := (state.parse.add number line budget (offset + number)).1, current := true } := by
        have base : CueState.Sound budget { state with parse := (state.parse.add number line budget (offset + number)).1 } :=
          sound.placed kept rows rfl (fun _ same => by cases same) rfl sections
        exact { base with }
      have rowSound := (opened.row rows).1
      have evidence : AllPlain ((addedRow state.parse number line (offset + number)).evidence ++ state.fileEvidence.toList) := by
        apply rowSound.evidence.append
        intro text member
        exact sound.fileEvidence text (Option.mem_toList.mp member)
      have placed : CueState.Sound budget (CueState.onCurrent
          { state with
            seenTrack := true, filePositionOffset := offset, fileFirstTrack := false
            parse := (state.parse.add number line budget (offset + number)).1, current := true }
          fun row => { row with origin := state.fileOrigin, evidence := row.evidence ++ state.fileEvidence.toList }) :=
        opened.onCurrent rows { rowSound with evidence } rfl sound.fileOrigin rfl (Row.Milder.same rfl)
      split
      · exact placed.reject line (plain_str _)
      · exact placed
    · have full := add_full number line (offset + number) (Nat.le_of_not_lt room)
      have rejected := sound.reject line (plain_str "track_cap")
      simp only [full, if_true]
      exact { rejected with }

theorem cueName_sound {keyword : String} {value : Text} (sound : state.Sound budget) (fit : fits 4096 value = true) :
    (cueName keyword value line state).Sound budget := by
  rw [cueName]
  split
  · exact sound.reject line ((plain_str _).append (plain_str _))
  next inner read =>
    have parsed := known_fits (fits_sublist fit (cueValue_sublist read))
    obtain none | ⟨row, before, current, rows⟩ := current_cases state
    · simp only [none]
      split
      · exact sound.reject line ((plain_str _).append (plain_str _))
      · split
        · exact sound.reject line ((plain_str _).append (plain_str _))
        · split
          · exact { sound with kept := { sound.kept with
              artist := parsed, artistEvidence := ((plain_lineTag line).append (plain_str _)).single } }
          · exact { sound with }
    · simp only [current]
      split
      · exact sound.reject line ((plain_str _).append (plain_str _))
      · have own := sound.row rows
        have evidence : AllPlain (row.evidence ++ [lineTag line ++ str ":" ++ str keyword]) :=
          own.1.evidence.append (((plain_lineTag line).append (plain_str ":")).append (plain_str keyword)).single
        apply sound.onCurrent rows
        · split
          · exact { own.1 with artist := parsed, evidence }
          · exact { own.1 with title := parsed, evidence }
        · split
          · rfl
          · rfl
        · split
          · exact own.2
          · exact own.2
        · split
          · rfl
          · rfl
        · split
          · exact Row.Milder.same rfl
          · exact Row.Milder.same rfl

/-! ## The times -/

-- What is set on the open row at its first time.
theorem CueState.Sound.stamped {before : List Row} {row : Row} {stamp : Row → Timestamp} (sound : state.Sound budget)
    (rows : state.parse.rows = before ++ [row]) (valid : (stamp row).validate = .ok ())
    (milder : ({ row with timestamp := some (stamp row) } : Row).Milder row) :
    (state.onCurrent fun row => { row with timestamp := some (stamp row) }).Sound budget := by
  have own := sound.row rows
  apply sound.onCurrent rows _ rfl own.2 rfl milder
  exact { own.1 with timestamp := fun _ same => Option.some.inj same ▸ valid }

theorem unqualified_milder {row other : Row} (unqualified : ∀ timestamp, row.timestamp = some timestamp →
    timestamp.offsetUsability ≠ .qualified) : row.Milder other := by
  intro origin offset found
  obtain ⟨timestamp, same, found⟩ := Option.bind_eq_some_iff.mp found
  split at found
  next qualified => exact absurd qualified.1 (unqualified timestamp same)
  next => cases found

theorem cueConflict_sound (sound : state.Sound budget) : (cueConflict line state).Sound budget := by
  have rejected := sound.reject line (plain_str "conflicting_INDEX01")
  obtain empty | ⟨before, row, rows⟩ := state.parse.rows.eq_nil_or_concat
  · have kept : (state.reject line (str "conflicting_INDEX01")).parse.rows.modifyLast
        (fun row => { row with timestamp := row.timestamp.map Timestamp.unusable }) =
        (state.reject line (str "conflicting_INDEX01")).parse.rows := by
      show state.parse.rows.modifyLast _ = state.parse.rows
      rw [empty]
      rfl
    rw [cueConflict, CueState.onCurrent, Parse.onLast, kept]
    exact rejected
  · rw [List.concat_eq_append] at rows
    have own := sound.row rows
    apply rejected.onCurrent rows
    · refine { own.1 with timestamp := fun timestamp same => ?_ }
      obtain ⟨former, was, rfl⟩ := Option.map_eq_some_iff.mp same
      exact unusable_valid (own.1.timestamp former was)
    · rfl
    · exact own.2
    · rfl
    · apply unqualified_milder
      intro timestamp same
      obtain ⟨former, -, rfl⟩ := Option.map_eq_some_iff.mp same
      simp [Timestamp.unusable]

theorem frameWarning_fits {spot : CueIndex} (index : fits 2 spot.index = true) (frames : fits 2 spot.frames = true)
    (small : line < 10 ^ 5) : fits 4096 (lineTag line ++ str ":invalid_INDEX" ++ spot.index ++ str "_frames:" ++ spot.frames ++
      str ":expected_0_to_74") = true := by
  have indexFits := fits_iff.mp index
  have framesFits := fits_iff.mp frames
  have digitsShort := length_digits_le small
  have first : (str ":invalid_INDEX").length = 14 := by decide
  have second : (str "_frames:").length = 8 := by decide
  have third : (str ":expected_0_to_74").length = 17 := by decide
  have head : (str "line:").length = 5 := by decide
  refine fits_iff.mpr ⟨?_, (((((plain_lineTag line).append (plain_str _)).append indexFits.2).append (plain_str _)).append
    framesFits.2).append (plain_str _)⟩
  simp only [List.length_append, lineTag, first, second, third, head]
  omega

theorem cueBadFrames_sound {spot : CueIndex} {original : Text} {before : List Row} {row last : Row} (sound : state.Sound budget)
    (rows : state.parse.rows = before ++ [last]) (fit : fits 4096 original = true)
    (index : fits 2 spot.index = true) (frames : fits 2 spot.frames = true) (small : line < 10 ^ 5) :
    (cueBadFrames spot original line row state).Sound budget := by
  have warningFits := frameWarning_fits index frames small
  rw [cueBadFrames]
  generalize lineTag line ++ str ":invalid_INDEX" ++ spot.index ++ str "_frames:" ++ spot.frames ++ str ":expected_0_to_74" = warning
    at warningFits ⊢
  have warningPlain := (fits_iff.mp warningFits).2
  have warned : (state.warn warning).Sound budget := by
    refine { sound with kept := { sound.kept with warnings := ?_ } }
    rw [CueState.warn]
    dsimp only
    split
    · exact sound.kept.warnings.append warningPlain.single
    · exact sound.kept.warnings
  have noted := warned.noted rows warningPlain
  split
  · exact noted
  · split
    · exact cueConflict_sound noted
    · have milder : ({ last.note warning with timestamp := some (badFrameStamp original warning last.origin) } : Row).Milder
          (last.note warning) := by
        apply unqualified_milder
        intro timestamp same
        obtain rfl := Option.some.inj same
        simp [badFrameStamp]
      have valid : (badFrameStamp original warning (last.note warning).origin).validate = .ok () :=
        badFrameStamp_valid fit warningFits (sound.row rows).2
      exact noted.stamped (onCurrent_rows rows _) valid milder

theorem offsetOf_cons (origin other : Text) (reached : Nat) (offsets : List (Text × Nat)) :
    offsetOf other ((origin, reached) :: offsets) = if other = origin then reached else offsetOf other offsets := by
  rw [offsetOf, List.lookup_cons]
  by_cases same : other = origin
  · simp [same]
  · simp [same, offsetOf, beq_false_of_ne same]

theorem qualified_stamp {origin at' : Text} {offset : ℚ} {total line : Nat} {original : Text} {usable : Bool} {row : Row}
    (found : qualifiedOrigin at'
      (trackOf { row with timestamp := some (cueFrameStamp total line original (some origin) usable) }) = some offset) :
    usable = true ∧ at' = origin ∧ offset = (total : ℚ) / 75 := by
  obtain ⟨timestamp, same, found⟩ := Option.bind_eq_some_iff.mp found
  obtain rfl := Option.some.inj same
  split at found
  next qualified =>
    obtain ⟨qualified, origins, -⟩ := qualified
    refine ⟨?_, (Option.some.inj origins).symm, (Option.some.inj found).symm⟩
    cases usable with
    | true => rfl
    | false => simp [cueFrameStamp] at qualified
  next => cases found

-- A time that does not go back behind the times of its origin.
theorem CueState.Sound.reaching {before : List Row} {row : Row} {origin original : Text} {total : Nat} {usable : Bool}
    (sound : state.Sound budget) (rows : state.parse.rows = before ++ [row])
    (good : GoodOrigin (some origin)) (fit : fits 4096 original = true) (small : line < 10 ^ 5)
    (ahead : usable = true → offsetOf origin state.offsets ≤ total) :
    (CueState.onCurrent { state with offsets := (origin, max (offsetOf origin state.offsets) total) :: state.offsets }
      fun row => { row with timestamp := some (cueFrameStamp total line original (some origin) usable) }).Sound budget := by
  have own := sound.row rows
  have valid : (cueFrameStamp total line original (some origin) usable).validate = .ok () :=
    cueFrameStamp_valid fit small good fun _ => rfl
  have grows : ∀ other : Text, (offsetOf other state.offsets : ℚ) ≤
      offsetOf other ((origin, max (offsetOf origin state.offsets) total) :: state.offsets) := by
    intro other
    rw [offsetOf_cons]
    split
    next same =>
      rw [same]
      exact_mod_cast Nat.le_max_left _ _
    next => exact le_refl _
  have earlier : ∀ other ∈ before, other ∈ state.parse.rows := fun other member => rows ▸ List.mem_append_left _ member
  have stamped : ({ row with timestamp := some (cueFrameStamp total line original (some origin) usable) } : Row).Sound :=
    { own.1 with timestamp := fun _ same => Option.some.inj same ▸ valid }
  have ordered : ∀ other ∈ before, OffsetsOrdered (trackOf other)
      (trackOf { row with timestamp := some (cueFrameStamp total line original (some origin) usable) }) := by
    intro other member at' offset later first second
    obtain ⟨isUsable, rfl, rfl⟩ := qualified_stamp second
    have bound := sound.reached other (earlier other member) at' offset first
    have below : (offsetOf at' state.offsets : ℚ) ≤ total := by exact_mod_cast ahead isUsable
    linarith
  have moved : ({ state with offsets := (origin, max (offsetOf origin state.offsets) total) :: state.offsets } : CueState).parse.rows =
      before ++ [row] := rows
  have each : ∀ {holds : Row → Prop}, (∀ other ∈ before, holds other) →
      holds { row with timestamp := some (cueFrameStamp total line original (some origin) usable) } →
      ∀ other ∈ (CueState.onCurrent { state with offsets := (origin, max (offsetOf origin state.offsets) total) :: state.offsets }
        fun row => { row with timestamp := some (cueFrameStamp total line original (some origin) usable) }).parse.rows,
        holds other := by
    intro holds front back other member
    rw [onCurrent_rows moved] at member
    obtain first | second := List.mem_append.mp member
    · exact front other first
    · exact List.mem_singleton.mp second ▸ back
  have passed : ∀ other ∈ before, ∀ at' offset, qualifiedOrigin at' (trackOf other) = some offset →
      offset ≤ (offsetOf at' ((origin, max (offsetOf origin state.offsets) total) :: state.offsets) : ℚ) / 75 := by
    intro other member at' offset found
    have bound := sound.reached other (earlier other member) at' offset found
    have more := grows at'
    linarith
  have new : ∀ at' offset, qualifiedOrigin at'
      (trackOf { row with timestamp := some (cueFrameStamp total line original (some origin) usable) }) = some offset →
      offset ≤ (offsetOf at' ((origin, max (offsetOf origin state.offsets) total) :: state.offsets) : ℚ) / 75 := by
    intro at' offset found
    obtain ⟨-, rfl, rfl⟩ := qualified_stamp found
    rw [offsetOf_cons, if_pos rfl]
    have below : (total : ℚ) ≤ (max (offsetOf at' state.offsets) total : Nat) := by exact_mod_cast Nat.le_max_right _ _
    linarith
  exact
    { sound with
      kept := sound.kept.onLast rows stamped rfl ordered
      reached := each passed new
      origins := each (fun other member => sound.origins other (earlier other member)) own.2
      unsectioned := each (fun other member => sound.unsectioned other (earlier other member))
        (sound.unsectioned row (rows ▸ List.mem_append_right before (List.mem_singleton_self row))) }

theorem cueGoodFrames_sound {spot : CueIndex} {original : Text} {before : List Row} {row last : Row} (sound : state.Sound budget)
    (rows : state.parse.rows = before ++ [last]) (origin : GoodOrigin row.origin)
    (fit : fits 4096 original = true) (small : line < 10 ^ 5) : (cueGoodFrames spot original line row state).Sound budget := by
  rw [cueGoodFrames]
  dsimp only
  generalize number spot.minutes * 60 * 75 + number spot.seconds * 75 + number spot.frames = total
  split
  · exact sound
  · split
    · exact cueConflict_sound sound
    next =>
      cases same : row.origin with
      | none =>
        apply sound.stamped rows
        · exact cueFrameStamp_valid fit small (fun _ none => by cases none) (fun used => by cases used)
        · apply unqualified_milder
          intro timestamp stamp
          obtain rfl := Option.some.inj stamp
          simp [cueFrameStamp]
      | some named =>
        rw [same] at origin
        dsimp only
        split
        next backwards =>
          have rejected := sound.reject line (plain_str "nonmonotonic_INDEX01")
          exact rejected.reaching rows origin fit small fun used => by simp [backwards] at used
        next forwards =>
          have ahead : offsetOf named state.offsets ≤ total := Nat.le_of_not_lt forwards
          exact sound.reaching rows origin fit small fun _ => ahead

/-! ## Lines and runs -/

theorem cueIndexLine_sound {value : Text} (sound : state.Sound budget) (fit : fits 4096 value = true) (small : line < 10 ^ 5) :
    (cueIndexLine value line state).Sound budget := by
  have rejected := sound.reject line (plain_str "malformed_INDEX")
  rw [cueIndexLine]
  obtain none | ⟨row, before, current, rows⟩ := current_cases state
  · simp only [none]
    exact rejected
  · cases read : cueIndex value with
    | none =>
      simp only [current]
      exact rejected
    | some spot =>
      obtain ⟨indexPart, indexShort, framesPart, framesShort⟩ := cueIndex_parts read
      have valuePlain := (fits_iff.mp fit).2
      have index : fits 2 spot.index = true := fits_iff.mpr ⟨indexShort, valuePlain.sublist indexPart⟩
      have frames : fits 2 spot.frames = true := fits_iff.mpr ⟨framesShort.le, valuePlain.sublist framesPart⟩
      have original := fits_sublist fit (lastWord_sublist value)
      have note : Plain (lineTag line ++ str ":INDEX" ++ spot.index ++ str ":" ++ lastWord value) :=
        ((((plain_lineTag line).append (plain_str _)).append (fits_iff.mp index).2).append (plain_str _)).append (fits_iff.mp original).2
      have noted := sound.noted rows note
      have own := sound.row rows
      have moved := onCurrent_rows rows (Row.note · (lineTag line ++ str ":INDEX" ++ spot.index ++ str ":" ++ lastWord value))
      simp only [current]
      split
      · exact rejected
      · split
        · exact cueBadFrames_sound noted moved original index frames small
        · exact cueGoodFrames_sound noted moved own.2 original small

theorem plain_upper {text : Text} (plain : Plain text) : Plain (text.map upperPoint) := by
  intro point member
  obtain ⟨original, inside, rfl⟩ := List.mem_map.mp member
  have scalar := plain original inside
  cases original with
  | surrogate code => cases scalar
  | scalar char =>
    rw [upperPoint]
    split
    · rfl
    · rfl

theorem cueDirective_sound {keyword value : Text} (sound : state.Sound budget) (named : Plain keyword) (fit : fits 4096 value = true)
    (small : line < 10 ^ 5) (key : fits 64 originKey = true) (few : state.fileCount + 1 < 10 ^ 5) :
    (cueDirective budget originKey keyword value line state).Sound budget := by
  have valuePlain := (fits_iff.mp fit).2
  rw [cueDirective]
  split
  · exact sound
  · split
    · exact cueNoted_sound sound valuePlain
    · split
      · exact cueFile_sound sound valuePlain key few
      · split
        · exact cueTrack_sound sound small
        · split
          · exact cueName_sound sound fit
          · split
            · exact cueName_sound sound fit
            · split
              · exact cueIndexLine_sound sound fit small
              · exact sound.reject line ((plain_str _).append named)

theorem cueStep_sound {entry : Text × Nat} (sound : state.Sound budget) (plain : Plain entry.1) (small : entry.2 < 10 ^ 5)
    (key : fits 64 originKey = true) (few : state.fileCount + 1 < 10 ^ 5) :
    (cueStep budget originKey state entry).Sound budget := by
  rw [cueStep]
  split
  · exact sound
  · split
    · exact sound.reject entry.2 (plain_str _)
    next short =>
      split
      · exact sound
      · have line : fits 4096 (cueLine (strip entry.1)) = true :=
          fits_sublist (fits_iff.mpr ⟨Nat.le_of_not_lt short, plain.sublist (strip_sublist entry.1)⟩) (cueLine_sublist _)
        split
        · exact sound.reject entry.2 (plain_str _)
        next keyword value read =>
          obtain ⟨keywordPart, valuePart⟩ := directive_sublist read
          exact cueDirective_sound sound (plain_upper ((fits_iff.mp line).2.sublist keywordPart)) (fits_sublist line valuePart) small key few

theorem cueNoted_fileCount (keyword : String) (value : Text) : (cueNoted keyword value line state).fileCount = state.fileCount := by
  rw [cueNoted]
  repeat' split
  all_goals rfl

theorem cueFile_fileCount (value : Text) : (cueFile originKey value line state).fileCount = state.fileCount + 1 := by
  rw [cueFile]
  split
  · rfl
  · rfl

theorem cueTrack_fileCount (value : Text) : (cueTrack budget value line state).fileCount = state.fileCount := by
  rw [cueTrack]
  dsimp only
  repeat' split
  all_goals rfl

theorem cueName_fileCount (keyword : String) (value : Text) : (cueName keyword value line state).fileCount = state.fileCount := by
  rw [cueName]
  dsimp only
  repeat' split
  all_goals rfl

theorem cueIndexLine_fileCount (value : Text) : (cueIndexLine value line state).fileCount = state.fileCount := by
  have bad : ∀ (spot : CueIndex) (original : Text) (row : Row) (state : CueState),
      (cueBadFrames spot original line row state).fileCount = state.fileCount := by
    intro spot original row state
    rw [cueBadFrames]
    repeat' split
    all_goals rfl
  have good : ∀ (spot : CueIndex) (original : Text) (row : Row) (state : CueState),
      (cueGoodFrames spot original line row state).fileCount = state.fileCount := by
    intro spot original row state
    rw [cueGoodFrames]
    dsimp only
    repeat' split
    all_goals rfl
  rw [cueIndexLine]
  dsimp only
  split
  · split
    · rfl
    · split
      · exact bad _ _ _ _
      · exact good _ _ _ _
  · rfl

theorem cueStep_fileCount (entry : Text × Nat) :
    (cueStep budget originKey state entry).fileCount ≤ state.fileCount + 1 := by
  have same : ∀ {other : CueState}, other.fileCount = state.fileCount → other.fileCount ≤ state.fileCount + 1 :=
    fun equal => equal.le.trans (Nat.le_succ _)
  have directed : ∀ keyword value line, (cueDirective budget originKey keyword value line state).fileCount ≤ state.fileCount + 1 := by
    intro keyword value line
    rw [cueDirective]
    split
    · exact same rfl
    · split
      · exact same (cueNoted_fileCount _ _)
      · split
        · exact (cueFile_fileCount _).le
        · split
          · exact same (cueTrack_fileCount _)
          · split
            · exact same (cueName_fileCount _ _)
            · split
              · exact same (cueName_fileCount _ _)
              · split
                · exact same (cueIndexLine_fileCount _)
                · exact same rfl
  rw [cueStep]
  split
  · exact same rfl
  · split
    · exact same rfl
    · split
      · exact same rfl
      · split
        · exact same rfl
        · exact directed _ _ _

-- Few enough lines that their numbers stay short.
theorem cueRun_sound {entries : List (Text × Nat)} (sound : state.Sound budget) (plain : ∀ entry ∈ entries, Plain entry.1)
    (small : ∀ entry ∈ entries, entry.2 < 10 ^ 5) (key : fits 64 originKey = true)
    (few : state.fileCount + entries.length < 10 ^ 5) : (entries.foldl (cueStep budget originKey) state).Sound budget := by
  induction entries generalizing state with
  | nil => exact sound
  | cons entry rest ih =>
    rw [List.length_cons] at few
    have first := List.mem_cons_self (a := entry) (l := rest)
    have next := cueStep_sound sound (plain entry first) (small entry first) key (by omega)
    have count : (cueStep budget originKey state entry).fileCount ≤ state.fileCount + 1 := cueStep_fileCount entry
    exact ih next (fun other member => plain other (List.mem_cons_of_mem _ member))
      (fun other member => small other (List.mem_cons_of_mem _ member)) (by omega)

/-! ## The parse of a sheet -/

theorem inherit_position (parse : Parse) (row : Row) : (inherit parse row).position = row.position := by
  rw [inherit]
  split
  · rfl
  · rfl

theorem inherit_timestamp (parse : Parse) (row : Row) : (inherit parse row).timestamp = row.timestamp := by
  rw [inherit]
  split
  · rfl
  · rfl

theorem inherit_ordinal (parse : Parse) (row : Row) : (inherit parse row).sectionOrdinal = row.sectionOrdinal := by
  rw [inherit]
  split
  · rfl
  · rfl

theorem inherit_sound {parse : Parse} {row : Row} (kept : parse.Kept budget) (sound : row.Sound) : (inherit parse row).Sound := by
  rw [inherit]
  split
  · exact sound
  · exact { sound with artist := kept.artist, evidence := sound.evidence.append kept.artistEvidence }

-- A parse whose rows and sections make a snapshot.
structure Parse.Sound (budget : LoadBudget) (parse : Parse) : Prop where
  kept : parse.Kept budget
  sections : ∀ part ∈ parse.sections, part.fieldsFit = true
  few : parse.sections.length ≤ 4096
  housed : Housed parse.sections (parse.rows.map Row.sectionOrdinal)

theorem cue_sound {lines : List Text} (plain : AllPlain lines) (few : lines.length ≤ 16384) (key : fits 64 originKey = true) :
    (cue lines budget originKey).Sound budget := by
  have plainEntries : ∀ entry ∈ lines.zipIdx 1, Plain entry.1 := by
    intro entry member
    exact plain _ (List.fst_mem_of_mem_zipIdx member)
  have small : ∀ entry ∈ lines.zipIdx 1, entry.2 < 10 ^ 5 := by
    intro entry member
    have bound := List.snd_lt_add_of_mem_zipIdx member
    omega
  have initial : CueState.Sound budget {} := CueState.Sound.initial
  have short : (lines.zipIdx 1).length < 10 ^ 5 := by
    rw [List.length_zipIdx]
    omega
  have run : ((lines.zipIdx 1).foldl (cueStep budget originKey) {}).Sound budget :=
    cueRun_sound initial plainEntries small key (by simpa using short)
  rw [cue]
  generalize ((lines.zipIdx 1).foldl (cueStep budget originKey) {}) = state at run
  have ordered : (state.parse.rows.map (inherit state.parse)).Pairwise Row.Before := by
    rw [List.pairwise_map]
    apply run.kept.rising.imp
    intro row other before
    refine ⟨by rw [inherit_position, inherit_position]; exact before.1, ?_⟩
    have first : (inherit state.parse row).Milder row := Row.Milder.same (inherit_timestamp _ _)
    have second : (inherit state.parse other).Milder other := Row.Milder.same (inherit_timestamp _ _)
    intro origin offset later found next
    exact before.2 origin offset later (first origin offset found) (second origin later next)
  have ordinals : ∀ ordinal ∈ (state.parse.rows.map (inherit state.parse)).map Row.sectionOrdinal, ordinal = none := by
    intro ordinal member
    obtain ⟨inherited, inside, rfl⟩ := List.mem_map.mp member
    obtain ⟨row, present, rfl⟩ := List.mem_map.mp inside
    exact (inherit_ordinal _ _).trans (run.unsectioned row present)
  refine ⟨?_, ?_, ?_, ?_⟩
  · exact
      { run.kept with
        rows := by
          intro row member
          obtain ⟨original, present, rfl⟩ := List.mem_map.mp member
          exact inherit_sound run.kept (run.kept.rows original present)
        rising := ordered
        few := by simpa using run.kept.few }
  · simp [run.sections]
  · simp [run.sections]
  · constructor
    · simp [run.sections]
    · intro ordinal member
      cases ordinals _ member
    · intro some
      exact absurd run.sections some

end Phaze.Tracklist
