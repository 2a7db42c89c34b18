import Phaze.Tracklist.CueSound

set_option autoImplicit false

/-!
# Outcomes of local sources

A sound parse becomes a snapshot that passes its checks, as long as its JSON keeps to the limit.
-/

namespace Phaze.Tracklist

open Phaze.Guards Phaze.Json Phaze.Percent Phaze.Unicode

/-! ## Sizes -/

@[simp]
theorem length_record (fields : List (String × Value)) : (Value.record fields).length = recordLength fields + 2 := rfl

theorem recordLength_cons (name : String) (value : Value) (next : String × Value) (rest : List (String × Value)) :
    recordLength ((name, value) :: next :: rest) = name.length + 3 + value.length + 1 + recordLength (next :: rest) := rfl

-- What the tracks, the completeness and the flag of the sections add to the rest.
theorem dumpLength_with (base : Snapshot) (tracks : List ProviderTrack) (completeness : Completeness) (scan : Bool)
    (empty : base.tracks = []) :
    ({ base with tracks, completeness, sectionScanComplete := scan } : Snapshot).dumpLength +
        base.completeness.json.length + (Value.bool base.sectionScanComplete).length =
      base.dumpLength + listLength (tracks.map ProviderTrack.json) + completeness.json.length + (Value.bool scan).length := by
  simp only [Snapshot.dumpLength, Snapshot.json, length_record, recordLength_cons, empty, List.map_nil, Value.length, listLength]
  omega

def tracksLength (tracks : List ProviderTrack) : Nat := (tracks.map fun track => track.dumpLength + 1).sum

theorem listLength_tracks (tracks : List ProviderTrack) : listLength (tracks.map ProviderTrack.json) ≤ tracksLength tracks := by
  have bound := listLength_le (tracks.map ProviderTrack.json)
  rwa [List.map_map] at bound

/-! ## Rows become tracks -/

theorem tracksFrom_full {row : Row} {rest : List Row} (sound : row.Sound) {size : Nat}
    (full : outputCap < size + (trackOf row).dumpLength + 1) : tracksFrom size (row :: rest) = .ok ([], some row.line) := by
  rw [tracksFrom, sound.track]
  simp only [bind, Except.bind, if_pos full]
  rfl

theorem tracksFrom_next {row : Row} {rest : List Row} (sound : row.Sound) {size : Nat} {tracks : List ProviderTrack} {full : Option Nat}
    (room : size + (trackOf row).dumpLength + 1 ≤ outputCap)
    (read : tracksFrom (size + (trackOf row).dumpLength + 1) rest = .ok (tracks, full)) :
    tracksFrom size (row :: rest) = .ok (trackOf row :: tracks, full) := by
  rw [tracksFrom, sound.track]
  simp only [bind, Except.bind, if_neg (Nat.not_lt_of_le room), read]
  rfl

-- The rows up to the first that does not fit.
theorem tracksFrom_ok {rows : List Row} (sound : ∀ row ∈ rows, row.Sound) (size : Nat) :
    ∃ count, tracksFrom size rows = .ok ((rows.take count).map trackOf, (rows[count]?).map Row.line) ∧
      (count = 0 ∧ (∀ row ∈ rows.head?, outputCap < size + (trackOf row).dumpLength + 1) ∨
        0 < count ∧ size + tracksLength ((rows.take count).map trackOf) ≤ outputCap) := by
  induction rows generalizing size with
  | nil => exact ⟨0, rfl, .inl ⟨rfl, fun _ member => by cases member⟩⟩
  | cons row rest ih =>
    have valid := sound row List.mem_cons_self
    by_cases full : outputCap < size + (trackOf row).dumpLength + 1
    · exact ⟨0, tracksFrom_full valid full, .inl ⟨rfl, fun other member => Option.some.inj member ▸ full⟩⟩
    · obtain ⟨count, read, within⟩ := ih (fun other member => sound other (List.mem_cons_of_mem _ member))
        (size + (trackOf row).dumpLength + 1)
      refine ⟨count + 1, tracksFrom_next valid (Nat.le_of_not_lt full) read, .inr ⟨Nat.succ_pos _, ?_⟩⟩
      rw [List.take_succ_cons, List.map_cons, tracksLength, List.map_cons, List.sum_cons]
      obtain ⟨rfl, -⟩ | ⟨-, within⟩ := within
      · simp only [List.take_zero, List.map_nil, List.sum_nil]
        omega
      · rw [tracksLength] at within
        omega

theorem tracksFrom_all {rows : List Row} (sound : ∀ row ∈ rows, row.Sound) {size : Nat}
    (room : size + tracksLength (rows.map trackOf) ≤ outputCap) : tracksFrom size rows = .ok (rows.map trackOf, none) := by
  induction rows generalizing size with
  | nil => rfl
  | cons row rest ih =>
    rw [List.map_cons, tracksLength, List.map_cons, List.sum_cons] at room
    have later := ih (fun other member => sound other (List.mem_cons_of_mem _ member))
      (show size + (trackOf row).dumpLength + 1 + tracksLength (rest.map trackOf) ≤ outputCap by rw [tracksLength]; omega)
    exact tracksFrom_next (sound row List.mem_cons_self) (by omega) later

/-! ## The snapshots -/

variable {budget : LoadBudget} {candidate : ProviderCandidate} {content : SourceRead} {decoded : Decoded} {sourceFormat : Text}
  {parse : Parse}

theorem sourceFormat_fits (listed : sourceFormat ∈ sourceFormats) : fits 4096 sourceFormat = true := by
  have all : ∀ word ∈ sourceFormats, fits 4096 word = true := by decide
  exact all sourceFormat listed

-- What a snapshot of these values is checked against, its tracks and its completeness apart.
structure Given (candidate : ProviderCandidate) (content : SourceRead) (decoded : Decoded) (sourceFormat : Text) : Prop where
  candidate : candidate.valid = true
  content : content.valid = true
  text : fits 262144 decoded.text = true
  format : sourceFormat ∈ sourceFormats

theorem artist_known (candidate : ProviderCandidate) (content : SourceRead) (decoded : Decoded) (sourceFormat : Text) (parse : Parse) :
    (baseSnapshot candidate content decoded sourceFormat parse).artist.requireKnownValue = .ok () := by
  rw [Fact.requireKnownValue, require_ok, baseSnapshot]
  dsimp only
  by_cases named : parse.artist.any (fun artist => artist ≠ []) = true
  · rw [named, Bool.or_true]
  · rw [if_neg named]
    rfl

theorem fieldsFit_with (given : Given candidate content decoded sourceFormat) (sound : parse.Sound budget)
    {tracks : List ProviderTrack} {completeness : Completeness} (scan : Bool) (few : tracks.length ≤ 4096)
    (fit : completeness.fieldsFit = true) :
    ({ baseSnapshot candidate content decoded sourceFormat parse with
      tracks, completeness, sectionScanComplete := scan } : Snapshot).fieldsFit = true := by
  have candidateFits := given.candidate
  have contentFits := given.content
  simp only [ProviderCandidate.valid, Bool.and_eq_true] at candidateFits
  simp only [SourceRead.valid, Bool.and_eq_true] at contentFits
  obtain ⟨⟨⟨⟨⟨⟨-, -⟩, evidence⟩, -⟩, encoding⟩, revision⟩, -⟩ := contentFits
  have artist : (baseSnapshot candidate content decoded sourceFormat parse).artist.fieldsFit = true := by
    simp only [Fact.fieldsFit, baseSnapshot, Bool.and_eq_true]
    exact ⟨sound.kept.artist, boundedEvidence_fits sound.kept.artistEvidence⟩
  have parts : parse.sections.all TrackSection.fieldsFit = true := List.all_eq_true.mpr sound.sections
  have provenance := boundedEvidence_fits ((evidence_plain evidence).append sound.kept.evidence)
  have version : parserVersion ≠ [] ∧ fits 128 parserVersion = true := by decide
  simp only [Snapshot.fieldsFit, Bool.and_eq_true, decide_eq_true_eq]
  exact ⟨⟨⟨⟨⟨⟨⟨⟨⟨⟨⟨⟨⟨⟨candidateFits.1.1, revision⟩, rfl⟩, artist⟩, few⟩, sound.few⟩, parts⟩, given.text⟩, encoding⟩,
    sourceFormat_fits given.format⟩, version.1⟩, version.2⟩, fit⟩, provenance⟩, rfl⟩

theorem housed_take (housed : Housed parse.sections (parse.rows.map Row.sectionOrdinal)) (count : Nat) :
    Housed parse.sections (((parse.rows.take count).map trackOf).map ProviderTrack.sectionOrdinal) := by
  have part : ∀ ordinal, ordinal ∈ ((parse.rows.take count).map trackOf).map ProviderTrack.sectionOrdinal →
      ordinal ∈ parse.rows.map Row.sectionOrdinal := by
    intro ordinal member
    rw [List.map_map] at member
    obtain ⟨row, inside, rfl⟩ := List.mem_map.mp member
    exact List.mem_map_of_mem (List.mem_of_mem_take inside)
  exact
    { rising := housed.rising
      named := fun ordinal member => housed.named ordinal (part _ member)
      each := fun some member => housed.each some (part _ member) }

theorem snapshot_ok (given : Given candidate content decoded sourceFormat) (sound : parse.Sound budget)
    (atMost : budget.maxTracks ≤ 4096) (count : Nat) {completeness : Completeness} (scan : Bool)
    (fit : completeness.fieldsFit = true)
    (small : ({ baseSnapshot candidate content decoded sourceFormat parse with
      tracks := (parse.rows.take count).map trackOf, completeness, sectionScanComplete := scan } : Snapshot).dumpLength ≤
      4 * 1024 * 1024) :
    ({ baseSnapshot candidate content decoded sourceFormat parse with
      tracks := (parse.rows.take count).map trackOf, completeness, sectionScanComplete := scan } : Snapshot).validate = .ok () := by
  have few : ((parse.rows.take count).map trackOf).length ≤ 4096 := by
    have some := sound.kept.few
    rw [List.length_map, List.length_take]
    omega
  have rising : (parse.rows.take count).Pairwise Row.Before := sound.kept.rising.sublist (List.take_sublist count parse.rows)
  apply Snapshot.validate_ok
  · exact fieldsFit_with given sound scan few fit
  · exact artist_known candidate content decoded sourceFormat parse
  · intro track member
    obtain ⟨row, inside, rfl⟩ := List.mem_map.mp member
    exact (sound.kept.rows row (List.mem_of_mem_take inside)).track
  · simp only [List.map_map]
    rw [List.pairwise_map]
    exact rising.imp fun before => Int.ofNat_lt.mpr before.1
  · exact housed_take sound.housed count
  · simp only
    rw [List.pairwise_map]
    exact rising.imp fun before => before.2
  · exact small

theorem completeness_fits {state : CompletenessState} {reason : Text} {errors : List Text} (fit : fits 4096 reason = true)
    (plain : AllPlain errors) : ({ state, reason, evidence := boundedEvidence errors } : Completeness).fieldsFit = true := by
  simp only [Completeness.fieldsFit, Bool.and_eq_true]
  exact ⟨fit, boundedEvidence_fits plain⟩

theorem baseSnapshot_ok (given : Given candidate content decoded sourceFormat) (sound : parse.Sound budget)
    (atMost : budget.maxTracks ≤ 4096)
    (small : (baseSnapshot candidate content decoded sourceFormat parse).dumpLength ≤ 4 * 1024 * 1024) :
    (baseSnapshot candidate content decoded sourceFormat parse).validate = .ok () := by
  have fit : (baseSnapshot candidate content decoded sourceFormat parse).completeness.fieldsFit = true :=
    completeness_fits (by decide) (sound.kept.errors.append sound.kept.warnings)
  have checked := snapshot_ok given sound atMost 0 (baseSnapshot candidate content decoded sourceFormat parse).sectionScanComplete fit
  exact checked small

theorem Parse.Sound.reject {reason : Text} (sound : parse.Sound budget) (line : Nat) (plain : Plain reason) :
    (parse.reject line reason).Sound budget := { sound with kept := sound.kept.reject plain }

theorem build_ok {outcome : LoadOutcome}
    (fields : (fits 4096 outcome.code && fits 4096 outcome.scope && fits 4096 outcome.detail && evidenceFits outcome.evidence) = true)
    (snapshot : outcome.snapshot.elim (.ok ()) Snapshot.validate = .ok ()) (found : outcome.validateFound = .ok ()) :
    LoadOutcome.build outcome = .ok outcome := by
  rw [LoadOutcome.build, bind_require, bind_ok]
  refine ⟨fields, (), snapshot, ?_⟩
  rw [bind_ok]
  exact ⟨(), found, rfl⟩

/-! ## The whole -/

theorem completeness_length (state : CompletenessState) (reason : Text) (evidence : List Text) :
    ({ state, reason, evidence } : Completeness).json.length =
      textLength (str state.value) + textLength reason + (texts evidence).length + 32 := by
  have names : "state".length = 5 ∧ "reason".length = 6 ∧ "evidence".length = 8 := by decide
  simp only [Completeness.json, length_record, recordLength, names.1, names.2.1, names.2.2, Value.length]
  omega

theorem finalSnapshot_length (candidate : ProviderCandidate) (content : SourceRead) (decoded : Decoded) (sourceFormat : Text)
    (parse : Parse) (tracks : List ProviderTrack) :
    (finalSnapshot (baseSnapshot candidate content decoded sourceFormat parse) parse tracks).dumpLength ≤
      (baseSnapshot candidate content decoded sourceFormat parse).dumpLength + tracksLength tracks := by
  have shape := dumpLength_with (baseSnapshot candidate content decoded sourceFormat parse) tracks
    { state := if completeParse parse then .complete else .incomplete
      reason := if completeParse parse then completeReason else incompleteReason
      evidence := boundedEvidence (parse.errors ++ parse.warnings) }
    ((baseSnapshot candidate content decoded sourceFormat parse).sectionScanComplete && !capped parse) rfl
  have shorter : ∀ state : Bool, textLength (str (if state then CompletenessState.complete else .incomplete).value) +
      textLength (if state then completeReason else incompleteReason) ≤
      textLength (str CompletenessState.incomplete.value) + textLength incompleteReason := by decide
  have less := shorter (completeParse parse)
  have scan : ((baseSnapshot candidate content decoded sourceFormat parse).sectionScanComplete && !capped parse) =
      (baseSnapshot candidate content decoded sourceFormat parse).sectionScanComplete := by
    simp only [baseSnapshot]
    cases capped parse with
    | true => simp
    | false => simp
  have tracksBound := listLength_tracks tracks
  have base : (baseSnapshot candidate content decoded sourceFormat parse).completeness.json.length =
      textLength (str CompletenessState.incomplete.value) + textLength incompleteReason +
        (texts (boundedEvidence (parse.errors ++ parse.warnings))).length + 32 := completeness_length _ _ _
  rw [base, completeness_length, scan] at shape
  rw [finalSnapshot, scan]
  omega

-- A complete parse has no errors and every section is complete.
theorem completeParse_iff : completeParse parse = true ↔
    parse.errors = [] ∧ ∀ part ∈ parse.sections, part.completeness.state = .complete := by
  simp [completeParse]

theorem outcomeOf_ok {snapshot : Snapshot} (given : Given candidate content decoded sourceFormat)
    (valid : snapshot.validate = .ok ())
    (state : snapshot.completeness.state = if completeParse parse then .complete else .incomplete)
    (filled : completeParse parse = true → snapshot.tracks ≠ []) :
    LoadOutcome.build (outcomeOf content parse snapshot) = .ok (outcomeOf content parse snapshot) := by
  have contentFits := given.content
  simp only [SourceRead.valid, Bool.and_eq_true] at contentFits
  obtain ⟨⟨⟨⟨⟨⟨-, scope⟩, -⟩, -⟩, -⟩, -⟩, -⟩ := contentFits
  have codes : fits 4096 (str "parsed_local_tracklist") = true ∧ fits 4096 (str "partial_local_tracklist") = true := by decide
  apply build_ok
  · have code : fits 4096 (outcomeOf content parse snapshot).code = true := by
      rw [outcomeOf]
      dsimp only
      split
      · exact codes.1
      · exact codes.2
    simp only [Bool.and_eq_true]
    exact ⟨⟨⟨code, scope⟩, rfl⟩, rfl⟩
  · exact valid
  · cases complete : completeParse parse with
    | true =>
      simp only [complete, if_true] at state
      have some := filled complete
      simp [LoadOutcome.validateFound, outcomeOf, complete, state, some, bind_require]
    | false =>
      simp only [complete] at state
      simp [LoadOutcome.validateFound, outcomeOf, complete, state, bind_require]

-- The rest of the snapshot is that of the parse before the output was found to be full.
theorem finalSnapshot_ok (given : Given candidate content decoded sourceFormat) (sound : parse.Sound budget)
    (atMost : budget.maxTracks ≤ 4096) (count : Nat) {later : Parse} (plain : AllPlain (later.errors ++ later.warnings))
    (small : (finalSnapshot (baseSnapshot candidate content decoded sourceFormat parse) later
      ((parse.rows.take count).map trackOf)).dumpLength ≤ 4 * 1024 * 1024) :
    (finalSnapshot (baseSnapshot candidate content decoded sourceFormat parse) later
      ((parse.rows.take count).map trackOf)).validate = .ok () := by
  have reasons : ∀ complete : Bool, fits 4096 (if complete then completeReason else incompleteReason) = true := by decide
  exact snapshot_ok given sound atMost count _ (completeness_fits (reasons (completeParse later)) plain) small

theorem finish_whole (given : Given candidate content decoded sourceFormat) (sound : parse.Sound budget)
    (atMost : budget.maxTracks ≤ 4096) (reported : parse.rows = [] → parse.errors ≠ [])
    (room : (baseSnapshot candidate content decoded sourceFormat parse).dumpLength + tracksLength (parse.rows.map trackOf) ≤ outputCap) :
    finish candidate content decoded sourceFormat parse =
      .ok (outcomeOf content parse
        (finalSnapshot (baseSnapshot candidate content decoded sourceFormat parse) parse (parse.rows.map trackOf))) := by
  have cap : outputCap ≤ 4 * 1024 * 1024 := by decide
  have base := baseSnapshot_ok given sound atMost (by omega)
  have read := tracksFrom_all sound.kept.rows room
  have length := finalSnapshot_length candidate content decoded sourceFormat parse (parse.rows.map trackOf)
  have final := finalSnapshot_ok given sound atMost parse.rows.length (sound.kept.errors.append sound.kept.warnings)
    (by rw [List.take_length]; omega)
  rw [List.take_length] at final
  have built : LoadOutcome.build (outcomeOf content parse
      (finalSnapshot (baseSnapshot candidate content decoded sourceFormat parse) parse (parse.rows.map trackOf))) =
      .ok (outcomeOf content parse
        (finalSnapshot (baseSnapshot candidate content decoded sourceFormat parse) parse (parse.rows.map trackOf))) := by
    apply outcomeOf_ok given final rfl
    intro complete empty
    exact reported (List.map_eq_nil_iff.mp empty) (completeParse_iff.mp complete).1
  rw [finish]
  simp only [base, read, bind, Except.bind, Option.elim_none, final]
  exact built

/-! ## The text that is read -/

theorem fitBytes_initial (limit : Nat) (text : Text) : fitBytes limit text <+: text := by
  induction text generalizing limit with
  | nil => exact List.prefix_refl []
  | cons point rest ih =>
    rw [fitBytes]
    split
    · exact (List.prefix_cons_inj point).mpr (ih _)
    · exact List.nil_prefix

theorem decode_sublist (content : SourceRead) (contentText : Text) (budget : LoadBudget) :
    (decode content contentText budget).text.Sublist contentText := by
  rw [decode]
  dsimp only
  split
  · exact (fitBytes_initial _ _).sublist.trans (List.take_sublist _ _)
  · exact List.take_sublist _ _

theorem splitlinesFrom_sublist {returned : Bool} {text line : Text} (member : line ∈ splitlinesFrom returned text) :
    line.Sublist text := by
  induction text generalizing returned line with
  | nil => cases member
  | cons point rest ih =>
    rw [splitlinesFrom] at member
    split at member
    · exact (ih member).cons point
    · split at member
      · obtain rfl | later := List.mem_cons.mp member
        · exact List.nil_sublist _
        · exact (ih later).cons point
      · split at member
        next empty =>
          rw [List.mem_singleton.mp member]
          exact (List.nil_sublist rest).cons_cons point
        next first others same =>
          obtain rfl | later := List.mem_cons.mp member
          · exact (ih (same ▸ List.mem_cons_self)).cons_cons point
          · exact (ih (same ▸ List.mem_cons_of_mem _ later)).cons point

theorem removeMark_sublist (text : Text) : (removeMark text).Sublist text := by
  cases text with
  | nil => exact List.Sublist.refl _
  | cons point rest =>
    rw [removeMark]
    split
    · exact List.sublist_cons_self point rest
    · exact List.Sublist.refl _

theorem decode_lines (content : SourceRead) {contentText : Text} (budget : LoadBudget) (plain : Plain contentText) :
    AllPlain (decode content contentText budget).lines ∧ (decode content contentText budget).lines.length ≤ budget.maxLines := by
  have kept := plain.sublist (decode_sublist content contentText budget)
  constructor
  · intro line member
    have inside : line ∈ splitlines (removeMark (decode content contentText budget).text) := by
      have taken := List.mem_of_mem_take member
      by_cases cut : ((decode content contentText budget).partly && (decode content contentText budget).text ≠ [] &&
          !endsLine (decode content contentText budget).text) = true
      · exact List.mem_of_mem_dropLast ((if_pos cut).subst (motive := fun lines => line ∈ lines) taken)
      · exact (if_neg cut).subst (motive := fun lines => line ∈ lines) taken
    exact kept.sublist ((splitlinesFrom_sublist inside).trans (removeMark_sublist _))
  · rw [decode]
    exact List.length_take_le _ _

theorem interpret_parsed {isWord : CodePoint → Bool} {originKey : SourceIdentity → Text} {source : SourceReference} {contentText : Text}
    (candidateValid : candidate.valid = true) (contentValid : content.valid = true) (budgetValid : budget.valid = true)
    (sourced : candidate.source = some source) (text : content.text = some contentText)
    (status : content.status = .found ∨ content.status = .incomplete) (format : sourceFormatOf source ∈ sourceFormats) :
    interpret isWord originKey candidate content budget =
      finish candidate content (decode content contentText budget) (sourceFormatOf source)
        (readParse isWord originKey candidate content contentText budget (sourceFormatOf source)) := by
  have known : ¬ (content.status ≠ .found ∧ content.status ≠ .incomplete) := fun neither =>
    status.elim neither.1 neither.2
  rw [interpret]
  simp only [candidateValid, contentValid, budgetValid, require, if_true, bind, Except.bind, sourced, text]
  rw [if_neg known, if_neg (fun absent => absent format)]

theorem given_of {source : SourceReference} {contentText : Text} (candidateValid : candidate.valid = true)
    (contentValid : content.valid = true) (text : content.text = some contentText) (format : sourceFormatOf source ∈ sourceFormats) :
    Given candidate content (decode content contentText budget) (sourceFormatOf source) := by
  have contentFits := contentValid
  simp only [SourceRead.valid, Bool.and_eq_true, text, Option.all_some] at contentFits
  exact ⟨candidateValid, contentValid, fits_sublist contentFits.1.1.1.2 (decode_sublist _ _ _), format⟩

theorem noteEmpty_reported (parse : Parse) (empty : (noteEmpty parse).rows = []) : (noteEmpty parse).errors ≠ [] := by
  rw [noteEmpty] at empty ⊢
  split
  · exact reject_errors_ne_nil _ _ _
  next filled =>
    rw [if_neg filled] at empty
    exact absurd empty filled

theorem noteEmpty_sound (sound : parse.Sound budget) : (noteEmpty parse).Sound budget := by
  rw [noteEmpty]
  split
  · exact sound.reject 0 (plain_str _)
  · exact sound

theorem noteLimits_sound (sound : parse.Sound budget) : (noteLimits content decoded parse).Sound budget := by
  rw [noteLimits]
  split
  · exact sound.reject 0 (plain_str _)
  · exact sound

end Phaze.Tracklist
