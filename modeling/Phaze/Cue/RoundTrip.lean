import Phaze.Cue.Records

set_option autoImplicit false

/-!
# Generated sheets read back

The rows that the local parser makes of a generated sheet, and the snapshot that comes of them.
-/

namespace Phaze.Cue

open Phaze.Guards Phaze.Percent Phaze.Unicode Phaze.Tracklist

/-! ## Runs over lines -/

def run (budget : LoadBudget) (originKey : Text) (state : CueState) (start : Nat) (lines : List Str) : CueState :=
  (lines.zipIdx start).foldl (cueStep budget originKey) state

variable {budget : LoadBudget} {originKey : Text} {state : CueState} {start : Nat}

theorem run_nil : run budget originKey state start [] = state := rfl

theorem run_cons (line : Str) (rest : List Str) :
    run budget originKey state start (line :: rest) =
      run budget originKey (cueStep budget originKey state (line, start)) (start + 1) rest := by
  rw [run, List.zipIdx_cons, List.foldl_cons]
  rfl

theorem run_append (lines others : List Str) :
    run budget originKey state start (lines ++ others) =
      run budget originKey (run budget originKey state start lines) (start + lines.length) others := by
  rw [run, List.zipIdx_append, List.foldl_append]
  rfl

def Short (lines : List Str) : Prop := ∀ line ∈ lines, (strip line).length ≤ 4096

theorem Short.left {lines others : List Str} (short : Short (lines ++ others)) : Short lines :=
  fun line member => short line (List.mem_append_left _ member)

theorem Short.right {lines others : List Str} (short : Short (lines ++ others)) : Short others :=
  fun line member => short line (List.mem_append_right _ member)

/-! ## One record -/

-- What a reader makes of a field that was written for a value.
def readBack (value : Option Str) : Option Str := known (value.map cueQuote)

def working (state : CueState) (row : Row) : CueState :=
  { state with
    parse := { state.parse with rows := state.parse.rows ++ [row] }
    current := true, seenTrack := true, fileFirstTrack := false }

theorem working_current (state : CueState) (row : Row) : (working state row).currentRow = some row := by
  rw [CueState.currentRow, working]
  simp

theorem working_onCurrent (state : CueState) (row : Row) (change : Row → Row) :
    (working state row).onCurrent change = working state (change row) := by
  simp only [CueState.onCurrent, Parse.onLast, working, List.modifyLast_concat]

theorem run_comments {before : String} (listed : before ∈ ["    REM GENRE \"", "    REM LABEL \"", "    REM YEAR \""])
    (value : Option Str) (short : Short (quotedLine before value)) :
    run budget originKey state start (quotedLine before value) = state := by
  cases value with
  | none => rfl
  | some value =>
    rw [quotedLine] at short ⊢
    split
    · rfl
    next filled =>
      rw [if_neg filled] at short
      rw [run_cons, cueStep_release listed (cueQuote_clean value) (short _ List.mem_cons_self), run_nil]

theorem run_year (year : Option Int) (short : Short (yearLine year)) :
    run budget originKey state start (yearLine year) = state := by
  cases year with
  | none => rfl
  | some year =>
    rw [yearLine] at short ⊢
    split
    · rfl
    next filled =>
      rw [if_neg filled] at short
      rw [run_cons, cueStep_release (by decide) (printInt_clean year) (short _ List.mem_cons_self), run_nil]

-- A row with a value of its own in a field.
def nameTitle (row : Row) (line : Nat) (value : Option Str) : Row :=
  match value with
  | none => row
  | some value =>
      if value = [] then row
      else
        { row with
          title := known (some (cueQuote value)), fields := row.fields ++ ["TITLE"]
          evidence := row.evidence ++ [lineTag line ++ str ":" ++ str "TITLE"] }

def namePerformer (row : Row) (line : Nat) (value : Option Str) : Row :=
  match value with
  | none => row
  | some value =>
      if value = [] then row
      else
        { row with
          artist := known (some (cueQuote value)), fields := row.fields ++ ["PERFORMER"]
          evidence := row.evidence ++ [lineTag line ++ str ":" ++ str "PERFORMER"] }

theorem run_title {row : Row} (value : Option Str) (fresh : "TITLE" ∉ row.fields) (short : Short (quotedLine "    TITLE \"" value)) :
    run budget originKey (working state row) start (quotedLine "    TITLE \"" value) = working state (nameTitle row start value) := by
  cases value with
  | none => rfl
  | some value =>
    rw [quotedLine] at short ⊢
    rw [nameTitle]
    split
    · rfl
    next filled =>
      rw [if_neg filled] at short
      rw [run_cons, cueStep_title (cueQuote_clean value) (short _ List.mem_cons_self), run_nil, cueName,
        cueValue_inner (cueQuote_clean value)]
      simp only [working_current, if_neg fresh, working_onCurrent]
      rfl

theorem run_performer {row : Row} (value : Option Str) (fresh : "PERFORMER" ∉ row.fields)
    (short : Short (quotedLine "    PERFORMER \"" value)) :
    run budget originKey (working state row) start (quotedLine "    PERFORMER \"" value) =
      working state (namePerformer row start value) := by
  cases value with
  | none => rfl
  | some value =>
    rw [quotedLine] at short ⊢
    rw [namePerformer]
    split
    · rfl
    next filled =>
      rw [if_neg filled] at short
      rw [run_cons, cueStep_performer (cueQuote_clean value) (short _ List.mem_cons_self), run_nil, cueName,
        cueValue_inner (cueQuote_clean value)]
      simp only [working_current, if_neg fresh, working_onCurrent]
      rfl

-- The frames of a time.
def framesOf (track : CueTrackData) : Nat := ⌊75 * track.timestampSeconds.getD 0⌋.toNat

-- The row of a written track, but for its evidence.
structure Written (origin : Text) (track : CueTrackData) (number : Nat) (row : Row) : Prop where
  position : row.position = number
  title : row.title = readBack track.title
  artist : row.artist = readBack track.artist
  unperformed : "PERFORMER" ∉ row.fields → row.artist = none
  timestamp : ∃ line, row.timestamp = some (cueFrameStamp (framesOf track) line (stampText (framesOf track)) (some origin) true)
  plain : row.label = none ∧ row.remix = none ∧ row.mashup = false ∧ row.sectionOrdinal = none

-- Between two records of a sheet: one file, and rows that keep below a number.
structure Ready (originKey : Text) (state : CueState) : Prop where
  origin : state.fileOrigin = some (str "cue:" ++ originKey ++ str ":file:" ++ digits 1)
  one : state.fileCount = 1
  offset : state.filePositionOffset = 0

def originOf (originKey : Text) : Text := str "cue:" ++ originKey ++ str ":file:" ++ digits 1

def trackRow (state : CueState) (originKey : Text) (number line : Nat) : Row :=
  { number, line, position := number, origin := some (originOf originKey)
    evidence := [lineTag line, str "declared_position:" ++ digits number] ++ state.fileEvidence.toList }

theorem cueTrack_ready {number line : Nat} (ready : Ready originKey state) (above : lastPosition state.parse < number)
    (small : number < 10 ^ 4) (room : state.parse.rows.length < budget.maxTracks) :
    cueTrack budget (printTwo number ++ str " AUDIO") line state = working state (trackRow state originKey number line) := by
  have offset : state.trackOffset number = 0 := by
    rw [CueState.trackOffset, ready.one, ready.offset]
    simp
  have added : state.parse.add number line budget number =
      ({ state.parse with rows := state.parse.rows ++
        [{ number, line, position := number, evidence := [lineTag line, str "declared_position:" ++ digits number] }] }, true) := by
    rw [Parse.add, if_neg (Nat.not_le_of_lt room)]
    simp [Nat.not_le_of_lt above]
  rw [cueTrack, cueTrackNumber_written small]
  simp only [offset, Nat.zero_add, added, ready.origin, Bool.true_eq_false, if_false, Option.isNone_some, Bool.false_eq_true]
  simp only [CueState.onCurrent, Parse.onLast, List.modifyLast_concat]
  rw [← ready.origin]
  simp only [working, trackRow, originOf, ready.origin, ready.offset]

theorem stampText_spot {frames : Nat} (small : frames < 75 * 60 * 10 ^ 6) :
    cueIndex (str "01 " ++ stampText frames) =
      some { index := str "01", minutes := printTwo (frames / 75 / 60 : Nat), seconds := printTwo (frames / 75 % 60 : Nat)
             frames := printTwo (frames % 75 : Nat) } :=
  cueIndex_written (by omega) (by omega) (by omega)

theorem number_printTwo (value : Nat) : Tracklist.number (printTwo value) = value := by
  rw [Tracklist.number, parseDecimal_printTwo]
  rfl

def reachedAt (state : CueState) (originKey : Text) (frames : Nat) : CueState :=
  { state with offsets := (originOf originKey, max (offsetOf (originOf originKey) state.offsets) frames) :: state.offsets }

def stampRow (row : Row) (originKey : Text) (line frames : Nat) : Row :=
  { row.note (lineTag line ++ str ":INDEX" ++ str "01" ++ str ":" ++ stampText frames) with
    timestamp := some (cueFrameStamp frames line (stampText frames) (some (originOf originKey)) true) }

theorem cueIndexLine_working {row : Row} {frames line : Nat} (small : frames < 75 * 60 * 10 ^ 6) (untimed : row.timestamp = none)
    (origin : row.origin = some (originOf originKey)) (ahead : offsetOf (originOf originKey) state.offsets ≤ frames) :
    cueIndexLine (str "01 " ++ stampText frames) line (working state row) =
      working (reachedAt state originKey frames) (stampRow row originKey line frames) := by
  have total : frames / 75 / 60 * 60 * 75 + frames / 75 % 60 * 75 + frames % 75 = frames := by omega
  have seconds : ¬ frames / 75 % 60 > 59 := by omega
  have rest : ¬ frames % 75 > 74 := by omega
  have forward : ¬ frames < offsetOf (originOf originKey) state.offsets := Nat.not_lt_of_le ahead
  have offsets : (working state row).offsets = state.offsets := rfl
  rw [cueIndexLine, working_current, stampText_spot small]
  simp only [number_printTwo, if_neg seconds, if_neg rest, lastWord_stamp, working_onCurrent]
  rw [cueGoodFrames]
  simp only [number_printTwo, total, ne_eq, not_true_eq_false, if_false, untimed, Option.isSome_none, Bool.false_eq_true, origin]
  have moved : (working state (row.note (lineTag line ++ str ":INDEX" ++ str "01" ++ str ":" ++ stampText frames))).offsets =
      state.offsets := rfl
  simp only [moved, decide_false, forward, if_false, Bool.not_false]
  exact working_onCurrent (reachedAt state originKey frames) _ _

-- A row that has been given a title and a performer, with everything else as it was.
structure Filled (title artist : Option Str) (row filled : Row) : Prop where
  title : filled.title = readBack title
  artist : filled.artist = readBack artist
  unperformed : "PERFORMER" ∉ filled.fields → filled.artist = none
  position : filled.position = row.position
  timestamp : filled.timestamp = row.timestamp
  origin : filled.origin = row.origin
  label : filled.label = row.label
  remix : filled.remix = row.remix
  mashup : filled.mashup = row.mashup
  ordinal : filled.sectionOrdinal = row.sectionOrdinal

theorem readBack_nil : readBack (some []) = none := by decide

theorem nameTitle_fields (row : Row) (line : Nat) (value : Option Str) :
    "PERFORMER" ∈ (nameTitle row line value).fields ↔ "PERFORMER" ∈ row.fields := by
  cases value with
  | none => exact Iff.rfl
  | some value =>
    rw [nameTitle]
    split
    · exact Iff.rfl
    · simp

theorem nameTitle_filled {row : Row} (line : Nat) (value : Option Str) (title : row.title = none) (artist : row.artist = none) :
    Filled value none row (nameTitle row line value) := by
  have same : ∀ {value : Option Str}, readBack value = none → Filled value none row row := fun nothing =>
    ⟨title.trans nothing.symm, artist, fun _ => artist, rfl, rfl, rfl, rfl, rfl, rfl, rfl⟩
  cases value with
  | none => exact same rfl
  | some value =>
    rw [nameTitle]
    split
    next empty => exact same (by rw [empty, readBack_nil])
    next => exact ⟨rfl, artist, fun _ => artist, rfl, rfl, rfl, rfl, rfl, rfl, rfl⟩

theorem namePerformer_filled {row titled : Row} {title : Option Str} (line : Nat) (value : Option Str)
    (filled : Filled title none row titled) : Filled title value row (namePerformer titled line value) := by
  have blankArtist : titled.artist = none := filled.artist
  have same : ∀ {value : Option Str}, readBack value = none → Filled title value row titled := fun nothing =>
    { filled with artist := blankArtist.trans nothing.symm, unperformed := fun _ => blankArtist }
  cases value with
  | none => exact same rfl
  | some value =>
    rw [namePerformer]
    split
    next empty => exact same (by rw [empty, readBack_nil])
    next =>
      have listed : "PERFORMER" ∈ titled.fields ++ ["PERFORMER"] := List.mem_append_right _ (List.mem_singleton_self _)
      exact { filled with artist := rfl, unperformed := fun absent => absurd listed absent }

theorem run_fields {track : CueTrackData} {row : Row} (start : Nat) (fields : row.fields = []) (title : row.title = none)
    (artist : row.artist = none) (short : Short (fieldLines track)) :
    ∃ filled, run budget originKey (working state row) start (fieldLines track) = working state filled ∧
      Filled track.title track.artist row filled := by
  rw [fieldLines] at short ⊢
  have untitled : "TITLE" ∉ row.fields := by rw [fields]; simp
  apply Exists.intro
  constructor
  · rw [run_append, run_append, run_append, run_append, run_comments (by decide) track.genre short.left.left.left.left,
      run_comments (by decide) track.label short.left.left.left.right, run_year track.year short.left.left.right,
      run_title track.title untitled short.left.right]
    apply run_performer track.artist _ short.right
    rw [nameTitle_fields, fields]
    simp
  · exact namePerformer_filled _ track.artist (nameTitle_filled _ track.title title artist)

theorem run_record {track : CueTrackData} {time : ℚ} {number : Nat} (ready : Ready originKey state)
    (above : lastPosition state.parse < number) (few : number < 10 ^ 4) (room : state.parse.rows.length < budget.maxTracks)
    (timed : track.timestampSeconds = some time) (started : 0 ≤ time) (small : framesOf track < 75 * 60 * 10 ^ 6)
    (ahead : offsetOf (originOf originKey) state.offsets ≤ framesOf track) (short : Short (cueTrackRecord number track)) :
    ∃ row, run budget originKey state start (cueTrackRecord number track) =
        working (reachedAt state originKey (framesOf track)) row ∧
      Written (originOf originKey) track number row := by
  have frames : framesOf track = ⌊75 * time⌋.toNat := by rw [framesOf, timed, Option.getD_some]
  rw [cueTrackRecord_eq, timed, Option.toList_some, List.map_singleton] at short ⊢
  rw [← List.singleton_append] at short
  have last := short.right.right _ (List.mem_singleton_self _)
  have untouched : (trackRow state originKey number start).fields = [] := rfl
  obtain ⟨filled, ran, facts⟩ : ∃ filled,
      run budget originKey (working state (trackRow state originKey number start)) (start + 1) (fieldLines track) =
        working state filled ∧ Filled track.title track.artist (trackRow state originKey number start) filled :=
    run_fields (start + 1) untouched rfl rfl short.right.left
  have origin : filled.origin = some (originOf originKey) := facts.origin
  rw [run_cons, cueStep_track (short.left _ (List.mem_singleton_self _)), cueTrack_ready ready above few room, run_append, ran, run_cons,
    cueStep_index started last, ← frames, cueIndexLine_working small facts.timestamp origin ahead, run_nil]
  refine ⟨_, rfl, ?_⟩
  exact
    { position := facts.position
      title := facts.title
      artist := facts.artist
      unperformed := facts.unperformed
      timestamp := ⟨_, rfl⟩
      plain := ⟨facts.label, facts.remix, facts.mashup, facts.ordinal⟩ }

/-! ## The records of a sheet -/

def WrittenRows (origin : Text) (entries : List (CueTrackData × Nat)) (rows : List Row) : Prop :=
  List.Forall₂ (fun entry row => Written origin entry.1 entry.2 row) entries rows

-- Between two records: a row for each track so far, and nothing amiss.
structure Between (originKey : Text) (state : CueState) (done : List CueTrackData) : Prop where
  ready : Ready originKey state
  rows : WrittenRows (originOf originKey) (done.zipIdx 1) state.parse.rows
  last : lastPosition state.parse = done.length
  errors : state.parse.errors = []
  warnings : state.parse.warnings = []
  artist : state.parse.artist = none
  artistEvidence : state.parse.artistEvidence = []
  sections : state.parse.sections = []
  reached : ∀ bound, (∀ track ∈ done, framesOf track ≤ bound) → offsetOf (originOf originKey) state.offsets ≤ bound

def recordLines (number : Nat) (tracks : List CueTrackData) : List Str :=
  (tracks.zipIdx number).flatMap fun entry => cueTrackRecord entry.2 entry.1

-- A track with a time that an index line can hold.
def Timed (track : CueTrackData) : Prop := ∃ time, track.timestampSeconds = some time ∧ 0 ≤ time ∧ time < 60 * 10 ^ 6

theorem Timed.frames {track : CueTrackData} (timed : Timed track) : framesOf track < 75 * 60 * 10 ^ 6 := by
  obtain ⟨time, same, started, bounded⟩ := timed
  rw [framesOf, same, Option.getD_some]
  have floor : ⌊75 * time⌋ < 75 * 60 * 10 ^ 6 := by
    rw [Int.floor_lt]
    push_cast
    linarith
  omega

theorem framesOf_mono {track other : CueTrackData} (before : track.timestampSeconds.getD 0 ≤ other.timestampSeconds.getD 0) :
    framesOf track ≤ framesOf other := by
  apply Int.toNat_le_toNat
  apply Int.floor_le_floor
  linarith

theorem Between.next {done : List CueTrackData} {track : CueTrackData} (between : Between originKey state done) (timed : Timed track)
    (room : done.length < budget.maxTracks) (few : budget.maxTracks ≤ 4096) (after : ∀ other ∈ done, framesOf other ≤ framesOf track)
    (short : Short (cueTrackRecord (done.length + 1) track)) :
    Between originKey (run budget originKey state start (cueTrackRecord (done.length + 1) track)) (done ++ [track]) := by
  have small := timed.frames
  obtain ⟨time, same, started, -⟩ := timed
  have length : state.parse.rows.length = done.length := by
    have both := between.rows.length_eq
    rw [List.length_zipIdx] at both
    exact both.symm
  obtain ⟨row, ran, written⟩ : ∃ row, run budget originKey state start (cueTrackRecord (done.length + 1) track) =
      working (reachedAt state originKey (framesOf track)) row ∧ Written (originOf originKey) track (done.length + 1) row :=
    run_record between.ready (between.last ▸ Nat.lt_succ_self _) (by omega) (length ▸ room) same started small
      (between.reached _ after) short
  have rows : state.parse.rows ++ [row] = (working (reachedAt state originKey (framesOf track)) row).parse.rows := rfl
  rw [ran]
  exact
    { ready := ⟨between.ready.origin, between.ready.one, between.ready.offset⟩
      rows := by
        rw [← rows, List.zipIdx_append, Nat.add_comm]
        exact List.rel_append between.rows (.cons written .nil)
      last := by
        rw [last_position rows.symm, written.position, List.length_append, List.length_singleton]
      errors := between.errors
      warnings := between.warnings
      artist := between.artist
      artistEvidence := between.artistEvidence
      sections := between.sections
      reached := by
        intro bound below
        have earlier := between.reached bound fun other member => below other (List.mem_append_left _ member)
        have own := below track (List.mem_append_right _ (List.mem_singleton_self _))
        have stored : offsetOf (originOf originKey) (working (reachedAt state originKey (framesOf track)) row).offsets =
            max (offsetOf (originOf originKey) state.offsets) (framesOf track) := by
          show offsetOf _ (_ :: _) = _
          rw [offsetOf_cons, if_pos rfl]
        rw [stored]
        exact Nat.max_le.mpr ⟨earlier, own⟩ }

theorem run_records {rest done : List CueTrackData} (between : Between originKey state done) (timed : ∀ track ∈ rest, Timed track)
    (room : (done ++ rest).length ≤ budget.maxTracks) (few : budget.maxTracks ≤ 4096)
    (ordered : (done ++ rest).Pairwise fun track other => framesOf track ≤ framesOf other)
    (short : Short (recordLines (done.length + 1) rest)) :
    Between originKey (run budget originKey state start (recordLines (done.length + 1) rest)) (done ++ rest) := by
  induction rest generalizing done state start with
  | nil =>
    rw [recordLines, List.zipIdx_nil, List.flatMap_nil, run_nil, List.append_nil]
    exact between
  | cons track rest ih =>
    rw [recordLines, List.zipIdx_cons, List.flatMap_cons] at short ⊢
    have shape : done ++ track :: rest = (done ++ [track]) ++ rest := by simp
    have length : (done ++ [track]).length = done.length + 1 := by simp
    have after : ∀ other ∈ done, framesOf other ≤ framesOf track := fun other member =>
      (List.pairwise_append.mp ordered).2.2 other member track List.mem_cons_self
    rw [shape] at room ordered ⊢
    have fits : done.length < budget.maxTracks := by
      rw [List.length_append, length] at room
      omega
    have next : Between originKey (run budget originKey state start (cueTrackRecord (done.length + 1) track)) (done ++ [track]) :=
      between.next (timed track List.mem_cons_self) fits few after short.left
    have later : ∀ after, Between originKey
        (run budget originKey (run budget originKey state start (cueTrackRecord (done.length + 1) track)) after
          (recordLines ((done ++ [track]).length + 1) rest)) (done ++ [track] ++ rest) := fun _ =>
      ih next (fun other member => timed other (List.mem_cons_of_mem _ member)) room ordered (length ▸ short.right)
    rw [run_append]
    rw [length] at later
    exact later _

theorem between_initial (audioFilename fileType : Str)
    (short : Short [str "REM COMMENT \"Generated by Phaze\"", fileLine audioFilename fileType]) :
    Between originKey (run budget originKey {} 1 [str "REM COMMENT \"Generated by Phaze\"", fileLine audioFilename fileType]) [] := by
  have inner : Inner (cueQuote audioFilename) := cueQuote_clean audioFilename
  have kind := cueType_kind fileType
  rw [run_cons, cueStep_comment (short _ List.mem_cons_self), run_cons,
    cueStep_file (short _ (List.mem_cons_of_mem _ (List.mem_singleton_self _))), run_nil, cueFile,
    cueFileName_written inner kind.1 kind.2]
  exact
    { ready := ⟨rfl, rfl, rfl⟩
      rows := .nil
      last := rfl
      errors := rfl
      warnings := rfl
      artist := rfl
      artistEvidence := rfl
      sections := rfl
      reached := fun _ _ => Nat.zero_le _ }

theorem inherit_written {origin : Text} {entry : CueTrackData × Nat} {row : Row} {parse : Parse} (artist : parse.artist = none)
    (written : Written origin entry.1 entry.2 row) : Written origin entry.1 entry.2 (inherit parse row) := by
  rw [inherit]
  split
  · exact written
  next absent =>
    have blankArtist := written.unperformed absent
    exact { written with artist := artist.trans (blankArtist.symm.trans written.artist), unperformed := fun _ => artist }

theorem cue_written {audioFilename fileType : Str} {tracks : List CueTrackData} (timed : ∀ track ∈ validTracks tracks, Timed track)
    (room : (validTracks tracks).length ≤ budget.maxTracks) (few : budget.maxTracks ≤ 4096)
    (ordered : (validTracks tracks).Pairwise fun track other => framesOf track ≤ framesOf other)
    (short : Short (sheetLines audioFilename fileType tracks)) :
    WrittenRows (originOf originKey) ((validTracks tracks).zipIdx 1) (cue (sheetLines audioFilename fileType tracks) budget originKey).rows ∧
      (cue (sheetLines audioFilename fileType tracks) budget originKey).errors = [] ∧
      (cue (sheetLines audioFilename fileType tracks) budget originKey).warnings = [] ∧
      (cue (sheetLines audioFilename fileType tracks) budget originKey).sections = [] := by
  have initial : Between originKey
      (run budget originKey {} 1 [str "REM COMMENT \"Generated by Phaze\"", fileLine audioFilename fileType]) [] :=
    between_initial audioFilename fileType short.left
  have all : Between originKey (run budget originKey {} 1 (sheetLines audioFilename fileType tracks)) (validTracks tracks) := by
    rw [sheetLines, run_append]
    exact run_records initial timed room few ordered short.right
  have whole : cue (sheetLines audioFilename fileType tracks) budget originKey =
      { (run budget originKey {} 1 (sheetLines audioFilename fileType tracks)).parse with
        rows := (run budget originKey {} 1 (sheetLines audioFilename fileType tracks)).parse.rows.map
          (inherit (run budget originKey {} 1 (sheetLines audioFilename fileType tracks)).parse) } := rfl
  rw [whole]
  refine ⟨?_, all.errors, all.warnings, all.sections⟩
  rw [WrittenRows, List.forall₂_map_right_iff]
  exact all.rows.imp fun entry row written => inherit_written all.artist written

/-! ## The sheet as a source -/

-- A sheet that is read whole: no line is overlong or broken, every time fits an index line, and no limit is reached.
structure Readable (originKey : SourceIdentity → Text) (candidate : ProviderCandidate) (content : SourceRead) (budget : LoadBudget)
    (audioFilename fileType : Str) (tracks : List CueTrackData) : Prop where
  candidateValid : candidate.valid = true
  contentValid : content.valid = true
  budgetValid : budget.valid = true
  source : ∃ source, candidate.source = some source ∧ sourceFormatOf source = str "cue"
  status : content.status = .found
  whole : content.truncated = false
  text : content.text = some (generateCueContent audioFilename fileType tracks)
  characters : (generateCueContent audioFilename fileType tracks).length ≤ budget.maxCharacters
  bytes : utf8Length (generateCueContent audioFilename fileType tracks) ≤ budget.maxBytes
  bytesRead : content.bytesRead ≤ budget.maxBytes
  lines : (sheetLines audioFilename fileType tracks).length ≤ budget.maxLines
  maxTracks : (validTracks tracks).length ≤ budget.maxTracks
  filled : validTracks tracks ≠ []
  timed : ∀ track ∈ validTracks tracks, Timed track
  ordered : (validTracks tracks).Pairwise fun track other => track.timestampSeconds.getD 0 ≤ other.timestampSeconds.getD 0
  unbroken : ∀ point ∈ generateCueContent audioFilename fileType tracks, isLineBreak point = true → point = newline
  short : Short (sheetLines audioFilename fileType tracks)
  output : (baseSnapshot candidate content (decode content (generateCueContent audioFilename fileType tracks) budget) (str "cue")
      (cue (sheetLines audioFilename fileType tracks) budget (originKey candidate.identity))).dumpLength +
    tracksLength ((cue (sheetLines audioFilename fileType tracks) budget (originKey candidate.identity)).rows.map trackOf) ≤ outputCap

-- What a reader is given for a track of a sheet.
structure ReadsBack (origin : Text) (track : CueTrackData) (number : Nat) (read : ProviderTrack) : Prop where
  position : read.position = number
  title : read.title = readBack track.title
  artist : read.artist = readBack track.artist
  offset : ∃ stamp offset, read.timestamp = some stamp ∧ stamp.offset = some offset ∧ stamp.origin = some origin ∧
    stamp.offsetUsability = .qualified ∧ offset.asFraction = (⌊75 * track.timestampSeconds.getD 0⌋ : ℚ) / 75

theorem Written.reads {origin : Text} {track : CueTrackData} {number : Nat} {row : Row} (written : Written origin track number row)
    (timed : Timed track) : ReadsBack origin track number (trackOf row) := by
  obtain ⟨line, stamped⟩ := written.timestamp
  obtain ⟨time, same, started, -⟩ := timed
  have positive : 0 ≤ ⌊75 * time⌋ := Int.floor_nonneg.mpr (by linarith)
  have frames : ((framesOf track : Nat) : ℚ) = (⌊75 * track.timestampSeconds.getD 0⌋ : ℚ) := by
    rw [framesOf, same, Option.getD_some]
    exact_mod_cast Int.toNat_of_nonneg positive
  have offset : RationalOffset.asFraction { numerator := framesOf track, denominator := 75, positive := by decide } =
      (⌊75 * track.timestampSeconds.getD 0⌋ : ℚ) / 75 := by
    rw [RationalOffset.asFraction, frames]
    norm_num
  exact
    { position := congrArg Int.ofNat written.position
      title := written.title
      artist := written.artist
      offset := ⟨_, _, stamped, rfl, rfl, rfl, offset⟩ }

variable {keyOf : SourceIdentity → Text} {candidate : ProviderCandidate} {content : SourceRead} {audioFilename fileType : Str}
  {tracks : List CueTrackData}

theorem Readable.decoded (readable : Readable keyOf candidate content budget audioFilename fileType tracks) :
    (decode content (generateCueContent audioFilename fileType tracks) budget).lines = sheetLines audioFilename fileType tracks ∧
      (decode content (generateCueContent audioFilename fileType tracks) budget).limited = false ∧ content.cut = false := by
  have cut : content.cut = false := by rw [SourceRead.cut, readable.whole, readable.status]; rfl
  have joined := generateCueContent_eq audioFilename fileType tracks
  have unbroken : ∀ line ∈ sheetLines audioFilename fileType tracks, Unbroken line := by
    intro line member point inside
    have kind : LineOf audioFilename fileType line := sheetLines_lines member
    have inText : point ∈ generateCueContent audioFilename fileType tracks := by
      rw [joined, List.mem_flatMap]
      exact ⟨line, member, List.mem_append_left _ inside⟩
    by_contra broken
    have feed := readable.unbroken point inText (by simpa using broken)
    have clean := kind.clean point inside
    rw [feed] at clean
    cases clean
  have unmarked : removeMark (generateCueContent audioFilename fileType tracks) = generateCueContent audioFilename fileType tracks := by
    have starts : ∃ rest, generateCueContent audioFilename fileType tracks = .scalar 'R' :: rest := by
      rw [joined, sheetLines, List.cons_append, List.flatMap_cons]
      exact ⟨_, rfl⟩
    obtain ⟨rest, same⟩ := starts
    rw [same, removeMark, if_neg (by decide)]
  have lines : splitlines (generateCueContent audioFilename fileType tracks) = sheetLines audioFilename fileType tracks := by
    rw [joined]
    exact splitlines_joined unbroken fun line member => (sheetLines_lines member : LineOf audioFilename fileType line).filled
  have taken : (generateCueContent audioFilename fileType tracks).take budget.maxCharacters =
      generateCueContent audioFilename fileType tracks := List.take_of_length_le readable.characters
  have characters : ¬ (generateCueContent audioFilename fileType tracks).length > budget.maxCharacters := Nat.not_lt_of_le readable.characters
  have bytesRead : ¬ content.bytesRead > budget.maxBytes := Nat.not_lt_of_le readable.bytesRead
  have bytes : ¬ utf8Length (generateCueContent audioFilename fileType tracks) > budget.maxBytes := Nat.not_lt_of_le readable.bytes
  have few : ¬ (sheetLines audioFilename fileType tracks).length > budget.maxLines := Nat.not_lt_of_le readable.lines
  refine ⟨?_, ?_, cut⟩
  · rw [decode]
    simp only [taken, bytes, if_false, cut, characters, bytesRead, decide_false, Bool.or_false, Bool.false_and, Bool.false_eq_true,
      unmarked, lines]
    exact List.take_of_length_le readable.lines
  · rw [decode]
    simp only [taken, bytes, if_false, cut, characters, bytesRead, decide_false, Bool.or_false, Bool.false_and, Bool.false_eq_true,
      unmarked, lines, few]

theorem forall₂_reads {origin : Text} {entries : List (CueTrackData × Nat)} {rows : List Row}
    (written : WrittenRows origin entries rows) (timed : ∀ entry ∈ entries, Timed entry.1) :
    List.Forall₂ (fun entry read => ReadsBack origin entry.1 entry.2 read) entries (rows.map trackOf) := by
  induction written with
  | nil => exact .nil
  | cons first _ ih =>
    exact .cons (first.reads (timed _ List.mem_cons_self)) (ih fun entry member => timed entry (List.mem_cons_of_mem _ member))

-- The outcome of a readable sheet, by its parse.
theorem interpret_sheet (isWord : CodePoint → Bool) (keyed : ∀ identity, fits 64 (keyOf identity) = true)
    (readable : Readable keyOf candidate content budget audioFilename fileType tracks) :
    ∃ base parse, interpret isWord keyOf candidate content budget =
        .ok (outcomeOf content parse (finalSnapshot base parse (parse.rows.map trackOf))) ∧
      completeParse parse = true ∧ parse.warnings = [] ∧
      WrittenRows (originOf (keyOf candidate.identity)) ((validTracks tracks).zipIdx 1) parse.rows := by
  obtain ⟨source, sourced, format⟩ := readable.source
  have listed : sourceFormatOf source ∈ sourceFormats := format ▸ by decide
  obtain ⟨lines, limited, cut⟩ := readable.decoded
  have budgetValid := readable.budgetValid
  simp only [LoadBudget.valid, Bool.and_eq_true, decide_eq_true_eq] at budgetValid
  have contentValid := readable.contentValid
  simp only [SourceRead.valid, Bool.and_eq_true, readable.text, Option.all_some] at contentValid
  have plain : Plain (generateCueContent audioFilename fileType tracks) := (fits_iff.mp contentValid.1.1.1.2).2
  have allPlain := decode_lines content budget plain
  rw [lines] at allPlain
  have ordered : (validTracks tracks).Pairwise fun track other => framesOf track ≤ framesOf other :=
    readable.ordered.imp framesOf_mono
  have sound : (cue (sheetLines audioFilename fileType tracks) budget (keyOf candidate.identity)).Sound budget :=
    cue_sound allPlain.1 (allPlain.2.trans budgetValid.1.1.2) (keyed candidate.identity)
  have reading : WrittenRows (originOf (keyOf candidate.identity)) ((validTracks tracks).zipIdx 1)
        (cue (sheetLines audioFilename fileType tracks) budget (keyOf candidate.identity)).rows ∧
      (cue (sheetLines audioFilename fileType tracks) budget (keyOf candidate.identity)).errors = [] ∧
      (cue (sheetLines audioFilename fileType tracks) budget (keyOf candidate.identity)).warnings = [] ∧
      (cue (sheetLines audioFilename fileType tracks) budget (keyOf candidate.identity)).sections = [] :=
    cue_written readable.timed readable.maxTracks budgetValid.2 ordered readable.short
  have parsed : readParse isWord keyOf candidate content (generateCueContent audioFilename fileType tracks) budget (sourceFormatOf source) =
      cue (sheetLines audioFilename fileType tracks) budget (keyOf candidate.identity) := by
    have rows : (cue (sheetLines audioFilename fileType tracks) budget (keyOf candidate.identity)).rows ≠ [] := by
      intro empty
      have lengths := reading.1.length_eq
      rw [empty, List.length_zipIdx, List.length_nil, List.length_eq_zero_iff] at lengths
      exact readable.filled lengths
    rw [readParse]
    simp only [parseSource, format, if_true, lines]
    rw [noteLimits, cut, limited, Bool.or_false, if_neg Bool.false_ne_true, noteEmpty, if_neg rows]
  have output := readable.output
  generalize cue (sheetLines audioFilename fileType tracks) budget (keyOf candidate.identity) = parse at sound reading parsed output
  obtain ⟨written, errors, warnings, sections⟩ := reading
  have complete : completeParse parse = true := by
    rw [completeParse_iff, sections]
    exact ⟨errors, fun part member => absurd member List.not_mem_nil⟩
  have given : Given candidate content (decode content (generateCueContent audioFilename fileType tracks) budget) (sourceFormatOf source) :=
    given_of readable.candidateValid readable.contentValid readable.text listed
  have reported : parse.rows = [] → parse.errors ≠ [] := by
    intro empty
    rw [← parsed] at empty ⊢
    exact noteEmpty_reported _ empty
  rw [← format] at output
  have finished := finish_whole given sound budgetValid.2 reported output
  generalize baseSnapshot candidate content (decode content (generateCueContent audioFilename fileType tracks) budget)
    (sourceFormatOf source) parse = base at finished
  refine ⟨base, parse, ?_, complete, warnings, written⟩
  rw [interpret_parsed readable.candidateValid readable.contentValid readable.budgetValid sourced readable.text (.inl readable.status)
    listed, parsed]
  exact finished

def mixCandidate : ProviderCandidate :=
  { identity := { providerId := str "local", nativeId := str "mix.cue" }
    source := some { identity := { providerId := str "local", nativeId := str "mix.cue" }, format := str "cue" } }

-- The digest of this identity.
def mixKey : Text := str "f996d70a88c588def1e3c637b06b0fb50a8e89185d0bb4a0ebc942ae31c2babc"

def idTrack : CueTrackData := { position := 1, title := some (str "ID"), timestampSeconds := some 0 }

def idLines : List Str :=
  [str "REM COMMENT \"Generated by Phaze\"", str "FILE \"mix.flac\" WAVE", str "  TRACK 01 AUDIO", str "    TITLE \"ID\"",
    str "    INDEX 01 00:00:00"]

def idContent : SourceRead :=
  { status := .found, code := str "read", scope := str "mix.cue", text := some (idLines.flatMap (· ++ [newline]))
    retrievedAt := str "2026-01-01T00:00:00Z" }

def wideBudget : LoadBudget := { maxBytes := 262144, maxCharacters := 131072, maxLines := 4096, maxTracks := 1024 }

theorem idLines_eq : sheetLines (str "mix.flac") (str "flac") [idTrack] = idLines := by
  have stamp : secondsToCueTimestamp 0 = str "00:00:00" := by
    rw [secondsToCueTimestamp_eq (le_refl 0)]
    have zero : ⌊(75 : ℚ) * 0⌋.toNat = 0 := by norm_num
    rw [zero]
    decide
  have valid : validTracks [idTrack] = [idTrack] := by simp [validTracks, timed, idTrack]
  rw [sheetLines, valid, List.zipIdx_singleton, List.flatMap_singleton, cueTrackRecord_eq, fieldLines, idTrack]
  simp only [Option.toList_some, List.map_singleton, indexLine, stamp]
  decide

theorem id_readable : Readable (fun _ => mixKey) mixCandidate idContent wideBudget (str "mix.flac") (str "flac") [idTrack] := by
  have valid : validTracks [idTrack] = [idTrack] := by simp [validTracks, timed, idTrack]
  have content : generateCueContent (str "mix.flac") (str "flac") [idTrack] = idLines.flatMap (· ++ [newline]) := by
    rw [generateCueContent_eq, idLines_eq]
  constructor
  case candidateValid => decide
  case contentValid => decide
  case budgetValid => decide
  case source => exact ⟨_, rfl, by decide⟩
  case status => rfl
  case whole => rfl
  case text =>
    rw [content]
    rfl
  case characters =>
    rw [content]
    decide
  case bytes =>
    rw [content]
    decide +kernel
  case bytesRead => decide
  case lines =>
    rw [idLines_eq]
    decide
  case maxTracks =>
    rw [valid]
    decide
  case filled =>
    rw [valid]
    exact List.cons_ne_nil _ _
  case timed =>
    rw [valid]
    intro track member
    rw [List.mem_singleton.mp member]
    exact ⟨0, rfl, le_refl 0, by norm_num⟩
  case ordered =>
    rw [valid]
    exact List.pairwise_singleton _ _
  case unbroken =>
    rw [content]
    decide +kernel
  case short =>
    rw [idLines_eq, Short]
    decide +kernel
  case output =>
    rw [content, idLines_eq]
    decide +kernel

theorem keyed_mix : ∀ _ : SourceIdentity, fits 64 mixKey = true := fun _ => by decide

def singleTrack (title : Str) (seconds : Option Nat) : CueTrackData :=
  { position := 1, title := some title, timestampSeconds := seconds.map Nat.cast }

def mixSheet (tracks : List CueTrackData) : Str := generateCueContent (str "mix.flac") (str "flac") tracks

def singleText (title : Str) (seconds : Nat) : Str :=
  ([str "REM COMMENT \"Generated by Phaze\"", str "FILE \"mix.flac\" WAVE", trackLine 1] ++ quotedLine "    TITLE \"" (some title) ++
    [str "    INDEX 01 " ++ stampText (75 * seconds)]).flatMap (· ++ [newline])

theorem singleText_eq (title : Str) (seconds : Nat) : mixSheet [singleTrack title (some seconds)] = singleText title seconds := by
  have stamp : secondsToCueTimestamp (seconds : ℚ) = stampText (75 * seconds) := by
    rw [secondsToCueTimestamp_eq (Nat.cast_nonneg seconds)]
    congr 1
    have whole : (75 : ℚ) * seconds = ((75 * seconds : ℕ) : ℚ) := by push_cast; rfl
    rw [whole, Int.floor_natCast, Int.toNat_natCast]
  have valid : validTracks [singleTrack title (some seconds)] = [singleTrack title (some seconds)] := by
    simp [validTracks, timed, singleTrack]
  have header : fileLine (str "mix.flac") (str "flac") = str "FILE \"mix.flac\" WAVE" := by decide
  rw [mixSheet, generateCueContent_eq, sheetLines, valid, List.zipIdx_singleton, List.flatMap_singleton, cueTrackRecord_eq, header,
    singleText]
  simp [fieldLines, singleTrack, quotedLine, yearLine, indexLine, stamp]

def readSheet (text : Str) : Except String LoadOutcome :=
  interpret asciiWord (fun _ => mixKey) mixCandidate { idContent with text := some text } wideBudget

def titlesOf (outcome : LoadOutcome) : Option (List (Option Str)) :=
  outcome.snapshot.map fun snapshot => snapshot.tracks.map ProviderTrack.title

def titlesRead (text : Str) : Option (List (Option Str)) := (readSheet text).toOption.bind titlesOf

def statusRead (text : Str) : Option OutcomeStatus := (readSheet text).toOption.map LoadOutcome.status

end Phaze.Cue
