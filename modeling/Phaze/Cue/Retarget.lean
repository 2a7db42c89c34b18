import Phaze.Cue.Sheets

set_option autoImplicit false

/-!
# Retargeted sheets and index times

The one `FILE` directive of a sheet is the only one that the pattern finds, and an index time decodes to the
frame at or before the time of its track.
-/

namespace Phaze.Cue

open Phaze.Percent Phaze.Unicode

/-! ## The scan for the directive -/

variable {replacement : Str}

theorem substitute_point (start : Bool) (point : CodePoint) (rest : Str)
    (none : start = true → fileDirective (point :: rest) = none) :
    substitute replacement start (point :: rest) =
      (point :: (substitute replacement (point = newline) rest).1, (substitute replacement (point = newline) rest).2) := by
  rw [substitute]
  split
  next after found =>
    cases start with
    | false => cases found
    | true => rw [if_pos rfl, none rfl] at found; cases found
  next => rfl

theorem substitute_directive {text after : Str} (found : fileDirective text = some after) :
    substitute replacement true text =
      (replacement ++ (substitute replacement false after).1, (substitute replacement false after).2 + 1) := by
  cases text with
  | nil =>
    have empty : fileDirective [] = none := by decide
    rw [empty] at found
    cases found
  | cons point rest =>
    rw [substitute]
    split
    next other same =>
      rw [if_pos rfl, found] at same
      obtain rfl := Option.some.inj same
      rfl
    next same =>
      rw [if_pos rfl, found] at same
      cases same

-- A line that no directive starts is copied.
theorem substitute_line {line : Str} (unbroken : newline ∉ line) (start : Bool) (rest : Str)
    (none : start = true → fileDirective (line ++ newline :: rest) = none) :
    substitute replacement start (line ++ newline :: rest) =
      (line ++ newline :: (substitute replacement true rest).1, (substitute replacement true rest).2) := by
  induction line generalizing start with
  | nil =>
    rw [List.nil_append, substitute_point start newline rest none]
    rfl
  | cons point line ih =>
    have inner : point ≠ newline := fun same => unbroken (same ▸ List.mem_cons_self)
    have later := ih (fun member => unbroken (List.mem_cons_of_mem _ member)) false (fun started => by cases started)
    rw [List.cons_append] at none ⊢
    rw [substitute_point start point _ none, decide_eq_false inner, later]
    rfl

theorem fileDirective_none {text : Str} (other : text.head? ≠ some (.scalar 'F')) : fileDirective text = none := by
  rw [fileDirective, if_neg]
  intro starts
  obtain ⟨rest, rfl⟩ := List.isPrefixOf_iff_prefix.mp starts
  exact other rfl

theorem substitute_lines {lines : List Str} (clean : ∀ line ∈ lines, Clean line)
    (other : ∀ line ∈ lines, line.head? ≠ some (.scalar 'F') ∧ line ≠ []) :
    substitute replacement true (lines.flatMap (· ++ [newline])) = (lines.flatMap (· ++ [newline]), 0) := by
  induction lines with
  | nil => rw [List.flatMap_nil, substitute]
  | cons line rest ih =>
    have unbroken : newline ∉ line := by
      intro member
      have control := clean line List.mem_cons_self newline member
      exact absurd control (by decide)
    have first := other line List.mem_cons_self
    have none : fileDirective (line ++ newline :: rest.flatMap (· ++ [newline])) = none := by
      apply fileDirective_none
      rw [List.head?_append_of_ne_nil _ first.2]
      exact first.1
    rw [List.flatMap_cons, List.append_assoc, List.singleton_append, substitute_line unbroken true _ fun _ => none,
      ih (fun other member => clean other (List.mem_cons_of_mem _ member))
        (fun line member => other line (List.mem_cons_of_mem _ member))]

/-! ## Every other line starts differently -/

theorem head_of_str {literal : String} {rest : Str} (char : Char) (starts : (str literal).head? = some (.scalar char)) :
    (str literal ++ rest).head? = some (.scalar char) := by
  have filled : str literal ≠ [] := by
    intro empty
    rw [empty] at starts
    cases starts
  rw [List.head?_append_of_ne_nil _ filled, starts]

theorem Field.head {line : Str} (field : Field line) : line.head? ≠ some (.scalar 'F') ∧ line ≠ [] := by
  obtain ⟨before, listed, value, rfl, -⟩ := field
  have heads : ∀ before ∈ fieldHeads, (str before).head? = some (.scalar 'R') ∨ (str before).head? = some (.scalar ' ') := by
    decide
  rw [List.append_assoc]
  constructor
  · obtain letter | space := heads before listed
    · rw [head_of_str 'R' letter]; decide
    · rw [head_of_str ' ' space]; decide
  · simp [quoteMark]

theorem cueTrackRecord_head {number : Nat} {track : CueTrackData} {line : Str} (member : line ∈ cueTrackRecord number track) :
    line.head? ≠ some (.scalar 'F') ∧ line ≠ [] := by
  rw [cueTrackRecord_eq] at member
  obtain rfl | rest := List.mem_cons.mp member
  · constructor
    · rw [trackLine, List.append_assoc, head_of_str ' ' (by decide)]; decide
    · simp [trackLine, str]
  · obtain inner | last := List.mem_append.mp rest
    · exact (fieldLines_field track line inner).head
    · obtain ⟨timestampSeconds, -, rfl⟩ := List.mem_map.mp last
      constructor
      · rw [indexLine, head_of_str ' ' (by decide)]; decide
      · simp [indexLine, str]

theorem fileDirective_fileLine (audioFilename fileType : Str) (rest : Str) :
    fileDirective (fileLine audioFilename fileType ++ rest) = some (str " " ++ str (cueType fileType) ++ rest) := by
  have whole : fileLine audioFilename fileType ++ rest =
      str "FILE \"" ++ (cueQuote audioFilename ++ quoteMark :: (str " " ++ str (cueType fileType) ++ rest)) := by
    simp [fileLine, List.append_assoc]
  have skipped : (cueQuote audioFilename ++ quoteMark :: (str " " ++ str (cueType fileType) ++ rest)).dropWhile (· ≠ quoteMark) =
      quoteMark :: (str " " ++ str (cueType fileType) ++ rest) := by
    rw [List.dropWhile_append_of_pos]
    · rw [List.dropWhile_cons_of_neg (by simp)]
    · intro point member
      simpa using (cueQuote_clean audioFilename point member).2
  rw [whole, fileDirective, if_pos (List.isPrefixOf_iff_prefix.mpr (List.prefix_append _ _))]
  rw [List.drop_left' (by decide), skipped]

/-- A sheet retargeted to another name is the sheet generated for that name. -/
theorem retarget_generateCueContent (audioFilename other fileType : Str) (tracks : List CueTrackData) :
    retargetCueFileLine (generateCueContent audioFilename fileType tracks) other =
      .ok (generateCueContent other fileType tracks) := by
  have text : ∀ name : Str, generateCueContent name fileType tracks =
      str "REM COMMENT \"Generated by Phaze\"" ++ newline :: (fileLine name fileType ++ newline ::
        ((((validTracks tracks).zipIdx 1).flatMap fun entry => cueTrackRecord entry.2 entry.1).flatMap (· ++ [newline]))) := by
    intro name
    rw [generateCueContent_eq, sheetLines]
    simp
  have records : substitute (str "FILE \"" ++ cueQuote other ++ [quoteMark]) true
      ((((validTracks tracks).zipIdx 1).flatMap fun entry => cueTrackRecord entry.2 entry.1).flatMap (· ++ [newline])) =
      ((((validTracks tracks).zipIdx 1).flatMap fun entry => cueTrackRecord entry.2 entry.1).flatMap (· ++ [newline]), 0) := by
    apply substitute_lines
    · intro line member
      obtain ⟨entry, -, inside⟩ := List.mem_flatMap.mp member
      exact (cueTrackRecord_lines inside : LineOf audioFilename fileType line).clean
    · intro line member
      obtain ⟨entry, -, inside⟩ := List.mem_flatMap.mp member
      exact cueTrackRecord_head inside
  have kindUnbroken : newline ∉ str " " ++ str (cueType fileType) := by
    intro member
    have clean : Clean (str " " ++ str (cueType fileType)) := (str_clean (by decide)).append (str_cueType_clean fileType)
    exact absurd (clean newline member) (by decide)
  have header : fileDirective (str "REM COMMENT \"Generated by Phaze\"" ++ newline :: (fileLine audioFilename fileType ++ newline ::
      ((((validTracks tracks).zipIdx 1).flatMap fun entry => cueTrackRecord entry.2 entry.1).flatMap (· ++ [newline])))) = none := by
    apply fileDirective_none
    rw [head_of_str 'R' (by decide)]
    decide
  rw [retargetCueFileLine, text audioFilename, substitute_line (by decide) true _ fun _ => header,
    substitute_directive (fileDirective_fileLine audioFilename fileType _),
    substitute_line kindUnbroken false _ (fun started => by cases started), records, text other]
  simp [fileLine, List.append_assoc]

/-! ## Index times -/

-- `MM:SS:FF`
def timestampFields (text : Str) : Option (Nat × Nat × Nat) :=
  match text.splitOn (.scalar ':') with
  | [minutes, seconds, frames] =>
      (parseDecimal minutes).bind fun minutes => (parseDecimal seconds).bind fun seconds =>
        (parseDecimal frames).map fun frames => (minutes, seconds, frames)
  | _ => none

def decodedSeconds (fields : Nat × Nat × Nat) : ℚ := fields.1 * 60 + fields.2.1 + fields.2.2 / 75

theorem totalFrames_eq {time : ℚ} (started : 0 ≤ time) : totalFrames time = (⌊75 * time⌋.toNat : Int) := by
  have product : 0 ≤ time * 75 := mul_nonneg started (by norm_num)
  have floor : totalFrames time = ⌊75 * time⌋ := by
    rw [totalFrames, Int.tdiv_eq_ediv_of_nonneg (Rat.num_nonneg.mpr product), mul_comm 75 time, Rat.floor_def']
  have positive : 0 ≤ ⌊75 * time⌋ := by
    rw [mul_comm]
    exact Int.floor_nonneg.mpr product
  rw [floor, Int.toNat_of_nonneg positive]

theorem printTwo_colonless (number : Nat) : CodePoint.scalar ':' ∉ printTwo number := by
  intro member
  exact absurd (isAsciiDigit_of_mem_printTwo member) (by decide)

theorem splitOn_printed (minutes seconds frames : Nat) :
    (printTwo minutes ++ str ":" ++ printTwo seconds ++ str ":" ++ printTwo frames).splitOn (.scalar ':') =
      [printTwo minutes, printTwo seconds, printTwo frames] := by
  have joined : printTwo minutes ++ str ":" ++ printTwo seconds ++ str ":" ++ printTwo frames =
      [CodePoint.scalar ':'].intercalate [printTwo minutes, printTwo seconds, printTwo frames] := by
    have colon : str ":" = [.scalar ':'] := by decide
    simp [colon, List.append_assoc]
  rw [joined]
  apply List.splitOn_intercalate
  · intro piece member
    simp only [List.mem_cons, List.not_mem_nil, or_false] at member
    obtain rfl | rfl | rfl := member
    · exact printTwo_colonless minutes
    · exact printTwo_colonless seconds
    · exact printTwo_colonless frames
  · simp

theorem timestampFields_printed (minutes seconds frames : Nat) :
    timestampFields (printTwo minutes ++ str ":" ++ printTwo seconds ++ str ":" ++ printTwo frames) =
      some (minutes, seconds, frames) := by
  simp only [timestampFields, splitOn_printed, parseDecimal_printTwo, Option.bind_some, Option.map_some]

theorem secondsToCueTimestamp_fields {time : ℚ} (started : 0 ≤ time) :
    timestampFields (secondsToCueTimestamp time) =
      some (⌊75 * time⌋.toNat / 75 / 60, ⌊75 * time⌋.toNat / 75 % 60, ⌊75 * time⌋.toNat % 75) := by
  rw [secondsToCueTimestamp, totalFrames_eq started]
  exact timestampFields_printed _ _ _

theorem decodedSeconds_fields (frames : Nat) :
    decodedSeconds (frames / 75 / 60, frames / 75 % 60, frames % 75) = (frames : ℚ) / 75 := by
  have whole : frames = 75 * (60 * (frames / 75 / 60) + frames / 75 % 60) + frames % 75 := by omega
  have cast : (frames : ℚ) = 75 * (60 * (frames / 75 / 60 : Nat) + (frames / 75 % 60 : Nat)) + (frames % 75 : Nat) := by
    exact_mod_cast whole
  simp only [decodedSeconds]
  rw [cast]
  ring

-- The index time is the last frame at or before the time.
structure Decodes (time : ℚ) (fields : Nat × Nat × Nat) : Prop where
  text : timestampFields (secondsToCueTimestamp time) = some fields
  seconds : fields.2.1 < 60
  frames : fields.2.2 < 75
  value : decodedSeconds fields = (⌊75 * time⌋ : ℚ) / 75

theorem decodes {time : ℚ} (started : 0 ≤ time) : ∃ fields, Decodes time fields := by
  refine ⟨_, secondsToCueTimestamp_fields started, Nat.mod_lt _ (by decide), Nat.mod_lt _ (by decide), ?_⟩
  have positive : 0 ≤ ⌊75 * time⌋ := Int.floor_nonneg.mpr (mul_nonneg (by norm_num) started)
  rw [decodedSeconds_fields]
  have cast : ((⌊75 * time⌋.toNat : Int) : ℚ) = (⌊75 * time⌋ : ℚ) := congrArg _ (Int.toNat_of_nonneg positive)
  rw [← cast, Int.cast_natCast]

theorem Decodes.mono {time later : ℚ} {fields others : Nat × Nat × Nat} (first : Decodes time fields)
    (second : Decodes later others) (after : time ≤ later) : decodedSeconds fields ≤ decodedSeconds others := by
  have floors : ⌊75 * time⌋ ≤ ⌊75 * later⌋ := Int.floor_le_floor (by linarith)
  rw [first.value, second.value]
  have cast : (⌊75 * time⌋ : ℚ) ≤ ⌊75 * later⌋ := by exact_mod_cast floors
  linarith

/-- The retarget commutes with the generator and index times are the frames of the times; values stay in their
fields exactly when none holds a line break that the generator keeps. -/
theorem sheets_keep_fields_apart_iff (audioFilename other fileType : Str) (tracks : List CueTrackData) :
    (Sheet audioFilename fileType tracks (splitlines (generateCueContent audioFilename fileType tracks)) ↔
      ∀ value ∈ quotedValues audioFilename tracks, Whole value) ∧
    retargetCueFileLine (generateCueContent audioFilename fileType tracks) other = .ok (generateCueContent other fileType tracks) ∧
    (∀ time : ℚ, 0 ≤ time → ∃ fields, Decodes time fields) ∧
    (∀ (time later : ℚ) (fields others : Nat × Nat × Nat), 0 ≤ time → time ≤ later → Decodes time fields →
      Decodes later others → decodedSeconds fields ≤ decodedSeconds others) := by
  refine ⟨sheet_iff_whole, retarget_generateCueContent audioFilename other fileType tracks, ?_, ?_⟩
  · intro time started
    exact decodes started
  · intro time later fields others _ after first second
    exact first.mono second after

def hostileName : Str := str "mix\"\r\nFILE \"evil.wav\" WAVE"

def hostileTracks : List CueTrackData :=
  [{ position := 2, title := some (str "\"\n  TRACK 09 AUDIO\n    INDEX 01 00:00:00"), artist := some (str "\r\nREM \"\t\"")
     timestampSeconds := some (90 + 1 / 2), genre := some (str "\x00\x0b\x1e\x7f"), label := some (str "\"") },
    { position := 1, title := some (str "FILE \"evil.wav\" WAVE"), timestampSeconds := some 0 },
    { position := 3, title := some (str "untimed \u0085") }]

theorem hostile_sheet_keeps_fields_apart :
    Sheet hostileName (str "mp3") hostileTracks (splitlines (generateCueContent hostileName (str "mp3") hostileTracks)) ∧
      retargetCueFileLine (generateCueContent hostileName (str "mp3") hostileTracks) (str "other\".mp3") =
        .ok (generateCueContent (str "other\".mp3") (str "mp3") hostileTracks) ∧
      ∃ fields, Decodes (90 + 1 / 2) fields := by
  obtain ⟨sheet, retarget, decoded, -⟩ := sheets_keep_fields_apart_iff hostileName (str "other\".mp3") (str "mp3") hostileTracks
  exact ⟨sheet.mpr (by decide), retarget, decoded _ (by norm_num)⟩

def splitTrack : CueTrackData := { position := 1, title := some (str "x\u0085FILE \"evil.wav\" WAVE"), timestampSeconds := some 0 }

-- The next line of the title names a second file.
theorem separator_names_a_file :
    (splitlines (generateCueContent (str "mix.mp3") (str "mp3") [splitTrack])).filter (keyword · = str "FILE") =
        [str "FILE \"mix.mp3\" MP3", str "FILE evil.wav WAVE\""] ∧
      ¬ Sheet (str "mix.mp3") (str "mp3") [splitTrack] (splitlines (generateCueContent (str "mix.mp3") (str "mp3") [splitTrack])) := by
  have lines : sheetLines (str "mix.mp3") (str "mp3") [splitTrack] =
      [str "REM COMMENT \"Generated by Phaze\"", str "FILE \"mix.mp3\" MP3", str "  TRACK 01 AUDIO",
        str "    TITLE \"x\u0085FILE evil.wav WAVE\"", str "    INDEX 01 00:00:00"] := by
    have stamp : secondsToCueTimestamp 0 = str "00:00:00" := by
      have zero : totalFrames 0 = 0 := by
        rw [totalFrames_eq (le_refl 0)]
        norm_num
      simp only [secondsToCueTimestamp, zero]
      decide
    have valid : validTracks [splitTrack] = [splitTrack] := by simp [validTracks, timed, splitTrack]
    rw [sheetLines, valid, List.zipIdx_singleton, List.flatMap_singleton, cueTrackRecord_eq, fieldLines, splitTrack]
    simp only [Option.toList_some, List.map_singleton, indexLine, stamp]
    decide
  have files : (splitlines (generateCueContent (str "mix.mp3") (str "mp3") [splitTrack])).filter (keyword · = str "FILE") =
      [str "FILE \"mix.mp3\" MP3", str "FILE evil.wav WAVE\""] := by
    rw [generateCueContent_eq, lines]
    decide +kernel
  refine ⟨files, fun sheet => ?_⟩
  have only := sheet.file
  rw [files] at only
  exact absurd (congrArg List.length only) (by decide)

end Phaze.Cue
