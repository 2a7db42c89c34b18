import Phaze.Shared.Texts
import Phaze.Cue.Generator

set_option autoImplicit false

/-!
# What a sheet holds

The lines of a sheet, as `str.splitlines` cuts them, and when no value leaves its field.
-/

namespace Phaze.Cue

open Phaze.Percent Phaze.Unicode

/-! ## Quoted values -/

theorem cueQuote_clean (value : Str) : ∀ point ∈ cueQuote value, isControl point = false ∧ point ≠ quoteMark := by
  intro point member
  obtain ⟨mapped, kept⟩ := List.mem_filter.mp member
  refine ⟨?_, by simpa using kept⟩
  obtain ⟨original, -, rfl⟩ := List.mem_map.mp mapped
  cases control : isControl original with
  | true => simp only [if_true]; decide
  | false => simpa using control

theorem printInt_clean (number : Int) : ∀ point ∈ printInt number, isControl point = false ∧ point ≠ quoteMark := by
  have plain : ∀ {point : CodePoint}, isAsciiDigit point = true → isControl point = false ∧ point ≠ quoteMark := by
    intro point ascii
    simp only [isAsciiDigit, Bool.and_eq_true, decide_eq_true_eq] at ascii
    constructor
    · simp only [isControl, Bool.or_eq_false_iff, decide_eq_false_iff_not]
      omega
    · rintro rfl
      exact absurd ascii (by decide)
  intro point member
  cases number with
  | ofNat number => exact plain (isAsciiDigit_of_mem_digits member)
  | negSucc number =>
    obtain rfl | rest := List.mem_cons.mp member
    · decide
    · exact plain (isAsciiDigit_of_mem_digits rest)

theorem printTwo_clean (number : Int) : ∀ point ∈ printTwo number, isControl point = false := by
  intro point member
  simp only [printTwo] at member
  split at member
  · obtain rfl | rest := List.mem_cons.mp member
    · decide
    · exact (printInt_clean number point rest).1
  · exact (printInt_clean number point member).1

/-! ## Lines -/

-- The line breaks that `_CUE_CONTROL_CHARS_RE` does not name.
def isSeparator (point : CodePoint) : Bool := code point = 0x85 || code point = 0x2028 || code point = 0x2029

def Whole (text : Str) : Prop := ∀ point ∈ text, isSeparator point = false

instance (text : Str) : Decidable (Whole text) := inferInstanceAs (Decidable (∀ _ ∈ text, _))

def keyword (line : Str) : Str := (line.dropWhile (· = blank)).takeWhile (· ≠ blank)

def fieldHeads : List String :=
  ["REM COMMENT \"", "    REM GENRE \"", "    REM LABEL \"", "    REM YEAR \"", "    TITLE \"", "    PERFORMER \""]

-- A single quoted field.
def Field (line : Str) : Prop :=
  ∃ before ∈ fieldHeads, ∃ value, line = str before ++ value ++ [quoteMark] ∧ ∀ point ∈ value, isControl point = false ∧ point ≠ quoteMark

def Clean (line : Str) : Prop := ∀ point ∈ line, isControl point = false

theorem Clean.append {line other : Str} (left : Clean line) (right : Clean other) : Clean (line ++ other) := by
  intro point member
  obtain first | second := List.mem_append.mp member
  · exact left point first
  · exact right point second

theorem isLineBreak_separator {point : CodePoint} (separates : isSeparator point = true) : isLineBreak point = true := by
  simp only [isSeparator, Bool.or_eq_true, decide_eq_true_eq] at separates
  simp only [isLineBreak, Bool.or_eq_true, decide_eq_true_eq]
  tauto

theorem Clean.unbroken {line : Str} (clean : Clean line) (whole : Whole line) : Unbroken line := by
  intro point member
  have plain := clean point member
  have here := whole point member
  simp only [isControl, isSeparator, Bool.or_eq_false_iff, decide_eq_false_iff_not] at plain here
  simp only [isLineBreak, Bool.or_eq_false_iff, Bool.and_eq_false_iff, decide_eq_false_iff_not]
  omega

theorem whole_of_unbroken {line : Str} (unbroken : Unbroken line) : Whole line := by
  intro point member
  by_contra separates
  have breaks := isLineBreak_separator (Bool.eq_true_of_not_eq_false separates)
  rw [unbroken point member] at breaks
  cases breaks

theorem Whole.append {line other : Str} (left : Whole line) (right : Whole other) : Whole (line ++ other) := by
  intro point member
  obtain first | second := List.mem_append.mp member
  · exact left point first
  · exact right point second

theorem str_whole {literal : String} (plain : (literal.toList.all fun char => !isSeparator (.scalar char)) = true) :
    Whole (str literal) := by
  intro point member
  obtain ⟨char, inside, rfl⟩ := List.mem_map.mp member
  simpa using List.all_eq_true.mp plain char inside

-- The generator takes no separator out of a value, and puts none into it.
theorem cueQuote_whole {value : Str} : Whole (cueQuote value) ↔ Whole value := by
  constructor
  · intro whole point member
    by_contra separates
    have separates := Bool.eq_true_of_not_eq_false separates
    have plain : isControl point = false ∧ point ≠ quoteMark := by
      simp only [isSeparator, Bool.or_eq_true, decide_eq_true_eq] at separates
      constructor
      · simp only [isControl, Bool.or_eq_false_iff, decide_eq_false_iff_not]
        omega
      · rintro rfl
        exact absurd separates (by decide)
    have kept : point ∈ cueQuote value :=
      List.mem_filter.mpr ⟨List.mem_map.mpr ⟨point, member, by rw [plain.1]; rfl⟩, decide_eq_true plain.2⟩
    rw [whole point kept] at separates
    cases separates
  · intro whole point member
    obtain ⟨original, inside, rfl⟩ := List.mem_map.mp (List.mem_filter.mp member).1
    split
    · decide
    · exact whole original inside

theorem digits_whole (number : Nat) : Whole (digits number) := by
  intro point member
  have ascii := isAsciiDigit_of_mem_digits member
  simp only [isAsciiDigit, Bool.and_eq_true, decide_eq_true_eq] at ascii
  simp only [isSeparator, Bool.or_eq_false_iff, decide_eq_false_iff_not]
  omega

theorem printInt_whole (number : Int) : Whole (printInt number) := by
  cases number with
  | ofNat number => exact digits_whole number
  | negSucc number =>
    have sign : Whole [CodePoint.scalar '-'] := by decide
    exact sign.append (digits_whole (number + 1))

theorem printTwo_whole (number : Int) : Whole (printTwo number) := by
  rw [printTwo]
  split
  · have zero : Whole [CodePoint.scalar '0'] := by decide
    exact zero.append (printInt_whole number)
  · exact printInt_whole number

theorem str_clean {literal : String} (plain : (literal.toList.all fun char => !isControl (.scalar char)) = true) :
    Clean (str literal) := by
  intro point member
  obtain ⟨char, inside, rfl⟩ := List.mem_map.mp member
  simpa using List.all_eq_true.mp plain char inside

theorem quote_clean : Clean [quoteMark] := by
  intro point member
  rw [List.mem_singleton.mp member]
  decide

theorem Field.clean {line : Str} (field : Field line) : Clean line := by
  obtain ⟨before, listed, value, rfl, inside⟩ := field
  have heads : ∀ before ∈ fieldHeads, (before.toList.all fun char => !isControl (.scalar char)) = true := by decide
  exact ((str_clean (heads before listed)).append fun point member => (inside point member).1).append quote_clean

theorem keyword_append {literal : String} (rest : Str)
    (stops : ((str literal).dropWhile (· = blank)).any (· = blank) = true) :
    keyword (str literal ++ rest) = keyword (str literal) := by
  have dropped : (str literal ++ rest).dropWhile (· = blank) = (str literal).dropWhile (· = blank) ++ rest := by
    rw [List.dropWhile_append]
    split
    next empty =>
      rw [List.isEmpty_iff.mp empty] at stops
      cases stops
    next => rfl
  have short : ((str literal).dropWhile (· = blank)).takeWhile (· ≠ blank) ≠ (str literal).dropWhile (· = blank) := by
    intro all
    obtain ⟨point, member, isBlank⟩ := List.any_eq_true.mp stops
    rw [← all] at member
    have notBlank := List.mem_takeWhile_imp member
    simp only [decide_eq_true_eq] at isBlank notBlank
    exact notBlank isBlank
  rw [keyword, keyword, dropped, List.takeWhile_append]
  rw [if_neg]
  intro same
  exact short ((List.takeWhile_prefix _).eq_of_length same)

theorem Field.keyword {line : Str} (field : Field line) : keyword line ∈ [str "REM", str "TITLE", str "PERFORMER"] := by
  obtain ⟨before, listed, value, rfl, -⟩ := field
  have heads : ∀ before ∈ fieldHeads, ((str before).dropWhile (· = blank)).any (· = blank) = true ∧
      Cue.keyword (str before) ∈ [str "REM", str "TITLE", str "PERFORMER"] := by decide
  rw [List.append_assoc, keyword_append _ (heads before listed).1]
  exact (heads before listed).2

theorem trackLine_keyword (number : Nat) : keyword (trackLine number) = str "TRACK" := by
  rw [trackLine, List.append_assoc, keyword_append _ (by decide)]
  decide

theorem indexLine_keyword (timestampSeconds : ℚ) : keyword (indexLine timestampSeconds) = str "INDEX" := by
  rw [indexLine, keyword_append _ (by decide)]
  decide

theorem fileLine_keyword (audioFilename fileType : Str) : keyword (fileLine audioFilename fileType) = str "FILE" := by
  rw [fileLine, List.append_assoc, List.append_assoc, List.append_assoc, keyword_append _ (by decide)]
  decide

/-! ## The records of a sheet -/

theorem quotedLine_field {before : String} (listed : before ∈ fieldHeads) (value : Option Str) :
    ∀ line ∈ quotedLine before value, Field line := by
  intro line member
  cases value with
  | none => cases member
  | some value =>
    rw [quotedLine] at member
    split at member
    · cases member
    · obtain rfl := List.mem_singleton.mp member
      exact ⟨before, listed, cueQuote value, rfl, cueQuote_clean value⟩

theorem yearLine_field (year : Option Int) : ∀ line ∈ yearLine year, Field line := by
  intro line member
  cases year with
  | none => cases member
  | some year =>
    rw [yearLine] at member
    split at member
    · cases member
    · obtain rfl := List.mem_singleton.mp member
      exact ⟨"    REM YEAR \"", by decide, printInt year, rfl, printInt_clean year⟩

-- The lines of a record between its first and its last.
def fieldLines (track : CueTrackData) : List Str :=
  quotedLine "    REM GENRE \"" track.genre ++ quotedLine "    REM LABEL \"" track.label ++ yearLine track.year ++
    quotedLine "    TITLE \"" track.title ++ quotedLine "    PERFORMER \"" track.artist

theorem fieldLines_field (track : CueTrackData) : ∀ line ∈ fieldLines track, Field line := by
  intro line member
  simp only [fieldLines, List.mem_append] at member
  obtain (((genre | label) | year) | title) | artist := member
  · exact quotedLine_field (by decide) _ line genre
  · exact quotedLine_field (by decide) _ line label
  · exact yearLine_field _ line year
  · exact quotedLine_field (by decide) _ line title
  · exact quotedLine_field (by decide) _ line artist

theorem cueTrackRecord_eq (trackNumber : Nat) (track : CueTrackData) :
    cueTrackRecord trackNumber track =
      trackLine trackNumber :: (fieldLines track ++ track.timestampSeconds.toList.map indexLine) := by
  rw [cueTrackRecord]
  cases track.timestampSeconds with
  | none => simp [fieldLines]
  | some timestampSeconds => rfl

theorem header_field : Field (str "REM COMMENT \"Generated by Phaze\"") :=
  ⟨"REM COMMENT \"", by decide, str "Generated by Phaze", by decide, by decide⟩

theorem cueType_holds {holds : String → Prop} (listed : ∀ entry ∈ fileTypeMap, holds entry.2) (other : holds "WAVE")
    (fileType : Str) : holds (cueType fileType) := by
  rw [cueType]
  cases found : fileTypeMap.lookup (fileType.map lowerPoint) with
  | none => exact other
  | some kind =>
    obtain ⟨front, back, same, -⟩ := List.lookup_eq_some_iff.mp found
    exact listed (_, kind) (same ▸ List.mem_append_right _ List.mem_cons_self)

theorem str_cueType_clean (fileType : Str) : Clean (str (cueType fileType)) := by
  apply str_clean
  exact @cueType_holds (fun kind => (kind.toList.all fun char => !isControl (.scalar char)) = true) (by decide) (by decide) fileType

theorem fileLine_clean (audioFilename fileType : Str) : Clean (fileLine audioFilename fileType) := by
  have name : Clean (cueQuote audioFilename) := fun point member => (cueQuote_clean audioFilename point member).1
  exact ((((str_clean (by decide)).append name).append quote_clean).append (str_clean (by decide))).append
    (str_cueType_clean fileType)

theorem trackLine_clean (number : Nat) : Clean (trackLine number) :=
  ((str_clean (by decide)).append (printTwo_clean number)).append (str_clean (by decide))

theorem indexLine_clean (timestampSeconds : ℚ) : Clean (indexLine timestampSeconds) := by
  have time : Clean (secondsToCueTimestamp timestampSeconds) :=
    ((((Clean.append (printTwo_clean _) (str_clean (by decide))).append (printTwo_clean _)).append
      (str_clean (by decide))).append (printTwo_clean _))
  exact (str_clean (by decide)).append time

-- What one line of a sheet can be.
inductive LineOf (audioFilename fileType : Str) : Str → Prop where
  | file : LineOf audioFilename fileType (fileLine audioFilename fileType)
  | track (number : Nat) : LineOf audioFilename fileType (trackLine number)
  | index (timestampSeconds : ℚ) : LineOf audioFilename fileType (indexLine timestampSeconds)
  | field (line : Str) (field : Field line) : LineOf audioFilename fileType line

variable {audioFilename fileType : Str} {tracks : List CueTrackData} {line : Str}

theorem cueTrackRecord_lines {number : Nat} {track : CueTrackData} (member : line ∈ cueTrackRecord number track) :
    LineOf audioFilename fileType line := by
  rw [cueTrackRecord_eq] at member
  obtain rfl | rest := List.mem_cons.mp member
  · exact .track number
  · obtain inner | last := List.mem_append.mp rest
    · exact .field line (fieldLines_field track line inner)
    · obtain ⟨timestampSeconds, -, rfl⟩ := List.mem_map.mp last
      exact .index timestampSeconds

theorem sheetLines_lines (member : line ∈ sheetLines audioFilename fileType tracks) : LineOf audioFilename fileType line := by
  obtain header | inRecord := List.mem_append.mp member
  · obtain rfl | second := List.mem_cons.mp header
    · exact .field _ header_field
    · obtain rfl := List.mem_singleton.mp second
      exact .file
  · obtain ⟨entry, -, inside⟩ := List.mem_flatMap.mp inRecord
    exact cueTrackRecord_lines inside

theorem LineOf.clean (kind : LineOf audioFilename fileType line) : Clean line := by
  cases kind with
  | file => exact fileLine_clean audioFilename fileType
  | track number => exact trackLine_clean number
  | index timestampSeconds => exact indexLine_clean timestampSeconds
  | field line field => exact field.clean

theorem joined_eq {lines : List Str} (filled : lines ≠ []) :
    [newline].intercalate lines ++ [newline] = lines.flatMap (· ++ [newline]) := by
  induction lines with
  | nil => exact absurd rfl filled
  | cons line rest ih =>
    cases rest with
    | nil => simp
    | cons next others =>
      rw [List.intercalate_cons_cons, List.flatMap_cons, ← ih (by simp)]
      simp [List.append_assoc]

theorem generateCueContent_eq (audioFilename fileType : Str) (tracks : List CueTrackData) :
    generateCueContent audioFilename fileType tracks = (sheetLines audioFilename fileType tracks).flatMap (· ++ [newline]) :=
  joined_eq (by simp [sheetLines])

theorem LineOf.filled (kind : LineOf audioFilename fileType line) : line ≠ [] := by
  cases kind with
  | file => simp [fileLine]
  | track number => simp [trackLine, str]
  | index timestampSeconds => simp [indexLine, str]
  | field line field =>
    obtain ⟨before, -, value, rfl, -⟩ := field
    simp

/-! ## The values of a sheet -/

def quotedFields (track : CueTrackData) : List (String × Option Str) :=
  [("    REM GENRE \"", track.genre), ("    REM LABEL \"", track.label), ("    TITLE \"", track.title),
    ("    PERFORMER \"", track.artist)]

-- What the generator was given to quote.
def quotedValues (audioFilename : Str) (tracks : List CueTrackData) : List Str :=
  audioFilename :: (timed tracks).flatMap fun track => (quotedFields track).filterMap Prod.snd

theorem mem_validTracks {track : CueTrackData} : track ∈ validTracks tracks ↔ track ∈ timed tracks :=
  (List.perm_insertionSort _ _).mem_iff

theorem mem_fieldLines {track : CueTrackData} : line ∈ fieldLines track ↔
    line ∈ yearLine track.year ∨ ∃ field ∈ quotedFields track, line ∈ quotedLine field.1 field.2 := by
  simp only [fieldLines, quotedFields, List.mem_append, List.mem_cons, List.not_mem_nil, or_false, exists_eq_or_imp,
    exists_eq_left]
  tauto

theorem quotedLine_whole {before : String} {value : Option Str} (listed : before ∈ fieldHeads) (whole : ∀ text ∈ value, Whole text) :
    ∀ line ∈ quotedLine before value, Whole line := by
  intro line member
  have heads : ∀ before ∈ fieldHeads, (before.toList.all fun char => !isSeparator (.scalar char)) = true := by decide
  cases value with
  | none => cases member
  | some value =>
    rw [quotedLine] at member
    split at member
    · cases member
    · obtain rfl := List.mem_singleton.mp member
      exact ((str_whole (heads before listed)).append (cueQuote_whole.mpr (whole value rfl))).append (by decide)

theorem yearLine_whole (year : Option Int) : ∀ line ∈ yearLine year, Whole line := by
  intro line member
  cases year with
  | none => cases member
  | some year =>
    rw [yearLine] at member
    split at member
    · cases member
    · obtain rfl := List.mem_singleton.mp member
      exact ((str_whole (by decide)).append (printInt_whole year)).append (by decide)

theorem fileLine_whole (audioFilename fileType : Str) (whole : Whole audioFilename) : Whole (fileLine audioFilename fileType) := by
  have kind : Whole (str (cueType fileType)) := by
    apply str_whole
    exact @cueType_holds (fun kind => (kind.toList.all fun char => !isSeparator (.scalar char)) = true) (by decide) (by decide) fileType
  exact ((((str_whole (by decide)).append (cueQuote_whole.mpr whole)).append (by decide)).append (str_whole (by decide))).append kind

theorem quotedFields_heads {track : CueTrackData} : ∀ field ∈ quotedFields track, field.1 ∈ fieldHeads := by
  intro field member
  have heads : (quotedFields track).map Prod.fst =
      ["    REM GENRE \"", "    REM LABEL \"", "    TITLE \"", "    PERFORMER \""] := rfl
  have listed : ∀ head ∈ (quotedFields track).map Prod.fst, head ∈ fieldHeads := by
    rw [heads]
    decide
  exact listed field.1 (List.mem_map_of_mem member)

theorem sheetLines_whole (whole : ∀ value ∈ quotedValues audioFilename tracks, Whole value) :
    ∀ line ∈ sheetLines audioFilename fileType tracks, Whole line := by
  intro line member
  obtain header | inRecord := List.mem_append.mp member
  · obtain rfl | second := List.mem_cons.mp header
    · exact str_whole (by decide)
    · obtain rfl := List.mem_singleton.mp second
      exact fileLine_whole audioFilename fileType (whole audioFilename List.mem_cons_self)
  · obtain ⟨⟨track, number⟩, listed, inside⟩ := List.mem_flatMap.mp inRecord
    have here : track ∈ timed tracks := mem_validTracks.mp (List.fst_mem_of_mem_zipIdx listed)
    rw [cueTrackRecord_eq] at inside
    obtain rfl | rest := List.mem_cons.mp inside
    · exact ((str_whole (by decide)).append (printTwo_whole number)).append (str_whole (by decide))
    · obtain inner | last := List.mem_append.mp rest
      · obtain year | ⟨field, among, quoted⟩ := mem_fieldLines.mp inner
        · exact yearLine_whole _ line year
        · refine quotedLine_whole (quotedFields_heads field among) (fun text given => ?_) line quoted
          refine whole text (List.mem_cons_of_mem _ (List.mem_flatMap.mpr ⟨track, here, ?_⟩))
          exact List.mem_filterMap.mpr ⟨field, among, given⟩
      · obtain ⟨timestampSeconds, -, rfl⟩ := List.mem_map.mp last
        exact (str_whole (by decide)).append (((((printTwo_whole _).append (str_whole (by decide))).append
          (printTwo_whole _)).append (str_whole (by decide))).append (printTwo_whole _))

theorem splitlines_generateCueContent (whole : ∀ value ∈ quotedValues audioFilename tracks, Whole value) :
    splitlines (generateCueContent audioFilename fileType tracks) = sheetLines audioFilename fileType tracks := by
  rw [generateCueContent_eq]
  refine splitlines_joined (fun line member => ?_) fun line member => ?_
  · exact (sheetLines_lines member).clean.unbroken (sheetLines_whole whole line member)
  · exact (sheetLines_lines member : LineOf audioFilename fileType line).filled

/-! ## The fields stay apart -/

def directives : List Str := [str "FILE", str "TRACK", str "INDEX"]

-- A `TRACK` with its `INDEX`, for a track that has a time.
def pair (entry : CueTrackData × Nat) : List Str :=
  trackLine entry.2 :: entry.1.timestampSeconds.toList.map indexLine

structure Sheet (audioFilename fileType : Str) (tracks : List CueTrackData) (lines : List Str) : Prop where
  file : lines.filter (keyword · = str "FILE") = [fileLine audioFilename fileType]
  pairs : ∃ ordered : List CueTrackData, ordered.Perm (timed tracks) ∧ ordered.Pairwise (·.position ≤ ·.position) ∧
    lines.filter (fun line => keyword line = str "TRACK" ∨ keyword line = str "INDEX") = (ordered.zipIdx 1).flatMap pair
  fields : ∀ line ∈ lines, keyword line ∉ directives → Field line

theorem filter_field {lines : List Str} (fields : ∀ line ∈ lines, Field line) (chosen : Str → Bool)
    (other : ∀ word ∈ [str "REM", str "TITLE", str "PERFORMER"], chosen word = false) :
    lines.filter (fun line => chosen (keyword line)) = [] := by
  rw [List.filter_eq_nil_iff]
  intro line member
  simp [other _ (fields line member).keyword]

theorem filter_cueTrackRecord (number : Nat) (track : CueTrackData) (chosen : Str → Bool)
    (other : ∀ word ∈ [str "REM", str "TITLE", str "PERFORMER"], chosen word = false) :
    (cueTrackRecord number track).filter (fun line => chosen (keyword line)) =
      (pair (track, number)).filter (fun line => chosen (keyword line)) := by
  rw [cueTrackRecord_eq, pair, List.filter_cons, List.filter_append, filter_field (fieldLines_field track) chosen other,
    List.nil_append, List.filter_cons]

theorem filter_sheetLines (audioFilename fileType : Str) (tracks : List CueTrackData) (chosen : Str → Bool)
    (other : ∀ word ∈ [str "REM", str "TITLE", str "PERFORMER"], chosen word = false) :
    (sheetLines audioFilename fileType tracks).filter (fun line => chosen (keyword line)) =
      (if chosen (str "FILE") then [fileLine audioFilename fileType] else []) ++
        ((validTracks tracks).zipIdx 1).flatMap fun entry => (pair entry).filter fun line => chosen (keyword line) := by
  have fields : ∀ line ∈ [str "REM COMMENT \"Generated by Phaze\""], Field line :=
    fun line member => List.mem_singleton.mp member ▸ header_field
  have header := filter_field fields chosen other
  rw [sheetLines, List.filter_append, ← List.singleton_append, List.filter_append, header, List.nil_append, List.filter_cons,
    fileLine_keyword, List.filter_nil, List.filter_flatMap]
  congr 2
  funext entry
  exact filter_cueTrackRecord entry.2 entry.1 chosen other

theorem keyword_pair {entry : CueTrackData × Nat} (member : line ∈ pair entry) :
    keyword line = str "TRACK" ∨ keyword line = str "INDEX" := by
  obtain rfl | rest := List.mem_cons.mp member
  · exact .inl (trackLine_keyword entry.2)
  · obtain ⟨timestampSeconds, -, rfl⟩ := List.mem_map.mp rest
    exact .inr (indexLine_keyword timestampSeconds)

theorem sheetLines_sheet (audioFilename fileType : Str) (tracks : List CueTrackData) :
    Sheet audioFilename fileType tracks (sheetLines audioFilename fileType tracks) := by
  constructor
  · have found := filter_sheetLines audioFilename fileType tracks (· = str "FILE") (by decide)
    have none : ∀ entry : CueTrackData × Nat, (pair entry).filter (keyword · = str "FILE") = [] := by
      intro entry
      rw [List.filter_eq_nil_iff]
      intro line member
      obtain track | index := keyword_pair member
      · rw [track]; decide
      · rw [index]; decide
    rw [found]
    simp [none]
  · have transitive : IsTrans CueTrackData (fun track other => track.position ≤ other.position) := ⟨fun _ _ _ => le_trans⟩
    have total : Std.Total (fun track other : CueTrackData => track.position ≤ other.position) := ⟨fun _ _ => le_total _ _⟩
    refine ⟨validTracks tracks, List.perm_insertionSort _ _, List.pairwise_insertionSort _ _, ?_⟩
    have found := filter_sheetLines audioFilename fileType tracks (fun word => word = str "TRACK" ∨ word = str "INDEX")
      (by decide)
    have all : ∀ entry : CueTrackData × Nat,
        (pair entry).filter (fun line => keyword line = str "TRACK" ∨ keyword line = str "INDEX") = pair entry := by
      intro entry
      rw [List.filter_eq_self]
      intro line member
      simpa using keyword_pair member
    have other : ¬ (str "FILE" = str "TRACK" ∨ str "FILE" = str "INDEX") := by decide
    rw [found]
    simp only [all, other, decide_false, Bool.false_eq_true, if_false, List.nil_append]
  · intro line member free
    have kind : LineOf audioFilename fileType line := sheetLines_lines member
    cases kind with
    | file => exact absurd (fileLine_keyword audioFilename fileType ▸ by decide) free
    | track number => exact absurd (trackLine_keyword number ▸ by decide) free
    | index timestampSeconds => exact absurd (indexLine_keyword timestampSeconds ▸ by decide) free
    | field line field => exact field

/-! ## A value that leaves its field -/

theorem Field.quotes {line : Str} (field : Field line) : line.count quoteMark = 2 := by
  obtain ⟨before, listed, value, rfl, inside⟩ := field
  have heads : ∀ before ∈ fieldHeads, (str before).count quoteMark = 1 := by decide
  have none : value.count quoteMark = 0 := List.count_eq_zero.mpr fun member => (inside quoteMark member).2 rfl
  rw [List.count_append, List.count_append, heads before listed, none, List.count_singleton_self]

theorem exists_separator {value : Str} (broken : ¬ Whole value) :
    ∃ front separator back, value = front ++ separator :: back ∧ Whole front ∧ isSeparator separator = true := by
  induction value with
  | nil => exact absurd (fun _ none => absurd none List.not_mem_nil) broken
  | cons point rest ih =>
    cases separates : isSeparator point with
    | true => exact ⟨[], point, rest, rfl, fun _ none => absurd none List.not_mem_nil, separates⟩
    | false =>
      have later : ¬ Whole rest := fun whole => broken fun other member =>
        (List.mem_cons.mp member).elim (fun here => here ▸ separates) (whole other)
      obtain ⟨front, separator, back, rfl, clean, found⟩ := ih later
      refine ⟨point :: front, separator, back, rfl, ?_, found⟩
      exact fun other member => (List.mem_cons.mp member).elim (fun here => here ▸ separates) (clean other)

-- Up to the first separator of its value, a field is a line of its own.
theorem fragment_mem {before : String} {value front back : Str} {separator : CodePoint} (listed : before ∈ fieldHeads)
    (member : str before ++ cueQuote value ++ [quoteMark] ∈ sheetLines audioFilename fileType tracks)
    (parts : cueQuote value = front ++ separator :: back) (clean : Whole front) (separates : isSeparator separator = true) :
    str before ++ front ∈ splitlines (generateCueContent audioFilename fileType tracks) := by
  obtain ⟨earlier, later, same⟩ := List.append_of_mem member
  have heads : ∀ before ∈ fieldHeads, (before.toList.all fun char => !isControl (.scalar char)) = true ∧
      (before.toList.all fun char => !isSeparator (.scalar char)) = true ∧ str before ≠ [] := by decide
  obtain ⟨noControl, noSeparator, filled⟩ := heads before listed
  have inside : Clean front := by
    intro point here
    exact (cueQuote_clean value point (by rw [parts]; exact List.mem_append_left _ here)).1
  have unbroken : Unbroken (str before ++ front) :=
    ((str_clean noControl).append inside).unbroken ((str_whole noSeparator).append clean)
  have text : generateCueContent audioFilename fileType tracks = earlier.flatMap (· ++ [newline]) ++
      ((str before ++ front) ++ separator :: (back ++ quoteMark :: newline :: later.flatMap (· ++ [newline]))) := by
    rw [generateCueContent_eq, same, parts]
    simp
  rw [text, splitlines_append, List.mem_append]
  refine .inr ?_
  rw [splitlines, splitlinesFrom_line unbroken (isLineBreak_separator separates) false (by simp [filled])]
  exact List.mem_cons_self

theorem fragment_not_field {before : String} {value front : Str} (listed : before ∈ fieldHeads)
    (part : ∀ point ∈ front, point ∈ cueQuote value) : keyword (str before ++ front) ∉ directives ∧ ¬ Field (str before ++ front) := by
  have heads : ∀ before ∈ fieldHeads, ((str before).dropWhile (· = blank)).any (· = blank) = true ∧
      keyword (str before) ∉ directives ∧ (str before).count quoteMark = 1 := by decide
  obtain ⟨stops, other, single⟩ := heads before listed
  constructor
  · rw [keyword_append front stops]
    exact other
  · intro field
    have none : front.count quoteMark = 0 := List.count_eq_zero.mpr fun member => (cueQuote_clean value _ (part _ member)).2 rfl
    have quotes := field.quotes
    rw [List.count_append, single, none] at quotes
    cases quotes

theorem field_mem_sheetLines {track : CueTrackData} {before : String} {value : Str} (timed : track ∈ timed tracks)
    (among : (before, some value) ∈ quotedFields track) (filled : value ≠ []) :
    str before ++ cueQuote value ++ [quoteMark] ∈ sheetLines audioFilename fileType tracks := by
  have listed : track ∈ ((validTracks tracks).zipIdx 1).map Prod.fst := by
    rw [List.zipIdx_map_fst]
    exact mem_validTracks.mpr timed
  obtain ⟨entry, here, rfl⟩ := List.mem_map.mp listed
  refine List.mem_append_right _ (List.mem_flatMap.mpr ⟨entry, here, ?_⟩)
  rw [cueTrackRecord_eq]
  refine List.mem_cons_of_mem _ (List.mem_append_left _ (mem_fieldLines.mpr (.inr ⟨(before, some value), among, ?_⟩)))
  rw [quotedLine]
  simp [filled]

theorem whole_of_sheet (sheet : Sheet audioFilename fileType tracks (splitlines (generateCueContent audioFilename fileType tracks))) :
    ∀ value ∈ quotedValues audioFilename tracks, Whole value := by
  intro value member
  obtain rfl | field := List.mem_cons.mp member
  · have named : fileLine value fileType ∈ splitlines (generateCueContent value fileType tracks) := by
      have only := sheet.file
      exact (List.mem_filter.mp (only ▸ List.mem_singleton_self _)).1
    have whole := whole_of_unbroken (unbroken_of_mem_splitlinesFrom named)
    rw [← cueQuote_whole]
    intro point inside
    refine whole point ?_
    simp only [fileLine, List.mem_append]
    exact .inl (.inl (.inl (.inr inside)))
  · obtain ⟨track, timed, among⟩ := List.mem_flatMap.mp field
    obtain ⟨⟨before, given⟩, listed, rfl⟩ := List.mem_filterMap.mp among
    by_contra broken
    have filled : value ≠ [] := by
      rintro rfl
      exact broken fun _ none => absurd none List.not_mem_nil
    have head := quotedFields_heads _ listed
    obtain ⟨front, separator, back, parts, clean, separates⟩ := exists_separator (mt cueQuote_whole.mp broken)
    have fragment : str before ++ front ∈ splitlines (generateCueContent audioFilename fileType tracks) :=
      fragment_mem head (field_mem_sheetLines timed listed filled) parts clean separates
    have part : ∀ point ∈ front, point ∈ cueQuote value := fun point here => parts ▸ List.mem_append_left _ here
    obtain ⟨free, broke⟩ := fragment_not_field head part
    exact broke (sheet.fields _ fragment free)

theorem sheet_iff_whole : Sheet audioFilename fileType tracks (splitlines (generateCueContent audioFilename fileType tracks)) ↔
    ∀ value ∈ quotedValues audioFilename tracks, Whole value := by
  constructor
  · exact whole_of_sheet
  · intro whole
    rw [splitlines_generateCueContent whole]
    exact sheetLines_sheet audioFilename fileType tracks

end Phaze.Cue
