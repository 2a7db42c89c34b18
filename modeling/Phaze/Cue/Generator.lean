import Mathlib
import Phaze.Shared.Unicode

set_option autoImplicit false

/-!
# CUE sheets

`generate_cue_content` and `retarget_cue_file_line` of `services/cue_generator.py`. Times are exact rationals.
-/

namespace Phaze.Cue

open Phaze.Percent Phaze.Unicode

structure CueTrackData where
  position : Int
  title : Option Str := none
  artist : Option Str := none
  timestampSeconds : Option ℚ := none
  genre : Option Str := none
  label : Option Str := none
  year : Option Int := none
deriving DecidableEq

def fileTypeMap : List (Str × String) :=
  [(str "mp2", "MP3"), (str "mp3", "MP3"), (str "wav", "WAVE"), (str "wave", "WAVE"), (str "aiff", "AIFF"), (str "aif", "AIFF"),
    (str "flac", "WAVE"), (str "ogg", "WAVE"), (str "m4a", "WAVE"), (str "opus", "WAVE")]

-- `str.lower`, as far as the keys of the map can tell: no other character has one of their letters as its lower case.
def lowerPoint : CodePoint → CodePoint
  | .scalar char => .scalar char.toLower
  | .surrogate code => .surrogate code

def cueType (fileType : Str) : String := (fileTypeMap.lookup (fileType.map lowerPoint)).getD "WAVE"

/-! ## Values -/

-- `[\x00-\x1f\x7f]`
def isControl (point : CodePoint) : Bool := code point ≤ 0x1F || code point = 0x7F

def cueQuote (value : Str) : Str :=
  (value.map fun point => if isControl point then .scalar ' ' else point).filter (· ≠ quoteMark)

-- `int(total_seconds * 75)` drops the fraction towards zero.
def totalFrames (totalSeconds : ℚ) : Int := (totalSeconds * 75).num.tdiv (totalSeconds * 75).den

def secondsToCueTimestamp (totalSeconds : ℚ) : Str :=
  let frames := totalFrames totalSeconds % 75
  let totalSecs := totalFrames totalSeconds / 75
  printTwo (totalSecs / 60) ++ str ":" ++ printTwo (totalSecs % 60) ++ str ":" ++ printTwo frames

/-! ## The sheet -/

-- `if value: record.append(f'{prefix}"{_cue_quote(value)}"')`
def quotedLine (before : String) (value : Option Str) : List Str :=
  match value with
  | some value => if value = [] then [] else [str before ++ cueQuote value ++ [quoteMark]]
  | none => []

def yearLine (year : Option Int) : List Str :=
  match year with
  | some year => if year = 0 then [] else [str "    REM YEAR \"" ++ printInt year ++ [quoteMark]]
  | none => []

def trackLine (trackNumber : Nat) : Str := str "  TRACK " ++ printTwo trackNumber ++ str " AUDIO"

def indexLine (timestampSeconds : ℚ) : Str := str "    INDEX 01 " ++ secondsToCueTimestamp timestampSeconds

def cueTrackRecord (trackNumber : Nat) (track : CueTrackData) : List Str :=
  let record := trackLine trackNumber ::
    (quotedLine "    REM GENRE \"" track.genre ++ quotedLine "    REM LABEL \"" track.label ++ yearLine track.year ++
      quotedLine "    TITLE \"" track.title ++ quotedLine "    PERFORMER \"" track.artist)
  match track.timestampSeconds with
  | none => record
  | some timestampSeconds => record ++ [indexLine timestampSeconds]

def fileLine (audioFilename fileType : Str) : Str :=
  str "FILE \"" ++ cueQuote audioFilename ++ [quoteMark] ++ str " " ++ str (cueType fileType)

def timed (tracks : List CueTrackData) : List CueTrackData := tracks.filter fun track => track.timestampSeconds.isSome

def validTracks (tracks : List CueTrackData) : List CueTrackData :=
  (timed tracks).insertionSort fun track other => track.position ≤ other.position

def sheetLines (audioFilename fileType : Str) (tracks : List CueTrackData) : List Str :=
  [str "REM COMMENT \"Generated by Phaze\"", fileLine audioFilename fileType] ++
    ((validTracks tracks).zipIdx 1).flatMap fun entry => cueTrackRecord entry.2 entry.1

-- `"\n".join(lines) + "\n"`
def generateCueContent (audioFilename fileType : Str) (tracks : List CueTrackData) : Str :=
  [newline].intercalate (sheetLines audioFilename fileType tracks) ++ [newline]

/-! ## The retarget -/

-- `FILE "[^"]*"` at the head of a text: what follows it.
def fileDirective (text : Str) : Option Str :=
  if (str "FILE \"").isPrefixOf text then
    match (text.drop 6).dropWhile (· ≠ quoteMark) with
    | [] => none
    | _ :: rest => some rest
  else none

theorem fileDirective_shorter {text rest : Str} (found : fileDirective text = some rest) : rest.length < text.length := by
  rw [fileDirective] at found
  split at found
  next starts =>
    split at found
    next => cases found
    next mark after reached =>
      obtain rfl := Option.some.inj found
      have shorter := (List.dropWhile_sublist (· ≠ quoteMark) (l := text.drop 6)).length_le
      rw [reached, List.length_cons, List.length_drop] at shorter
      omega
  next => cases found

-- `subn` of the directive at every start of a line: the text and the number of replacements.
def substitute (replacement : Str) (lineStart : Bool) : Str → Str × Nat
  | [] => ([], 0)
  | point :: rest =>
      match _found : if lineStart then fileDirective (point :: rest) else none with
      | some after =>
          let (patched, count) := substitute replacement false after
          (replacement ++ patched, count + 1)
      | none =>
          let (patched, count) := substitute replacement (point = newline) rest
          (point :: patched, count)
termination_by text => text.length
decreasing_by
  · split at _found
    · exact fileDirective_shorter _found
    · cases _found
  · simp

def retargetCueFileLine (content audioFilename : Str) : Except Str Str :=
  let (patched, count) := substitute (str "FILE \"" ++ cueQuote audioFilename ++ [quoteMark]) true content
  if count ≠ 1 then
    .error (str "CUE content carries " ++ printInt count ++
      str " FILE directives, expected exactly 1 -- refusing to write a sheet with an unclear audio reference")
  else .ok patched

end Phaze.Cue
