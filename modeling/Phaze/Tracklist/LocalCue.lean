import Phaze.Shared.Texts
import Phaze.Tracklist.Snapshots

set_option autoImplicit false

/-!
# Local CUE sheets

`_Parse` and `_cue` of `tracklist_providers/local_parser.py`: the rows, errors and evidence that the directives of
a sheet leave behind.
-/

namespace Phaze.Tracklist

open Phaze.Percent Phaze.Unicode

/-! ## Values -/

def boundedEvidence (values : List Text) : List Text := (values.take 64).map (List.take 4096)

def unknownWords : List Text := [str "id", str "unknown", str "unidentified", str "?", str "???"]

def known (value : Option Text) : Option Text :=
  value.bind fun value =>
    if casefold (strip value) ∈ unknownWords then none else if strip value = [] then none else some (strip value)

-- `^"([^"\n]*)"$`
def quotedValue : Text → Option Text
  | [] => none
  | first :: rest =>
      if first = quoteMark && rest.getLast? = some quoteMark && rest.dropLast.all (fun point => point ≠ quoteMark && point ≠ newline)
      then some rest.dropLast else none

def cueValue (value : Text) : Option Text :=
  match quotedValue value with
  | some inner => some inner
  | none => if value ≠ [] && value.all (fun point => !isSpace point && point ≠ quoteMark) then some value else none

/-! ## Syntax of a line -/

-- `cue_line`: what stands before the first semicolon outside quotes.
def cueLineFrom (line : Text) : Bool → Text → Text → Text
  | _, _, [] => line
  | quoted, before, point :: rest =>
      if point = quoteMark then cueLineFrom line (!quoted) (before ++ [point]) rest
      else if point = .scalar ';' && !quoted then rstrip before
      else cueLineFrom line quoted (before ++ [point]) rest

def cueLine (line : Text) : Text := cueLineFrom line false [] line

-- `^([A-Za-z]+)\s+(.+)$` on a line without outer whitespace.
def directive (line : Text) : Option (Text × Text) :=
  let keyword := line.takeWhile isAsciiLetter
  let rest := line.dropWhile isAsciiLetter
  let value := rest.dropWhile isSpace
  if keyword = [] || rest = value || value = [] || newline ∈ value then none else some (keyword, value)

-- A run of decimal digits of a length, and what follows it.
def digitRun (least most : Nat) (text : Text) : Option (Text × Text) :=
  let run := text.takeWhile isDecimal
  if least ≤ run.length && run.length ≤ most then some (run, text.dropWhile isDecimal) else none

-- `\s+` and then the rest.
def spaced (text : Text) : Option Text := if text.head?.any isSpace then some (text.dropWhile isSpace) else none

def cueFileTypes : List String := ["WAVE", "MP3", "AIFF", "BINARY", "MOTOROLA"]

def isFileType (text : Text) : Bool := cueFileTypes.any fun literal => matchesWord literal text

-- `^(?:"([^"\n]+)"|(\S+))\s+(WAVE|MP3|AIFF|BINARY|MOTOROLA)$`: the name.
def quotedFile : Text → Option Text
  | [] => none
  | first :: rest =>
      let name := rest.takeWhile fun point => point ≠ quoteMark && point ≠ newline
      match rest.drop name.length with
      | [] => none
      | last :: after =>
          if first = quoteMark && last = quoteMark && name ≠ [] && (spaced after).any isFileType then some name else none

def bareFile (value : Text) : Option Text :=
  let name := value.takeWhile fun point => !isSpace point
  if name ≠ [] && (spaced (value.drop name.length)).any isFileType then some name else none

def cueFileName (value : Text) : Option Text :=
  match quotedFile value with
  | some name => some name
  | none => bareFile value

-- `^(\d{1,4})\s+AUDIO$`
def cueTrackNumber (value : Text) : Option Nat :=
  (digitRun 1 4 value).bind fun run => if (spaced run.2).any (matchesWord "AUDIO") then parseDecimal run.1 else none

structure CueIndex where
  index : Text
  minutes : Text
  seconds : Text
  frames : Text

-- `^(\d{2})\s+(\d{1,6}):(\d{2}):(\d{2})$`
def cueIndex (value : Text) : Option CueIndex := do
  let (index, rest) ← digitRun 2 2 value
  let rest ← spaced rest
  match rest.splitOn (.scalar ':') with
  | [minutes, seconds, frames] =>
      if 1 ≤ minutes.length && minutes.length ≤ 6 && seconds.length = 2 && frames.length = 2 &&
          (minutes ++ seconds ++ frames).all isDecimal
      then some { index, minutes, seconds, frames } else none
  | _ => none

def number (text : Text) : Nat := (parseDecimal text).getD 0

-- `value.split()[-1]`
def lastWord (value : Text) : Text := (words value).getLast?.getD []

/-! ## What a parse keeps -/

structure Row where
  number : Nat
  line : Nat
  position : Nat
  artist : Option Text := none
  title : Option Text := none
  timestamp : Option Timestamp := none
  label : Option Text := none
  remix : Option Text := none
  mashup : Bool := false
  origin : Option Text := none
  sectionOrdinal : Option Nat := none
  fields : List String := []
  evidence : List Text := []
deriving DecidableEq

structure Parse where
  rows : List Row := []
  errors : List Text := []
  warnings : List Text := []
  evidence : List Text := []
  artist : Option Text := none
  artistEvidence : List Text := []
  sections : List TrackSection := []
  globalGrammarUncertain : Bool := false
  -- Every call of `reject`, of which the code keeps no record.
  rejected : List (Nat × Text) := []
deriving DecidableEq

def lineTag (line : Nat) : Text := str "line:" ++ digits line

def errorText (line : Nat) (reason : Text) : Text := lineTag line ++ str ":" ++ reason

def endsWith (text suffix : Text) : Bool := suffix.isSuffixOf text

def Parse.reject (parse : Parse) (line : Nat) (reason : Text) : Parse :=
  { parse with
    rejected := parse.rejected ++ [(line, reason)]
    errors :=
      if parse.errors.length < 64 then parse.errors ++ [errorText line reason]
      else if endsWith reason (str "cap") || reason = str "partial_input" then parse.errors.dropLast ++ [errorText line reason]
      else parse.errors }

def lastPosition (parse : Parse) : Nat := (parse.rows.getLast?.map Row.position).getD 0

-- The parse, and whether a row was added at its end.
def Parse.add (parse : Parse) (number line : Nat) (budget : LoadBudget) (position : Nat) : Parse × Bool :=
  if parse.rows.length ≥ budget.maxTracks then (parse.reject line (str "track_cap"), false)
  else
    let previous := lastPosition parse
    let taken := position ≤ previous
    let parse := if taken then parse.reject line (str "conflicting_numbering") else parse
    let row : Row :=
      { number, line, position := if taken then previous + 1 else position
        evidence := [lineTag line, str "declared_position:" ++ digits number] }
    ({ parse with rows := parse.rows ++ [row] }, true)

def Parse.onLast (parse : Parse) (change : Row → Row) : Parse := { parse with rows := parse.rows.modifyLast change }

def Row.note (row : Row) (evidence : Text) : Row := { row with evidence := row.evidence ++ [evidence] }

/-! ## The directives -/

-- `current` is the last row while it is open.
structure CueState where
  parse : Parse := {}
  current : Bool := false
  fileOrigin : Option Text := none
  fileCount : Nat := 0
  seenTrack : Bool := false
  setFields : List String := []
  fileEvidence : Option Text := none
  filePositionOffset : Nat := 0
  fileFirstTrack : Bool := true
  offsets : List (Text × Nat) := []

def CueState.reject (state : CueState) (line : Nat) (reason : Text) : CueState :=
  { state with parse := state.parse.reject line reason }

def CueState.onCurrent (state : CueState) (change : Row → Row) : CueState := { state with parse := state.parse.onLast change }

def CueState.currentRow (state : CueState) : Option Row := if state.current then state.parse.rows.getLast? else none

def flags : List Text := [str "DCP", str "4CH", str "PRE", str "SCMS"]

def notedKeywords : List String := ["CATALOG", "CDTEXTFILE", "SONGWRITER", "ISRC", "FLAGS", "PREGAP", "POSTGAP", "INFO"]

def notedValid (keyword : String) (value : Text) : Bool :=
  if keyword = "FLAGS" then (words (value.map upperPoint)).all (· ∈ flags)
  else if keyword = "PREGAP" ∨ keyword = "POSTGAP" then
    (cueIndex (str "00 " ++ value)).any fun gap => number gap.seconds < 60 && number gap.frames < 75
  else (cueValue value).isSome

def cueNoted (keyword : String) (value : Text) (line : Nat) (state : CueState) : CueState :=
  let note := lineTag line ++ str ":" ++ str keyword ++ str ":" ++ value
  if notedValid keyword value = false then state.reject line (str "malformed_" ++ str keyword)
  else if keyword ∈ ["ISRC", "FLAGS", "PREGAP", "POSTGAP"] ∧ state.current = false then
    state.reject line (str "orphan_" ++ str keyword)
  else if state.current then state.onCurrent (Row.note · note)
  else { state with parse := { state.parse with evidence := state.parse.evidence ++ [note] } }

def cueFile (originKey value : Text) (line : Nat) (state : CueState) : CueState :=
  let count := state.fileCount + 1
  let opened := { state with fileCount := count, current := false, filePositionOffset := 0, fileFirstTrack := true }
  match cueFileName value with
  | none => { opened with fileOrigin := none, fileEvidence := none }.reject line (str "unsupported_FILE")
  | some name =>
      let note := str "FILE:" ++ digits count ++ str ":" ++ name
      { opened with
        fileOrigin := some (str "cue:" ++ originKey ++ str ":file:" ++ digits count)
        fileEvidence := some note
        parse := { state.parse with evidence := state.parse.evidence ++ [lineTag line ++ str ":" ++ note] } }

-- Tracks of a further file go on after the rows there are.
def CueState.trackOffset (state : CueState) (number : Nat) : Nat :=
  let previous := lastPosition state.parse
  if state.fileFirstTrack && 1 < state.fileCount && 0 < number && number ≤ previous then previous else state.filePositionOffset

def cueTrack (budget : LoadBudget) (value : Text) (line : Nat) (state : CueState) : CueState :=
  let closed := { state with seenTrack := true, current := false }
  match cueTrackNumber value with
  | none => closed.reject line (str "unsupported_TRACK")
  | some number =>
      let offset := state.trackOffset number
      let added := state.parse.add number line budget (offset + number)
      let opened := { closed with filePositionOffset := offset, fileFirstTrack := false, parse := added.1, current := added.2 }
      if added.2 = false then opened
      else
        let placed := opened.onCurrent fun row =>
          { row with origin := state.fileOrigin, evidence := row.evidence ++ state.fileEvidence.toList }
        if state.fileOrigin.isNone then placed.reject line (str "missing_FILE_origin") else placed

def cueName (keyword : String) (value : Text) (line : Nat) (state : CueState) : CueState :=
  match cueValue value with
  | none => state.reject line (str "malformed_" ++ str keyword)
  | some inner =>
      let parsed := known (some inner)
      match state.currentRow with
      | some row =>
          if keyword ∈ row.fields then state.reject line (str "duplicate_" ++ str keyword)
          else state.onCurrent fun row =>
            { (if keyword = "PERFORMER" then { row with artist := parsed } else { row with title := parsed }) with
              fields := row.fields ++ [keyword], evidence := row.evidence ++ [lineTag line ++ str ":" ++ str keyword] }
      | none =>
          if state.seenTrack then state.reject line (str "orphan_" ++ str keyword)
          else if keyword ∈ state.setFields then state.reject line (str "duplicate_set_" ++ str keyword)
          else
            let set := { state with setFields := state.setFields ++ [keyword] }
            if keyword = "PERFORMER" then
              { set with parse := { state.parse with artist := parsed, artistEvidence := [lineTag line ++ str ":set_PERFORMER"] } }
            else set

def Timestamp.unusable (timestamp : Timestamp) : Timestamp := { timestamp with offsetUsability := .unusable }

def offsetOf (origin : Text) (offsets : List (Text × Nat)) : Nat := (offsets.lookup origin).getD 0

def cueFrameStamp (total line : Nat) (original : Text) (origin : Option Text) (usable : Bool) : Timestamp :=
  { original, kind := .offset, precision := .cueFrame75, origin
    offset := some { numerator := total, denominator := 75, positive := by decide }
    offsetUsability := if usable then .qualified else .unusable
    evidence := [str "CUE INDEX01 is relative to its FILE origin; target recording unresolved", lineTag line] }

def badFrameStamp (original warning : Text) (origin : Option Text) : Timestamp :=
  { original, kind := .offset, origin, evidence := [warning, str "Invalid CUE frame value; no offset inferred or overflow normalized"] }

-- A second `INDEX 01` of a track.
def cueConflict (line : Nat) (state : CueState) : CueState :=
  (state.reject line (str "conflicting_INDEX01")).onCurrent fun row =>
    { row with timestamp := row.timestamp.map Timestamp.unusable }

def CueState.warn (state : CueState) (warning : Text) : CueState :=
  { state with parse := { state.parse with
    warnings := if state.parse.warnings.length < 64 then state.parse.warnings ++ [warning] else state.parse.warnings } }

def cueBadFrames (spot : CueIndex) (original : Text) (line : Nat) (row : Row) (state : CueState) : CueState :=
  let warning := lineTag line ++ str ":invalid_INDEX" ++ spot.index ++ str "_frames:" ++ spot.frames ++ str ":expected_0_to_74"
  let noted := (state.warn warning).onCurrent (Row.note · warning)
  if spot.index ≠ str "01" then noted
  else if row.timestamp.isSome then cueConflict line noted
  else noted.onCurrent fun row => { row with timestamp := some (badFrameStamp original warning row.origin) }

def cueGoodFrames (spot : CueIndex) (original : Text) (line : Nat) (row : Row) (state : CueState) : CueState :=
  if spot.index ≠ str "01" then state
  else
    let total := number spot.minutes * 60 * 75 + number spot.seconds * 75 + number spot.frames
    if row.timestamp.isSome then cueConflict line state
    else match row.origin with
      | none => state.onCurrent fun row => { row with timestamp := some (cueFrameStamp total line original none false) }
      | some origin =>
          let reached := offsetOf origin state.offsets
          let backwards := total < reached
          let checked := if backwards then state.reject line (str "nonmonotonic_INDEX01") else state
          { checked with offsets := (origin, max reached total) :: state.offsets }.onCurrent fun row =>
            { row with timestamp := some (cueFrameStamp total line original (some origin) (!backwards)) }

def cueIndexLine (value : Text) (line : Nat) (state : CueState) : CueState :=
  match state.currentRow, cueIndex value with
  | some row, some spot =>
      if number spot.seconds > 59 then state.reject line (str "malformed_INDEX")
      else
        let noted := state.onCurrent (Row.note · (lineTag line ++ str ":INDEX" ++ spot.index ++ str ":" ++ lastWord value))
        if number spot.frames > 74 then cueBadFrames spot (lastWord value) line row noted
        else cueGoodFrames spot (lastWord value) line row noted
  | _, _ => state.reject line (str "malformed_INDEX")

def cueDirective (budget : LoadBudget) (originKey keyword value : Text) (line : Nat) (state : CueState) : CueState :=
  if keyword = str "REM" then state
  else match notedKeywords.find? fun noted => str noted = keyword with
    | some noted => cueNoted noted value line state
    | none =>
        if keyword = str "FILE" then cueFile originKey value line state
        else if keyword = str "TRACK" then cueTrack budget value line state
        else if keyword = str "PERFORMER" then cueName "PERFORMER" value line state
        else if keyword = str "TITLE" then cueName "TITLE" value line state
        else if keyword = str "INDEX" then cueIndexLine value line state
        else state.reject line (str "unsupported_" ++ keyword)

def cueStep (budget : LoadBudget) (originKey : Text) (state : CueState) (entry : Text × Nat) : CueState :=
  let line := strip entry.1
  if line = [] then state
  else if line.length > 4096 then state.reject entry.2 (str "line_field_cap")
  else if cueLine line = [] then state
  else match directive (cueLine line) with
    | none => state.reject entry.2 (str "malformed_directive")
    | some (keyword, value) => cueDirective budget originKey (keyword.map upperPoint) value entry.2 state

-- A row without a performer of its own takes the one of the set.
def inherit (parse : Parse) (row : Row) : Row :=
  if "PERFORMER" ∈ row.fields then row
  else { row with artist := parse.artist, evidence := row.evidence ++ parse.artistEvidence }

def cue (lines : List Text) (budget : LoadBudget) (originKey : Text) : Parse :=
  let parse := ((lines.zipIdx 1).foldl (cueStep budget originKey) {}).parse
  { parse with rows := parse.rows.map (inherit parse) }

end Phaze.Tracklist
