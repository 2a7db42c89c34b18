import Phaze.Tracklist.TextSyntax

set_option autoImplicit false

/-!
# Local free text

`_text_timestamp`, `_text_fields` and `_text` of `tracklist_providers/local_parser.py`.
-/

namespace Phaze.Tracklist

open Phaze.Percent Phaze.Unicode Phaze.Patterns

structure TextSection where
  ordinal : Nat
  title : Option Text
  line : Nat
  lastNumber : Option Nat := none
  zeroBased : Bool := false
  offset : Nat := 0
  rowCount : Nat := 0
  declared : Bool := false
  errors : List Text := []
  warnings : List Text := []
deriving DecidableEq

variable (isWord : CodePoint → Bool)

/-! ## One row -/

def groupOf (place : Place) (index : Nat) : Text := (place.text? index).getD []

-- The timestamp, and the rejection of its text.
def textTimestamp (original : Text) (line : Nat) : Timestamp × List Text :=
  match fullmatch isWord timePattern original with
  | some place =>
      let valid := number (groupOf place 3) ≤ 59 && (place.text? 4).all fun third => number third ≤ 59
      ({ original
         kind := if (place.text? 1).isSome then .clock else .unknown
         precision := if valid then .second else .unknown
         evidence := [lineTag line, str "No demonstrated recording-relative origin"] },
        if valid then [] else [str "malformed_timestamp"])
  | none =>
      if (fullmatch isWord minutePattern original).isSome then
        ({ original, precision := .minute, evidence := [lineTag line, str "Minute source precision; origin unknown"] }, [])
      else ({ original, evidence := [lineTag line] }, [str "unsupported_timestamp"])

-- A row under construction with the reasons it was rejected for, those that its section notes itself, and warnings.
structure Draft where
  row : Row
  body : Text
  reasons : List Text := []
  noted : List Text := []
  warnings : List Text := []
  supported : Bool := true

def Draft.note (draft : Draft) (evidence : Text) : Draft := { draft with row := draft.row.note evidence }

def Draft.warn (draft : Draft) (warning : String) : Draft :=
  { draft with warnings := draft.warnings ++ [errorText draft.row.line (str warning)] }

-- `result.reject` and the same error in the section.
def Draft.fail (draft : Draft) (reason : String) : Draft :=
  { draft with reasons := draft.reasons ++ [str reason], noted := draft.noted ++ [errorText draft.row.line (str reason)] }

def withoutDuration (draft : Draft) : Draft :=
  match search isWord duration draft.body with
  | none => draft
  | some found =>
      { draft with body := rstrip found.front }.note
        (lineTag draft.row.line ++ str ":trailing_time:" ++ groupOf found.place 1 ++ str ":origin_unknown")

-- The annotation at the end of the body.
def annotate (draft : Draft) (found : Found) : Draft :=
  let rest := { draft with body := strip found.front }
  match found.place.text? 1, found.place.text? 2 with
  | some label, _ =>
      { rest with
        row := { draft.row with label := known (some label) }
        reasons := draft.reasons ++ if draft.row.label.isSome then [str "duplicate_label"] else [] }
  | none, some remix =>
      { rest with
        row := { draft.row with remix := known (some remix) }
        reasons := draft.reasons ++ if draft.row.remix.isSome then [str "duplicate_remix"] else [] }
  | none, none => { rest with row := { draft.row with mashup := true } }

def annotations : Nat → Draft → Draft
  | 0, draft => draft
  | count + 1, draft =>
      match search isWord annotation draft.body with
      | none => draft
      | some found => annotations count (annotate draft found)

def columnsOf (body : Text) : List Text := ((body.splitOn (.scalar '\t')).map strip).filter (· ≠ [])

-- `body.lower().startswith("title:")`; the fold is `lower` for these letters.
def startsWithTitle (body : Text) : Bool := (str "title:").isPrefixOf (body.flatMap foldPoint)

def attributed (titleAllowed : Bool) (draft : Draft) : Draft :=
  let body := draft.body
  match columnsOf body, separators body with
  | artist :: title :: more, _ =>
      let named := { draft with row := { draft.row with artist := known (some artist), title := known (some title) } }
      if more = [] then named
      else (named.warn "additional_columns_unresolved").note (str "Additional columns retained in original text; meaning unresolved")
  | _, [begins] =>
      { draft with row := { draft.row with artist := known (some (body.take begins)), title := known (some (body.drop (begins + 1))) } }
  | _, _ :: _ :: _ =>
      (draft.warn "ambiguous_artist_title").note (str "Artist/title split unresolved; original line retained")
  | _, [] =>
      if (matchStart isWord unknownPattern body).isSome then
        draft.note (str "Unknown identity annotation retained; no invented title")
      else if startsWithTitle body then { draft with row := { draft.row with title := known (some (body.drop 6)) } }
      else if titleAllowed then
        if contains body "-" then
          ({ draft with row := { draft.row with title := none } }.warn "unspaced_artist_title_unresolved").note
            (str "Unspaced artist/title structure unresolved; original line retained")
        else { draft with row := { draft.row with title := known (some body) } }
      else { draft.fail "unsupported_title_only_body" with supported := false }

def textFields (row : Row) (body : Text) (titleAllowed : Bool) : Draft :=
  if body = [] then ({ row, body } : Draft).fail "empty_track_body"
  else
    let read := annotations isWord 3 (withoutDuration isWord { row, body })
    let read := if (search isWord annotation read.body).isSome then { read with reasons := read.reasons ++ [str "annotation_cap"] } else read
    let named := attributed isWord titleAllowed read
    if named.supported && named.body = [] then named.fail "empty_track_body" else named

/-! ## The kind of a line -/

structure TextContext where
  lines : List Text
  budget : LoadBudget

def TextContext.texts (context : TextContext) : List Text := (context.lines.map noteLine).filter (· ≠ [])

def TextContext.orderedLines (context : TextContext) : List (Text × Place) :=
  context.texts.filterMap fun line => (fullmatch isWord ordered line).map (line, ·)

def TextContext.titleTable (context : TextContext) : Bool :=
  2 ≤ ((context.orderedLines isWord).filter fun entry => (search isWord duration entry.1).isSome).length

def TextContext.numberedTracks (context : TextContext) : Bool :=
  (context.orderedLines isWord).any fun entry => separators (bodyOf entry.2) ≠ []

def TextContext.orderedCount (context : TextContext) : Nat := (context.orderedLines isWord).length

inductive TextLine where
  | frame
  | blank (closes : Bool)
  | overlong
  | inHeader
  | heading (line : Text)
  | declared (line : Text)
  | absent
  | excluded (pending : Option Text)
  | label (pending : Option Text)
  | titled (line : Text)
  | unsupportedNumber
  | other (pending : Option Text)
  | ornament
  | row (parsed : TextRowSyntax)

-- A label without a value is a title for what follows.
def labelTitle (line : Text) : Option Text :=
  if line.getLast? = some (.scalar ':') && (fullmatch isWord labeled line).any (fun place => groupOf place 2 = []) then
    some (line.reverse.dropWhile (· = .scalar ':')).reverse
  else none

def rowSyntax (context : TextContext) (index : Nat) (line : Text) : TextRowSyntax :=
  let parsed := prefixOf isWord line
  if parsed.number.isSome && context.orderedCount isWord = 1 && (matchStart isWord bareNumber line).isSome &&
      adjacentRow isWord context.lines index then { number := none, body := line }
  else parsed

def titlesList (context : TextContext) (index : Nat) (line : Text) (parsed : TextRowSyntax) : Bool :=
  parsed.number.isNone && parsed.time.isNone &&
    (nextNumbered isWord context.lines index).any (fun following => following.number = some 0 || following.number = some 1) &&
    (search isWord liveSet line).isSome

def rowKind (context : TextContext) (explicitHeading : Bool) (index : Nat) (line : Text) : TextLine :=
  let parsed := rowSyntax isWord context index line
  if titlesList isWord context index line parsed then .titled line
  else if (matchStart isWord sideNumber line).isSome then .unsupportedNumber
  else if (parsed.number.isNone && parsed.time.isNone &&
      !(plainRow isWord line && (explicitHeading || adjacentRow isWord context.lines index))) then
    .other (if line.length ≤ 512 then some line else none)
  else if !contains parsed.body "[" && (fullmatch isWord decoration (parsed.body.filter notDigit)).isSome then .ornament
  else .row parsed

def lineKind (context : TextContext) (headerFrame explicitHeading : Bool) (index : Nat) (raw : Text) : TextLine :=
  let line := noteLine raw
  if exportFrame isWord context.lines index then .frame
  else if line = [] || (fullmatch isWord decoration line).isSome then .blank (startsWith (lstrip raw) "\\")
  else if line.length > 4096 then .overlong
  else if headerFrame then .inHeader
  else if heading isWord line then .heading line
  else if (fullmatch isWord sectionPattern line).isSome || (matchStart isWord lineup line).isSome then .declared line
  else if (matchStart isWord absentPattern line).isSome then .absent
  else if (matchStart isWord dateHeader line).isSome then .excluded (some line)
  else if ((search isWord mediaName line).isSome && !explicitHeading) || contains line "://" then .excluded none
  else if ((fullmatch isWord header line).isSome || (fullmatch isWord labeled line).isSome) && (fullmatch isWord timed line).isNone then
    .label (labelTitle isWord line)
  else rowKind isWord context explicitHeading index line

/-! ## The parse -/

-- The open section is the last one.
structure TextState where
  parse : Parse := {}
  sections : List TextSection := []
  explicitHeading : Bool := false
  pendingTitle : Option (Text × Nat) := none
  headerFrame : Bool := false
  stopped : Bool := false

def TextState.reject (state : TextState) (line : Nat) (reason : Text) : TextState :=
  { state with parse := state.parse.reject line reason }

def TextState.onSection (state : TextState) (change : TextSection → TextSection) : TextState :=
  { state with sections := state.sections.modifyLast change }

def TextState.current (state : TextState) : Option TextSection := state.sections.getLast?

-- A rejection that the open section notes as well.
def TextState.fail (state : TextState) (line : Nat) (reason : String) : TextState :=
  (state.reject line (str reason)).onSection fun part => { part with errors := part.errors ++ [errorText line (str reason)] }

def TextState.exclude (state : TextState) (line : Nat) (reason : String) : TextState :=
  { state with parse := { state.parse with evidence := state.parse.evidence ++ [errorText line (str reason)] } }

def sectionCap : Nat := 4096

def TextState.begin (budget : LoadBudget) (title : Option Text) (line : Nat) (state : TextState) : TextState :=
  if state.sections.length ≥ min budget.maxTracks sectionCap then state.reject line (str "section_cap")
  else
    { state with
      sections := state.sections ++ [{ ordinal := state.sections.length + 1, title, line, offset := lastPosition state.parse }] }

-- Begins with the pending title, which is used up.
def TextState.beginPending (budget : LoadBudget) (title : Option Text) (line : Nat) (state : TextState) : TextState :=
  match state.pendingTitle with
  | some (pending, place) => { state.begin budget (some pending) place with pendingTitle := none }
  | none => { state.begin budget title line with pendingTitle := none }

def TextSection.used (part : TextSection) : Bool := 0 < part.rowCount || part.errors ≠ []

def TextState.heading (budget : LoadBudget) (line : Text) (number : Nat) (state : TextState) : TextState :=
  let opened := { state with explicitHeading := true }
  if state.current.all TextSection.used then opened.beginPending budget (some line) number
  else { opened with pendingTitle := none }

def TextState.declared (budget : LoadBudget) (line : Text) (number : Nat) (state : TextState) : TextState :=
  let kept :=
    if state.current.any fun part => !part.used && !part.declared then { state with sections := state.sections.dropLast } else state
  { (kept.begin budget (some line) number).onSection fun part => { part with declared := true } with
    explicitHeading := true, pendingTitle := none }

def TextState.absent (budget : LoadBudget) (number : Nat) (state : TextState) : TextState :=
  let opened :=
    if state.current.all fun part => state.pendingTitle.isSome && part.used then state.beginPending budget none number
    else { state with pendingTitle := none }
  { opened.onSection fun part => { part with errors := part.errors ++ [errorText number (str "no_tracklist_present")] } with
    explicitHeading := false }

def numberOf (parsed : TextRowSyntax) (part : TextSection) : Nat := parsed.number.getD (part.lastNumber.elim 1 (· + 1))

def TextSection.goesBack (part : TextSection) (number : Nat) : Bool := part.lastNumber.any fun last => number ≤ last

def TextSection.take (part : TextSection) (number : Nat) : TextSection :=
  { part with
    zeroBased := if part.lastNumber.isNone then decide (number = 0) else part.zeroBased
    lastNumber := some number }

-- `original, body`, or none where the bracket holds no unknown cue.
def unknownCue (body : Text) : Option (Text × Text) :=
  let (original, rest) := splitBracket body.tail
  if contains body "]" && original ≠ [] && original.all (fun point => isDecimal point || point = .scalar '?') && contains original "?"
  then some (original, strip rest) else none

def TextState.onRow (state : TextState) (change : Row → Row) : TextState := { state with parse := state.parse.onLast change }

def TextState.rejectAll (state : TextState) (line : Nat) (reasons : List Text) : TextState :=
  reasons.foldl (fun state reason => state.reject line reason) state

-- Takes the draft of the last row, or the row away.
def TextState.settle (line : Nat) (draft : Draft) (state : TextState) : TextState :=
  let noted := (state.rejectAll line draft.reasons).onSection fun part =>
    { part with errors := part.errors ++ draft.noted, warnings := part.warnings ++ draft.warnings }
  if draft.supported then noted.onRow fun _ => draft.row
  else
    { noted with parse := { noted.parse with rows := noted.parse.rows.dropLast } }.onSection fun part =>
      { part with rowCount := part.rowCount - 1 }

def TextState.lastRow (state : TextState) : Option Row := state.parse.rows.getLast?

-- The fields of the row that was placed last.
def TextState.describe (context : TextContext) (parsed : TextRowSyntax) (number : Nat) (state : TextState) : TextState :=
  match state.lastRow with
  | none => state
  | some row =>
      let titleAllowed := state.explicitHeading || context.titleTable isWord || parsed.time.isSome ||
        (parsed.number.isSome && context.numberedTracks isWord)
      let original := parsed.time.getD []
      if original ≠ [] then
        let (timestamp, reasons) := textTimestamp isWord (if parsed.minute then original ++ str " min" else original) number
        (state.rejectAll number reasons).settle number
          (textFields isWord { row with timestamp := some timestamp } parsed.body titleAllowed)
      else if startsWith parsed.body "[" then
        match unknownCue parsed.body with
        | none => state.fail number "unclosed_timestamp"
        | some (original, body) =>
            let timestamp : Timestamp :=
              { original, evidence := [lineTag number, str "Unknown source minute cue; origin unknown"] }
            (state.onSection fun part =>
              { part with warnings := part.warnings ++ [errorText number (str "unknown_minute_cue")] }).settle number
              (textFields isWord { row with timestamp := some timestamp } body titleAllowed)
      else state.settle number (textFields isWord row parsed.body titleAllowed)

def TextState.place (context : TextContext) (parsed : TextRowSyntax) (number : Nat) (state : TextState) : TextState :=
  let opened := if state.current.isNone then state.beginPending context.budget none number else state
  match opened.current with
  | none => opened
  | some part =>
      let declared := numberOf parsed part
      let placed :=
        if part.goesBack declared then
          if opened.pendingTitle.isSome then { opened.beginPending context.budget none number with explicitHeading := true }
          else opened.fail number "conflicting_numbering"
        else opened
      let taken := placed.onSection (TextSection.take · declared)
      match taken.current with
      | none => taken
      | some part =>
          let position := max (part.offset + declared + part.zeroBased.toNat) (lastPosition taken.parse + 1)
          let added := taken.parse.add declared number context.budget position
          if added.2 = false then { taken with parse := added.1, stopped := true }
          else
            let held := { taken with parse := added.1 }.onSection fun part => { part with rowCount := part.rowCount + 1 }
            (held.onRow fun row =>
              { row.note (str "section:" ++ digits part.ordinal ++ str ":declared_position:" ++ digits declared) with
                sectionOrdinal := some part.ordinal }).describe isWord context parsed number

def TextState.take (context : TextContext) (number : Nat) (state : TextState) : TextLine → TextState
  | .frame => { state with headerFrame := true }
  | .blank closes => if closes then { state with headerFrame := false } else state
  | .overlong => state.reject number (str "line_field_cap")
  | .inHeader => state.exclude number "excluded_header_block"
  | .heading line => state.heading context.budget line number
  | .declared line => state.declared context.budget line number
  | .absent => state.absent context.budget number
  | .excluded pending =>
      { state.exclude number "excluded_non_track_line" with
        pendingTitle := (pending.map (·, number)).orElse fun _ => state.pendingTitle
        explicitHeading := false }
  | .label (some title) => { state with pendingTitle := some (title, number) }
  | .label none => { state with explicitHeading := false }
  | .titled line => { state with pendingTitle := some (line, number), explicitHeading := false }
  | .unsupportedNumber => state.fail number "unsupported_track_number"
  | .other pending =>
      { state.exclude number "excluded_non_track_line" with
        pendingTitle := (pending.map (·, number)).orElse fun _ => state.pendingTitle }
  | .ornament => state
  | .row parsed => state.place isWord context parsed number

def textStep (context : TextContext) (state : TextState) (entry : Text × Nat) : TextState :=
  if state.stopped then state
  else state.take isWord context (entry.2 + 1) (lineKind isWord context state.headerFrame state.explicitHeading entry.2 entry.1)

/-! ## Sections at the end -/

-- `int(error.split(":", 2)[1])`
def errorLine (error : Text) : Nat :=
  number (((error.dropWhile (· ≠ .scalar ':')).tail).takeWhile (· ≠ .scalar ':'))

-- The error goes to the last section that starts at or before its line.
def attach (error : Text) : List TextSection → Option (List TextSection)
  | [] => none
  | part :: rest =>
      match attach error rest with
      | some placed => some (part :: placed)
      | none =>
          if part.line ≤ errorLine error then
            some ((if error ∈ part.errors then part else { part with errors := part.errors ++ [error] }) :: rest)
          else none

def attachAll (errors : List Text) (sections : List TextSection) : List TextSection × Bool :=
  errors.foldl (fun (found : List TextSection × Bool) error =>
    match attach error found.1 with
    | some placed => (placed, found.2)
    | none => (found.1, true)) (sections, false)

def TextSection.problems (part : TextSection) : List Text :=
  if part.errors ≠ [] then part.errors
  else if 0 < part.rowCount then [] else [errorText part.line (str "no_tracklist_present")]

def TextSection.close (part : TextSection) : TrackSection :=
  { ordinal := part.ordinal
    title := part.title
    completeness :=
      { state := if part.problems = [] then .complete else .incomplete
        reason := if part.problems = [] then str "Section rows exhausted" else str "Unsupported or absent section rows"
        evidence := boundedEvidence part.problems }
    warnings := boundedEvidence part.warnings
    evidence := [errorText part.line (str "section_heading")] }

def TextState.finish (state : TextState) : Parse :=
  let attached := attachAll state.parse.errors state.sections
  { state.parse with sections := attached.1.map TextSection.close, globalGrammarUncertain := attached.2 }

def textRun (context : TextContext) : TextState := context.lines.zipIdx.foldl (textStep isWord context) {}

def text (lines : List Text) (budget : LoadBudget) : Parse := (textRun isWord { lines, budget }).finish

end Phaze.Tracklist
