import Phaze.Tracklist.LocalText

set_option autoImplicit false

/-!
# Local sources

`LocalSourceInterpreter.interpret` of `tracklist_providers/local_parser.py`. The digest of an identity is a parameter.
-/

namespace Phaze.Tracklist

open Phaze.Guards Phaze.Percent Phaze.Unicode

def parserVersion : Text := str "local-tracklist-v4"

/-! ## The text that is parsed -/

def utf8Size : CodePoint → Nat
  | .scalar char => char.utf8Size
  | .surrogate _ => 3

def utf8Length (text : Text) : Nat := (text.map utf8Size).sum

-- `encoded[:limit].decode("utf-8", errors="ignore")`: the characters that fit whole.
def fitBytes : Nat → Text → Text
  | _, [] => []
  | limit, point :: rest => if utf8Size point ≤ limit then point :: fitBytes (limit - utf8Size point) rest else []

def byteOrderMark : CodePoint := .scalar '\uFEFF'

def removeMark : Text → Text
  | [] => []
  | point :: rest => if point = byteOrderMark then rest else point :: rest

def endsLine (text : Text) : Bool := text.getLast? = some newline || text.getLast? = some carriageReturn

structure Decoded where
  text : Text
  lines : List Text
  limited : Bool
  partly : Bool

def SourceRead.cut (content : SourceRead) : Bool := content.truncated || content.status = .incomplete

def decode (content : SourceRead) (text : Text) (budget : LoadBudget) : Decoded :=
  let limited := text.length > budget.maxCharacters || content.bytesRead > budget.maxBytes
  let text := text.take budget.maxCharacters
  let tooLong := utf8Length text > budget.maxBytes
  let text := if tooLong then fitBytes budget.maxBytes text else text
  let limited := limited || tooLong
  let partly := content.cut || limited
  let lines := splitlines (removeMark text)
  -- A cut last line is never read.
  let lines := if partly && text ≠ [] && !endsLine text then lines.dropLast else lines
  { text, lines := lines.take budget.maxLines, limited := limited || lines.length > budget.maxLines, partly }

/-! ## The snapshot -/

def incompleteReason : Text := str "Partial or unsupported source grammar"

def completeReason : Text := str "Supported source grammar exhausted"

def capped (parse : Parse) : Bool := parse.errors.any fun error => endsWith error (str "cap") || endsWith error (str "partial_input")

def baseSnapshot (candidate : ProviderCandidate) (content : SourceRead) (decoded : Decoded) (sourceFormat : Text) (parse : Parse) :
    Snapshot :=
  { identity := candidate.identity
    revision := content.revision
    revisionScope := content.revisionScope
    retrievedAt := content.retrievedAt
    text := some decoded.text
    encoding := content.encoding
    sourceFormat
    parserVersion
    artist :=
      { value := parse.artist
        certainty := if parse.artist.any (fun artist => artist ≠ []) then .known else .unknown
        evidence := boundedEvidence parse.artistEvidence }
    completeness :=
      { state := .incomplete, reason := incompleteReason, evidence := boundedEvidence (parse.errors ++ parse.warnings) }
    sections := parse.sections
    sectionScanComplete := parse.sections ≠ [] && !parse.globalGrammarUncertain && !decoded.limited && !decoded.partly && !capped parse
    provenance := boundedEvidence (content.evidence ++ parse.evidence) }

def trackOf (row : Row) : ProviderTrack :=
  { position := row.position, sectionOrdinal := row.sectionOrdinal, artist := row.artist, title := row.title
    timestamp := row.timestamp, label := row.label, remixInfo := row.remix, isMashup := row.mashup
    evidence := boundedEvidence row.evidence }

def outputCap : Nat := 4 * 1024 * 1024 - 4096

variable (isWord : CodePoint → Bool) (originKey : SourceIdentity → Text)

-- Rows become tracks until the output is full: the tracks, and the line of the row that did not fit.
def tracksFrom : Nat → List Row → Except String (List ProviderTrack × Option Nat)
  | _, [] => .ok ([], none)
  | size, row :: rest => do
      let track := trackOf row
      track.validate
      let size := size + track.dumpLength + 1
      if size > outputCap then return ([], some row.line)
      let (tracks, full) ← tracksFrom size rest
      return (track :: tracks, full)

def sourceFormats : List Text :=
  [str "cue", str "txt", str "nfo", str "embedded", str "comment", str "comments", str "description", str "lyrics",
    str "tracklist"]

-- `format.lower().lstrip(".")`, as far as it is compared with these words.
def sourceFormatOf (source : SourceReference) : Text := (source.format.flatMap foldPoint).dropWhile (· = .scalar '.')

def completeParse (parse : Parse) : Bool :=
  parse.errors = [] && parse.sections.all fun part => part.completeness.state = .complete

def finalSnapshot (base : Snapshot) (parse : Parse) (tracks : List ProviderTrack) : Snapshot :=
  { base with
    tracks
    completeness :=
      { state := if completeParse parse then .complete else .incomplete
        reason := if completeParse parse then completeReason else incompleteReason
        evidence := boundedEvidence (parse.errors ++ parse.warnings) }
    sectionScanComplete := base.sectionScanComplete && !capped parse }

def outcomeOf (content : SourceRead) (parse : Parse) (snapshot : Snapshot) : LoadOutcome :=
  { status := if completeParse parse then .found else .incomplete
    code := if completeParse parse then str "parsed_local_tracklist" else str "partial_local_tracklist"
    scope := content.scope
    snapshot := some snapshot }

def finish (candidate : ProviderCandidate) (content : SourceRead) (decoded : Decoded) (sourceFormat : Text) (parse : Parse) :
    Except String LoadOutcome := do
  let base := baseSnapshot candidate content decoded sourceFormat parse
  base.validate
  let (tracks, full) ← tracksFrom base.dumpLength parse.rows
  let parse := full.elim parse fun line => parse.reject line (str "snapshot_output_cap")
  let snapshot := finalSnapshot base parse tracks
  snapshot.validate
  LoadOutcome.build (outcomeOf content parse snapshot)

-- The parse as `finish` reports it.
def outputParse (candidate : ProviderCandidate) (content : SourceRead) (decoded : Decoded) (sourceFormat : Text) (parse : Parse) : Parse :=
  match tracksFrom (baseSnapshot candidate content decoded sourceFormat parse).dumpLength parse.rows with
  | .ok (_, full) => full.elim parse fun line => parse.reject line (str "snapshot_output_cap")
  | .error _ => parse

def parseSource (candidate : ProviderCandidate) (decoded : Decoded) (budget : LoadBudget) (sourceFormat : Text) : Parse :=
  if sourceFormat = str "cue" then cue decoded.lines budget (originKey candidate.identity) else text isWord decoded.lines budget

def noteLimits (content : SourceRead) (decoded : Decoded) (parse : Parse) : Parse :=
  if content.cut || decoded.limited then parse.reject 0 (str "partial_input") else parse

def noteEmpty (parse : Parse) : Parse :=
  if parse.rows = [] then parse.reject 0 (str "recognition_only_no_supported_tracks") else parse

-- The parse with what is wrong with the read as a whole.
def readParse (candidate : ProviderCandidate) (content : SourceRead) (contentText : Text) (budget : LoadBudget) (sourceFormat : Text) :
    Parse :=
  let decoded := decode content contentText budget
  noteEmpty (noteLimits content decoded (parseSource isWord originKey candidate decoded budget sourceFormat))

def interpret (candidate : ProviderCandidate) (content : SourceRead) (budget : LoadBudget) : Except String LoadOutcome := do
  require candidate.valid constraint
  require content.valid constraint
  require budget.valid constraint
  match candidate.source, content.text with
  | none, _ =>
      LoadOutcome.build
        { status := .contractError, code := str "missing_source_reference", scope := candidate.identity.nativeId }
  | some source, some contentText =>
      if content.status ≠ .found ∧ content.status ≠ .incomplete then
        LoadOutcome.build
          { status := content.status, code := content.code, scope := content.scope, evidence := content.evidence }
      else if sourceFormatOf source ∉ sourceFormats then
        LoadOutcome.build
          { status := .unsupported, code := str "unsupported_tracklist_format", scope := content.scope }
      else
        finish candidate content (decode content contentText budget) (sourceFormatOf source)
          (readParse isWord originKey candidate content contentText budget (sourceFormatOf source))
  | some _, none =>
      if content.status = .found then
        LoadOutcome.build { status := .contractError, code := str "missing_decoded_text", scope := content.scope }
      else
        LoadOutcome.build
          { status := content.status, code := content.code, scope := content.scope, evidence := content.evidence }

end Phaze.Tracklist
