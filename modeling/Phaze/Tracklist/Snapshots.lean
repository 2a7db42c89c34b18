import Mathlib
import Phaze.Shared.Json
import Phaze.Tracklist.Domain

set_option autoImplicit false

/-!
# Snapshots and outcomes

The values that an interpreter is given and returns (`tracklist_providers/domain.py`) with the checks of their
construction. A datetime is the text that JSON has for it.
-/

namespace Phaze.Tracklist

open Phaze.Guards Phaze.Json Phaze.Percent

inductive OutcomeStatus where
  | found
  | absent
  | incomplete
  | ambiguous
  | unsupported
  | unavailable
  | retry
  | contractError
deriving DecidableEq

inductive RevisionScope where
  | full
  | bounded
  | unknown
deriving DecidableEq

inductive Certainty where
  | known
  | inferred
  | unknown
  | conflicting
deriving DecidableEq

inductive CompletenessState where
  | complete
  | incomplete
deriving DecidableEq

structure SourceIdentity where
  providerId : Text
  nativeId : Text
deriving DecidableEq

structure Fact where
  value : Option Text := none
  certainty : Certainty := .unknown
  evidence : List Text := []
deriving DecidableEq

structure Completeness where
  state : CompletenessState
  reason : Text
  evidence : List Text := []
deriving DecidableEq

structure TrackSection where
  ordinal : Nat
  title : Option Text := none
  completeness : Completeness
  warnings : List Text := []
  evidence : List Text := []
deriving DecidableEq

structure Snapshot where
  identity : SourceIdentity
  revision : Option Text := none
  revisionScope : RevisionScope := .unknown
  retrievedAt : Text
  url : Option Text := none
  artist : Fact := {}
  tracks : List ProviderTrack := []
  sections : List TrackSection := []
  sectionScanComplete : Bool := false
  text : Option Text := none
  encoding : Option Text := none
  sourceFormat : Text
  parserVersion : Text
  completeness : Completeness
  provenance : List Text := []
  rightsEvidence : List Text := []
deriving DecidableEq

structure LoadOutcome where
  status : OutcomeStatus
  code : Text
  scope : Text
  detail : Text := []
  evidence : List Text := []
  snapshot : Option Snapshot := none
deriving DecidableEq

/-! ## What an interpreter is given -/

-- The channel and the revision of a reference are not read here.
structure SourceReference where
  identity : SourceIdentity
  format : Text
deriving DecidableEq

structure ProviderCandidate where
  identity : SourceIdentity
  source : Option SourceReference := none
  url : Option Text := none
deriving DecidableEq

structure SourceRead where
  status : OutcomeStatus
  code : Text
  scope : Text
  evidence : List Text := []
  text : Option Text := none
  encoding : Option Text := none
  revision : Option Text := none
  revisionScope : RevisionScope := .unknown
  truncated : Bool := false
  bytesRead : Nat := 0
  retrievedAt : Text
deriving DecidableEq

structure LoadBudget where
  maxBytes : Nat
  maxCharacters : Nat
  maxLines : Nat
  maxTracks : Nat
deriving DecidableEq

/-! ## JSON -/

def RevisionScope.value : RevisionScope → String
  | .full => "full"
  | .bounded => "bounded"
  | .unknown => "unknown"

def Certainty.value : Certainty → String
  | .known => "known"
  | .inferred => "inferred"
  | .unknown => "unknown"
  | .conflicting => "conflicting"

def CompletenessState.value : CompletenessState → String
  | .complete => "complete"
  | .incomplete => "incomplete"

def TimestampKind.value : TimestampKind → String
  | .offset => "offset"
  | .clock => "clock"
  | .unknown => "unknown"

def TimestampPrecision.value : TimestampPrecision → String
  | .cueFrame75 => "cue_frame_75"
  | .second => "second"
  | .minute => "minute"
  | .unknown => "unknown"

def OffsetUsability.value : OffsetUsability → String
  | .qualified => "qualified"
  | .approximate => "approximate"
  | .unusable => "unusable"

def SourceIdentity.json (identity : SourceIdentity) : Value :=
  .record [("provider_id", .text identity.providerId), ("native_id", .text identity.nativeId)]

def Fact.json (fact : Fact) : Value :=
  .record [("value", optional fact.value), ("certainty", .text (str fact.certainty.value)), ("evidence", texts fact.evidence)]

def Completeness.json (completeness : Completeness) : Value :=
  .record [("state", .text (str completeness.state.value)), ("reason", .text completeness.reason),
    ("evidence", texts completeness.evidence)]

def TrackSection.json (part : TrackSection) : Value :=
  .record [("ordinal", .int part.ordinal), ("title", optional part.title), ("completeness", part.completeness.json),
    ("warnings", texts part.warnings), ("evidence", texts part.evidence)]

def RationalOffset.json (offset : RationalOffset) : Value :=
  .record [("numerator", .int offset.numerator), ("denominator", .int offset.denominator)]

def Timestamp.json (timestamp : Timestamp) : Value :=
  .record [("original", .text timestamp.original), ("kind", .text (str timestamp.kind.value)),
    ("precision", .text (str timestamp.precision.value)), ("origin", optional timestamp.origin),
    ("offset", timestamp.offset.elim .null RationalOffset.json), ("offset_usability", .text (str timestamp.offsetUsability.value)),
    ("evidence", texts timestamp.evidence)]

def ProviderTrack.json (track : ProviderTrack) : Value :=
  .record [("position", .int track.position), ("section_ordinal", track.sectionOrdinal.elim .null fun ordinal => .int ordinal),
    ("artist", optional track.artist), ("title", optional track.title), ("timestamp", track.timestamp.elim .null Timestamp.json),
    ("label", optional track.label), ("remix_info", optional track.remixInfo), ("is_mashup", .bool track.isMashup),
    ("confidence", .null), ("evidence", texts track.evidence)]

-- The event, the date and the release facts keep their defaults in every interpreter.
def Snapshot.json (snapshot : Snapshot) : Value :=
  .record [("identity", snapshot.identity.json), ("revision", optional snapshot.revision),
    ("revision_scope", .text (str snapshot.revisionScope.value)), ("retrieved_at", .text snapshot.retrievedAt),
    ("url", optional snapshot.url), ("artist", snapshot.artist.json), ("event", Fact.json {}), ("date", Fact.json {}),
    ("tracks", .list (snapshot.tracks.map ProviderTrack.json)), ("sections", .list (snapshot.sections.map TrackSection.json)),
    ("section_scan_complete", .bool snapshot.sectionScanComplete), ("release_facts", .list []), ("text", optional snapshot.text),
    ("encoding", optional snapshot.encoding), ("source_format", .text snapshot.sourceFormat),
    ("parser_version", .text snapshot.parserVersion), ("completeness", snapshot.completeness.json),
    ("provenance", texts snapshot.provenance), ("rights_evidence", texts snapshot.rightsEvidence)]

-- `len(self.model_dump_json().encode("utf-8"))`
def Snapshot.dumpLength (snapshot : Snapshot) : Nat := snapshot.json.length

def ProviderTrack.dumpLength (track : ProviderTrack) : Nat := track.json.length

/-! ## Checks -/

-- `pattern=r"^[a-z][a-z0-9_]*$"`, `max_length=64`
def providerIdFits (providerId : Text) : Bool :=
  providerId.length ≤ 64 && match providerId with
    | .scalar first :: rest => first.isLower && rest.all fun point => match point with
        | .scalar char => char.isLower || char.isDigit || char = '_'
        | .surrogate _ => false
    | _ => false

def identifierFits (identifier : Text) : Bool := identifier ≠ [] && fits 4096 identifier

def SourceIdentity.fits (identity : SourceIdentity) : Bool := providerIdFits identity.providerId && identifierFits identity.nativeId

def ProviderCandidate.valid (candidate : ProviderCandidate) : Bool :=
  candidate.identity.fits && candidate.url.all (Tracklist.fits 4096) &&
    candidate.source.all fun source => source.identity = candidate.identity && Tracklist.fits 4096 source.format

def SourceRead.valid (read : SourceRead) : Bool :=
  fits 4096 read.code && fits 4096 read.scope && evidenceFits read.evidence && read.text.all (fits 262144) &&
    read.encoding.all (fits 4096) && read.revision.all (fits 2048) && read.bytesRead ≤ 1048576

def LoadBudget.valid (budget : LoadBudget) : Bool :=
  0 < budget.maxBytes && budget.maxBytes ≤ 1048576 && 0 < budget.maxCharacters && budget.maxCharacters ≤ 524288 &&
    0 < budget.maxLines && budget.maxLines ≤ 16384 && 0 < budget.maxTracks && budget.maxTracks ≤ 4096

def Fact.fieldsFit (fact : Fact) : Bool := fact.value.all (fits 4096) && evidenceFits fact.evidence

def Fact.requireKnownValue (fact : Fact) : Except String Unit :=
  require (fact.certainty ≠ .known || fact.value.any fun value => value ≠ []) "Known fact requires a value"

def Completeness.fieldsFit (completeness : Completeness) : Bool :=
  fits 4096 completeness.reason && evidenceFits completeness.evidence

def TrackSection.fieldsFit (part : TrackSection) : Bool :=
  0 < part.ordinal && part.ordinal ≤ 4096 && part.title.all (fits 4096) && part.completeness.fieldsFit &&
    evidenceFits part.warnings && evidenceFits part.evidence

def ProviderTrack.fieldsFit (track : ProviderTrack) : Bool :=
  0 < track.position && track.sectionOrdinal.all (fun ordinal => 0 < ordinal && ordinal ≤ 4096) &&
    track.artist.all (fits 4096) && track.title.all (fits 4096) && track.timestamp.all Timestamp.fieldsFit &&
    track.label.all (fits 4096) && track.remixInfo.all (fits 4096) && evidenceFits track.evidence

def constraint : String := "A field is out of its bounds"

def Timestamp.validate (timestamp : Timestamp) : Except String Unit := do
  require timestamp.fieldsFit constraint
  timestamp.validateQualification

def ProviderTrack.validate (track : ProviderTrack) : Except String Unit := do
  require track.fieldsFit constraint
  track.timestamp.elim (.ok ()) Timestamp.validate

-- `values == sorted(set(values))`
def uniqueOrdered (values : List Int) : Bool := values.dedup.insertionSort (· ≤ ·) = values

def qualifiedOrigin (origin : Text) (track : ProviderTrack) : Option ℚ :=
  track.timestamp.bind fun timestamp =>
    if timestamp.offsetUsability = .qualified ∧ timestamp.origin = some origin ∧ origin ≠ []
    then timestamp.offset.map RationalOffset.asFraction else none

def originsOf (tracks : List ProviderTrack) : List Text := tracks.filterMap fun track => track.timestamp.bind Timestamp.origin

def offsetsOrdered (tracks : List ProviderTrack) : Bool :=
  (originsOf tracks).all fun origin =>
    (tracks.filterMap (qualifiedOrigin origin)).insertionSort (· ≤ ·) = tracks.filterMap (qualifiedOrigin origin)

def Snapshot.fieldsFit (snapshot : Snapshot) : Bool :=
  snapshot.identity.fits && snapshot.revision.all (fits 2048) && snapshot.url.all (fits 4096) && snapshot.artist.fieldsFit &&
    snapshot.tracks.length ≤ 4096 && snapshot.sections.length ≤ 4096 && snapshot.sections.all TrackSection.fieldsFit &&
    snapshot.text.all (fits 262144) && snapshot.encoding.all (fits 4096) && fits 4096 snapshot.sourceFormat &&
    snapshot.parserVersion ≠ [] && fits 128 snapshot.parserVersion && snapshot.completeness.fieldsFit &&
    evidenceFits snapshot.provenance && evidenceFits snapshot.rightsEvidence

def Snapshot.validateTracks (snapshot : Snapshot) : Except String Unit := do
  let ordinals := snapshot.sections.map TrackSection.ordinal
  require (uniqueOrdered (snapshot.tracks.map ProviderTrack.position)) "Track positions must be unique and ordered"
  require (uniqueOrdered (ordinals.map Int.ofNat)) "Section ordinals must be unique and ordered"
  require (snapshot.tracks.all fun track => track.sectionOrdinal.all fun ordinal => ordinal ∈ ordinals)
    "Track section must exist in the snapshot"
  require (snapshot.sections = [] || snapshot.tracks.all fun track => track.sectionOrdinal.isSome)
    "Sectioned snapshots require a section for every track"
  require (offsetsOrdered snapshot.tracks) "Qualified offsets for each origin must be ordered"
  require (snapshot.dumpLength ≤ 4 * 1024 * 1024) "Snapshot serialized payload exceeds 4MiB"

def Snapshot.validate (snapshot : Snapshot) : Except String Unit := do
  require snapshot.fieldsFit constraint
  snapshot.artist.requireKnownValue
  snapshot.tracks.forM ProviderTrack.validate
  snapshot.validateTracks

def LoadOutcome.validateFound (outcome : LoadOutcome) : Except String Unit := do
  require (outcome.status ≠ .found || outcome.snapshot.any fun snapshot => snapshot.completeness.state = .complete)
    "Found requires a complete snapshot"
  require (outcome.snapshot.isNone || outcome.status = .found || outcome.status = .incomplete || outcome.status = .ambiguous)
    "Only found, incomplete and ambiguous outcomes can carry snapshots"
  require (outcome.status ≠ .incomplete || outcome.snapshot.all fun snapshot => snapshot.completeness.state = .incomplete)
    "Incomplete outcome requires incomplete snapshot"
  require (outcome.status ≠ .found || outcome.snapshot.all fun snapshot =>
    snapshot.tracks ≠ [] || snapshot.completeness.evidence ≠ [])
    "Found trackless source requires explicit empty-track evidence"

-- `LoadOutcome(...)`: the snapshot is checked again as a part of it.
def LoadOutcome.build (outcome : LoadOutcome) : Except String LoadOutcome := do
  require (fits 4096 outcome.code && fits 4096 outcome.scope && fits 4096 outcome.detail && evidenceFits outcome.evidence) constraint
  outcome.snapshot.elim (.ok ()) Snapshot.validate
  outcome.validateFound
  return outcome

end Phaze.Tracklist
