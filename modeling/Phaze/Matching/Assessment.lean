import Phaze.Shared.Calendar
import Phaze.Shared.Ranking
import Phaze.Shared.Texts
import Phaze.Tracklist.Snapshots

set_option autoImplicit false

/-!
# Matching recordings with sets

`tracklist_providers/matching.py`: what the artist, the event and the date of a subject say about a recording, and the order
in which the subjects are shown. The tables of Unicode, the similarity of texts and the arithmetic of durations are parameters.
-/

namespace Phaze.Matching

open Phaze.Calendar Phaze.Percent Phaze.Ranking Phaze.Unicode
open Phaze.Tracklist (Certainty Completeness CompletenessState Fact SourceIdentity Text)

inductive DateKind where
  | performance
  | broadcast
  | publication
  | unknown
deriving DecidableEq

inductive DatePrecision where
  | day
  | month
  | year
deriving DecidableEq

inductive FieldRelation where
  | exact
  | normalized
  | fuzzy
  | missing
  | uncertain
  | contradictory
deriving DecidableEq

inductive DateRelation where
  | exact
  | compatibleAlternative
  | kindMismatch
  | missing
  | uncertain
  | contradictory
deriving DecidableEq

inductive Band where
  | corroborated
  | plausible_
  | insufficient
  | conflicting
deriving DecidableEq

structure FieldEvidence where
  relation : FieldRelation
  recordingValue : Option Text
  subjectValue : Option Text
  recordingCertainty : Certainty
  subjectCertainty : Certainty
deriving DecidableEq

structure DateEvidence where
  relation : DateRelation
  recordingKind : DateKind
  subjectKind : DateKind
  precision : Option DatePrecision := none
  recordingAlternatives : List Text := []
  subjectValue : Option Text
deriving DecidableEq

structure DurationEvidence (Seconds : Type) where
  recordingSeconds : Option Seconds
  subjectSeconds : Option Seconds
  differenceSeconds : Option Seconds

-- A known date is not empty (`require_known_value`), and `date.fromisoformat` reads it (`validate_tracks`).
structure Snapshot where
  identity : SourceIdentity
  artist : Fact := {}
  event : Fact := {}
  date : Fact := {}
  dated : date.certainty = .known → ∃ value, date.value = some value ∧ value ≠ [] ∧ (fromIsoFormat value).isSome = true

inductive Source where
  | snapshot (snapshot : Snapshot)
  | candidate (identity : SourceIdentity)

def Source.identity : Source → SourceIdentity
  | .snapshot held => held.identity
  | .candidate identity => identity

structure AssessedSubject (Seconds : Type) where
  source : Source
  dateKind : DateKind := .unknown
  durationSeconds : Option Seconds := none

def AssessedSubject.identity {Seconds : Type} (subject : AssessedSubject Seconds) : SourceIdentity := subject.source.identity

structure RecordingContext (Seconds : Type) where
  recordingId : Text
  artist : Fact := {}
  event : Fact := {}
  date : Fact := {}
  durationSeconds : Option Seconds := none

structure MatchAssessment (Seconds : Type) where
  identity : SourceIdentity
  recordingId : Text
  artist : FieldEvidence
  event : FieldEvidence
  date : DateEvidence
  duration : DurationEvidence Seconds
  band : Band
  reasons : List String
  tiedWith : List SourceIdentity := []
  scope : Completeness

structure AssessmentSet (Seconds : Type) where
  ranked : List (MatchAssessment Seconds)
  scope : Completeness

structure Comparisons (Seconds : Type) where
  -- `unicodedata.normalize`, `str.casefold` and `str.isalnum`
  nfc : Text → Text
  nfkd : Text → Text
  casefold : Text → Text
  isAlnum : CodePoint → Bool
  -- `SequenceMatcher(None, left, right).ratio() >= _FUZZY_LABEL_RATIO`
  similar : Text → Text → Bool
  -- `abs(left - right)`
  difference : Seconds → Seconds → Seconds

def maxComparedCharacters : Nat := 512
def rawInputCharacters : Nat := maxComparedCharacters * 4
def dateInputCharacters : Nat := 64
def maxSubjects : Nat := 256
def echoCharacters : Nat := 4096

/-! ## Artists and events -/

section

variable {Seconds : Type} (comparisons : Comparisons Seconds)

def bounded (text : Text) : Text := text.take rawInputCharacters

def fold (text : Text) : Text := (strip (comparisons.casefold (comparisons.nfc (bounded text)))).take maxComparedCharacters

def squash (text : Text) : Text := ((comparisons.nfkd (fold comparisons text)).filter comparisons.isAlnum).take maxComparedCharacters

def present (fact : Fact) : Bool :=
  (fact.certainty = .known || fact.certainty = .inferred) && fact.value.any fun value => value ≠ []

def echo (value : Option Text) : Option Text := value.map (List.take echoCharacters)

def compareTexts (left right : Text) : FieldRelation :=
  if fold comparisons left = fold comparisons right then .exact
  else if squash comparisons left ≠ [] ∧ squash comparisons left = squash comparisons right then .normalized
  else if comparisons.similar (squash comparisons left) (squash comparisons right) then .fuzzy
  else .contradictory

def compareField (recording subject : Fact) : FieldEvidence :=
  { relation :=
      if recording.certainty = .conflicting ∨ subject.certainty = .conflicting then .uncertain
      else if !(present recording && present subject) then .missing
      else compareTexts comparisons (recording.value.getD []) (subject.value.getD [])
    recordingValue := echo recording.value
    subjectValue := echo subject.value
    recordingCertainty := recording.certainty
    subjectCertainty := subject.certainty }

end

/-! ## Dates -/

structure Dates where
  values : List Text
  precision : Option DatePrecision
  ambiguous : Bool

def unread : Dates := { values := [], precision := none, ambiguous := false }

def isDigits (width : Nat) (text : Text) : Bool := text.length = width && text.all isDecimal

-- `_ISO_DATE`: its text is stripped, so that no line feed stands before the end.
def isoGroups (value : Text) : Option (Text × Option Text × Option Text) :=
  match value.splitOn hyphen with
  | [year] => if isDigits 4 year then some (year, none, none) else none
  | [year, month] => if isDigits 4 year && isDigits 2 month then some (year, some month, none) else none
  | [year, month, day] =>
      if isDigits 4 year && isDigits 2 month && isDigits 2 day then some (year, some month, some day) else none
  | _ => none

def isDateSeparator (point : CodePoint) : Bool :=
  point = .scalar '-' || point = .scalar '/' || point = .scalar '.' || point = .scalar '_'

-- `_NUMERIC_DATE`
def numericGroups (value : Text) : Option (Text × Text × Text) :=
  match value.splitOnP isDateSeparator with
  | [first, second, year] =>
      if (isDigits 1 first || isDigits 2 first) && (isDigits 1 second || isDigits 2 second) && isDigits 4 year then
        some (first, second, year)
      else none
  | _ => none

-- `int` of the digits of a group
def int (text : Text) : Nat := (parseDecimal text).getD 0

def valid (year month day : Nat) : Option Text := (date? year month day).map Date.isoFormat

-- What is read of the text of a date.
def shown (value : Text) : Text := strip (value.take dateInputCharacters)

def interpretText (value : Text) : Dates :=
  match isoGroups value with
  | some (year, month, some day) =>
      { values := (valid (int year) (int (month.getD [])) (int day)).toList, precision := some .day, ambiguous := false }
  | some (_, some month, none) =>
      if 1 ≤ int month ∧ int month ≤ 12 then { values := [value], precision := some .month, ambiguous := false } else unread
  | some (_, none, none) => { values := [value], precision := some .year, ambiguous := false }
  | none =>
      match numericGroups value with
      | some (first, second, year) =>
          let readings := ((valid (int year) (int second) (int first)).toList ++ (valid (int year) (int first) (int second)).toList).dedup
          { values := readings, precision := some .day, ambiguous := readings.length > 1 }
      | none => unread

def interpret (fact : Fact) : Dates :=
  match fact.value with
  | none => unread
  | some value => if value = [] then unread else interpretText (shown value)

def DatePrecision.width : DatePrecision → Nat
  | .day => 10
  | .month => 7
  | .year => 4

def truncate (value : Text) (precision : DatePrecision) : Text := value.take precision.width

def DatePrecision.rank : DatePrecision → Nat
  | .day => 0
  | .month => 1
  | .year => 2

-- `max(mine, theirs, key=_PRECISION_RANK.__getitem__)`
def coarser (mine theirs : DatePrecision) : DatePrecision := if mine.rank < theirs.rank then theirs else mine

def relate (recording subject : Fact) (recordingKind subjectKind : DateKind) (mine : Dates) (ours other : List Text) : DateRelation :=
  if ours.all fun value => value ∉ other then
    if recording.certainty = .known ∧ subject.certainty = .known ∧ mine.ambiguous = false ∧ recordingKind = .performance ∧
        subjectKind = .performance then
      .contradictory
    else if recordingKind ≠ subjectKind then .kindMismatch
    else .uncertain
  else if mine.ambiguous then .compatibleAlternative
  else if recordingKind ≠ subjectKind ∨ recordingKind = .unknown ∨ subjectKind = .unknown then .kindMismatch
  else if recording.certainty ≠ .known ∨ subject.certainty ≠ .known then .uncertain
  else .exact

def compareDate (recording subject : Fact) (recordingKind subjectKind : DateKind) : DateEvidence :=
  let base : DateEvidence := { relation := .missing, recordingKind, subjectKind, subjectValue := echo subject.value }
  let mine := interpret recording
  let theirs := interpret subject
  if recording.certainty = .conflicting ∨ subject.certainty = .conflicting then { base with relation := .uncertain }
  else if !(present recording && present subject) || mine.values.isEmpty || theirs.values.isEmpty then base
  else
    match mine.precision, theirs.precision with
    | some precise, some other =>
        let precision := coarser precise other
        { base with
          relation := relate recording subject recordingKind subjectKind mine (mine.values.map (truncate · precision))
            (theirs.values.map (truncate · precision))
          precision := some precision
          recordingAlternatives := if mine.ambiguous then mine.values else [] }
    | _, _ => base

/-! ## Assessments -/

def isStrong (relation : FieldRelation) : Bool := relation = .exact || relation = .normalized

def isPositive (relation : FieldRelation) : Bool := isStrong relation || relation = .fuzzy

def conflicts (artist event : FieldEvidence) (date : DateEvidence) : List String :=
  [("artist", decide (artist.relation = .contradictory)), ("event", decide (event.relation = .contradictory)),
    ("date", decide (date.relation = .contradictory))].filterMap fun entry =>
      if entry.2 then some (entry.1 ++ " contradicts the recording") else none

def band (artist event : FieldEvidence) (date : DateEvidence) : Band × List String :=
  if conflicts artist event date ≠ [] then (.conflicting, conflicts artist event date)
  else if isStrong artist.relation && isStrong event.relation && date.relation = .exact && date.precision = some .day then
    (.corroborated, ["artist, event and performance date agree; metadata alone never authorizes a link"])
  else if isPositive artist.relation && (isPositive event.relation || date.relation = .exact ||
      date.relation = .compatibleAlternative || date.relation = .kindMismatch) then
    (.plausible_, ["artist agrees with partial or uncertain corroboration"])
  else (.insufficient, ["identity fields are missing or uncorroborated"])

-- `_subject_facts`: the artist, the event and the date
def Source.facts : Source → Fact × Fact × Fact
  | .snapshot held => (held.artist, held.event, held.date)
  | .candidate _ => ({}, {}, {})

def scopeOf (scope : Option Completeness) : Completeness :=
  scope.getD { state := .incomplete, reason := str "candidate scope not stated; absence of rivals is not established" }

section

variable {Seconds : Type} (comparisons : Comparisons Seconds)

def assessRecordingMatch (recording : RecordingContext Seconds) (subject : AssessedSubject Seconds) (recordingDateKind : DateKind)
    (scope : Option Completeness) : MatchAssessment Seconds :=
  let facts := subject.source.facts
  let artist := compareField comparisons recording.artist facts.1
  let event := compareField comparisons recording.event facts.2.1
  let date := compareDate recording.date facts.2.2 recordingDateKind subject.dateKind
  { identity := subject.identity
    recordingId := recording.recordingId
    artist, event, date
    duration :=
      { recordingSeconds := recording.durationSeconds
        subjectSeconds := subject.durationSeconds
        differenceSeconds := recording.durationSeconds.bind fun left => subject.durationSeconds.map (comparisons.difference left) }
    band := (band artist event date).1
    reasons := (band artist event date).2
    scope := scopeOf scope }

def Band.order : Band → Nat
  | .corroborated => 0
  | .plausible_ => 1
  | .insufficient => 2
  | .conflicting => 3

-- `_RELATION_ORDER.get(relation, 9)`
def FieldRelation.order : FieldRelation → Nat
  | .exact => 0
  | .normalized => 1
  | .fuzzy => 2
  | _ => 9

def DateRelation.order : DateRelation → Nat
  | .exact => 0
  | .compatibleAlternative => 2
  | .kindMismatch => 3
  | _ => 9

-- Tuples are compared lexicographically.
def evidenceKey (assessment : MatchAssessment Seconds) : Nat ×ₗ Nat ×ₗ Nat ×ₗ Nat :=
  toLex (assessment.band.order, toLex (assessment.artist.relation.order, toLex (assessment.event.relation.order,
    assessment.date.relation.order)))

-- Strings are compared by their code points.
def identityKey (identity : SourceIdentity) : List Nat ×ₗ List Nat :=
  toLex (identity.providerId.map code, identity.nativeId.map code)

-- `tuple(o.identity for o in members if o is not m)` for each of the members
def tie (members : List (MatchAssessment Seconds)) : List (MatchAssessment Seconds) :=
  members.zipIdx.map fun entry => { entry.1 with tiedWith := (members.eraseIdx entry.2).map MatchAssessment.identity }

-- The reason that names the subjects which are not assessed.
def cappedScope (stated : Completeness) (count : Nat) : Completeness :=
  let reason := digits (count - maxSubjects) ++ str " of " ++ digits count ++ str " subjects not assessed: subject cap " ++
    digits maxSubjects ++ str " exceeded"
  { state := .incomplete, reason := if stated.state = .incomplete then stated.reason ++ str "; " ++ reason else reason }

def assessCandidates (recording : RecordingContext Seconds) (subjects : List (AssessedSubject Seconds)) (recordingDateKind : DateKind)
    (scope : Option Completeness) : AssessmentSet Seconds :=
  let stated := if subjects.length > maxSubjects then cappedScope (scopeOf scope) subjects.length else scopeOf scope
  let assessments := (subjects.take maxSubjects).map fun subject =>
    assessRecordingMatch comparisons recording subject recordingDateKind (some stated)
  { ranked := (ranked evidenceKey (identityKey ∘ MatchAssessment.identity) assessments).flatMap tie, scope := stated }

end

end Phaze.Matching
