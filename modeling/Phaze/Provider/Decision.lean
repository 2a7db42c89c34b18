import Phaze.Provider.Persistence

set_option autoImplicit false

/-!
# Operator decisions on remote candidates

`decide_remote_candidate` (`services/remote_lookup.py`) and `add_candidate` (`services/provider_persistence.py`).
A decision first reads and checks, then writes; the selected source is read back last.
-/

namespace Phaze.Provider

open Guards

structure FileRecord where
  id : Uuid
  sha256Hash : String
  missing : Bool
  fileType : String
deriving DecidableEq

-- `MEDIA_FILE_TYPES`
def mediaFileTypes : List String :=
  ["mp3", "m4a", "ogg", "flac", "wav", "aiff", "wma", "aac", "opus", "mp2",
    "mp4", "mkv", "avi", "webm", "mov", "wmv", "flv"]

inductive CandidateStatus where
  | pending
  | accepted
  | rejected
deriving DecidableEq

structure RecordingCandidate where
  id : Uuid
  mediaId : Uuid
  observationId : Uuid
  status : CandidateStatus
  evidence : List String
deriving DecidableEq

inductive SourceKind where
  | tracklist
  | releaseMetadata
deriving DecidableEq

structure TargetMapping where
  mediaId : Uuid
  mediaSha256 : String
  sourceRevision : String
  textSectionOrdinal : Option Nat
deriving DecidableEq

structure RecordingSelection where
  mediaId : Uuid
  kind : SourceKind
  observationId : Uuid
  actor : String
  selectedAt : Int
  selectionToken : Option Uuid
  targetMapping : Option TargetMapping
  tracklistId : Option Uuid
  versionId : Option Uuid
deriving DecidableEq

inductive DecisionAction where
  | select
  | reject
  | reopen
deriving DecidableEq

structure RemoteSourceDecision where
  mediaId : Uuid
  observationId : Uuid
  decisionId : Uuid
  action : DecisionAction
  expectedSelectionToken : Option Uuid
  expectedRevision : Option String
  expectedMediaSha256 : String
  acceptConflict : Bool
  textSectionOrdinal : Option Nat
  acceptTextWarnings : Bool
  reason : Option String
deriving DecidableEq

-- `decision_payload` is the command as it was sent, with the actor.
structure SelectionEvent where
  mediaId : Uuid
  observationId : Uuid
  actor : String
  decisionId : Uuid
  action : DecisionAction
  targetMapping : Option TargetMapping
  decisionPayload : RemoteSourceDecision × String
deriving DecidableEq

-- The tables a decision reads, and the three it writes.
structure Desk (Rest Digest : Type) where
  sources : Database Rest Digest
  media : List FileRecord
  candidates : List RecordingCandidate
  selections : List RecordingSelection
  events : List SelectionEvent

section Reading

variable {Rest Digest : Type}

def Desk.candidate (desk : Desk Rest Digest) (media observation : Uuid) : Option RecordingCandidate :=
  desk.candidates.find? fun row => row.mediaId = media && row.observationId = observation

def Desk.selection (desk : Desk Rest Digest) (media : Uuid) : Option RecordingSelection :=
  desk.selections.find? fun row => row.mediaId = media && row.kind = .tracklist

def Desk.event (desk : Desk Rest Digest) (decision : Uuid) : Option SelectionEvent :=
  desk.events.find? fun row => row.decisionId = decision

-- The source object of an observation, through the foreign key.
def Desk.source (desk : Desk Rest Digest) (observation : Uuid) : Option (ProviderSourceObject Digest) :=
  (desk.sources.observation observation).bind fun row => desk.sources.object row.objectId

-- The native ids that `_rejections` returns.
def Desk.rejections (desk : Desk Rest Digest) (media : Uuid) (providerId : String) : List String :=
  desk.candidates.filterMap fun row =>
    if row.mediaId = media && row.status = .rejected then
      ((desk.source row.observationId).filter fun source => source.providerId = providerId).map (·.nativeId)
    else none

-- `uuid5` names the selections made before there were tokens.
def selectionToken (uuid5 : RecordingSelection → Uuid) (selection : RecordingSelection) : Uuid :=
  selection.selectionToken.getD (uuid5 selection)

def Desk.token (uuid5 : RecordingSelection → Uuid) (desk : Desk Rest Digest) (media : Uuid) : Option Uuid :=
  (desk.selection media).map (selectionToken uuid5)

def reviewTextSection (snapshot : SnapshotPayload Rest) (textSectionOrdinal : Option Nat) (acceptTextWarnings : Bool) :
    Except String (Option Nat) :=
  if snapshot.sections.isEmpty then do
    require (textSectionOrdinal.isNone && !acceptTextWarnings)
      "Section mapping is only valid for sectioned text tracklists"
    return none
  else do
    require snapshot.sectionScanComplete "Incomplete text scan cannot be selected by section"
    let ordinal := textSectionOrdinal.or
      (if snapshot.sections.length = 1 then snapshot.sections.head?.map (·.ordinal) else none)
    let chosen ← ((snapshot.sections.find? fun item => ordinal = some item.ordinal).elim
      (.error "Collection requires an explicit text section-to-recording mapping") .ok)
    require (chosen.completeness.complete && snapshot.tracks.any fun track => track.sectionOrdinal = ordinal)
      "Absent or incomplete text section cannot replace a reviewed tracklist"
    require (chosen.warnings.isEmpty || acceptTextWarnings)
      "Unresolved text row structure requires explicit acknowledgement"
    return ordinal

-- `Snapshot.model_validate` of the stored payload: what `store_snapshot` stored, and nothing else.
def snapshotOf (observation : ProviderSourceObservation Rest Digest) : Option (SnapshotPayload Rest) :=
  match observation.payload with
  | .snapshot payload => some payload
  | .read _ | .discovered _ => none

end Reading

/-! ## Reading and checking -/

section Deciding

variable {Rest Digest : Type} (uuid5 : RecordingSelection → Uuid) (strip : String → String)

structure Reviewed (Rest Digest : Type) where
  observation : ProviderSourceObservation Rest Digest
  source : ProviderSourceObject Digest
  media : FileRecord
  candidate : RecordingCandidate
  current : Option RecordingSelection

def orRaise {Value : Type} (value : Option Value) (raised : String) : Except String Value :=
  value.elim (.error raised) .ok

-- What is read and checked for every action, up to the decision id.
def review (desk : Desk Rest Digest) (command : RemoteSourceDecision) (actor : String) :
    Except String (Reviewed Rest Digest) := do
  require (command.action ≠ .reopen || command.reason.any fun reason => !(strip reason).isEmpty)
    "Reopening a rejected candidate requires a reason"
  require (!actor.isEmpty && actor.length ≤ 128 && !actor.toList.contains (Char.ofNat 0))
    "Decision requires a bounded actor"
  let observation ← orRaise (desk.sources.observation command.observationId) "Decision requires a retained remote source"
  let source ← orRaise ((desk.sources.object observation.objectId).filter fun row => row.channel = some .remote)
    "Decision requires a retained remote source"
  let media ← orRaise ((desk.media.find? fun row => row.id = command.mediaId).filter fun row =>
    !row.missing && mediaFileTypes.contains row.fileType) "Recording is unavailable"
  require (media.sha256Hash = command.expectedMediaSha256) "Recording changed before decision"
  let candidate ← orRaise (desk.candidate media.id observation.id) "Observation is not a candidate for this recording"
  require (observation.revision = command.expectedRevision) "Source revision changed before decision"
  return {
    observation := observation
    source := source
    media := media
    candidate := candidate
    current := desk.selection media.id }

-- The answer to a decision id that was applied before.
def replay (command : RemoteSourceDecision) (actor : String) (reviewed : Reviewed Rest Digest)
    (previous : SelectionEvent) : Except String Unit := do
  require (previous.decisionPayload = (command, actor)) "Decision UUID was reused with different intent"
  require
    ((command.action = .select && reviewed.current.any fun row => row.selectionToken = some command.decisionId) ||
      (command.action = .reject && reviewed.candidate.status = .rejected) ||
      (command.action = .reopen && reviewed.candidate.status ≠ .rejected))
    "Decision replay is no longer current"

def selectable (desk : Desk Rest Digest) (command : RemoteSourceDecision) (reviewed : Reviewed Rest Digest) :
    Except String TargetMapping := do
  require (!(desk.rejections reviewed.media.id reviewed.source.providerId).contains reviewed.source.nativeId)
    "A rejected candidate cannot be selected; reopen it first"
  let snapshot ← orRaise
    (if reviewed.observation.status = .outcome .found then snapshotOf reviewed.observation else none)
    "Only a complete loaded snapshot with tracks can be selected"
  require (snapshot.completeness.complete && !snapshot.tracks.isEmpty)
    "Only a complete loaded snapshot with tracks can be selected"
  let ordinal ← reviewTextSection snapshot command.textSectionOrdinal command.acceptTextWarnings
  require (reviewed.observation.conflictWithId.isNone || command.acceptConflict)
    "Conflicting source requires explicit acknowledgement"
  require (remoteAvailability desk.sources reviewed.observation reviewed.source.id = .current)
    "Source is not currently available for this recording"
  return {
    mediaId := reviewed.media.id
    mediaSha256 := reviewed.media.sha256Hash
    sourceRevision := reviewed.observation.revision.getD "unknown"
    textSectionOrdinal := ordinal }

def rejectable (reviewed : Reviewed Rest Digest) : Except String Unit :=
  require (!reviewed.current.any fun row => row.observationId = reviewed.observation.id)
    "Rejecting an active selected source requires choosing a replacement"

def reopenable (reviewed : Reviewed Rest Digest) : Except String Unit :=
  require (reviewed.candidate.status = .rejected) "Only a rejected candidate can be reopened"

/-! ## Writing -/

def Desk.setStatus (desk : Desk Rest Digest) (media observation : Uuid) (status : CandidateStatus) : Desk Rest Digest :=
  { desk with candidates := desk.candidates.map fun row =>
      if row.mediaId = media ∧ row.observationId = observation then { row with status := status } else row }

def selectionOf (command : RemoteSourceDecision) (actor : String) (now : Int) (mapping : TargetMapping) : RecordingSelection where
  mediaId := command.mediaId
  kind := .tracklist
  observationId := command.observationId
  actor := actor
  selectedAt := now
  selectionToken := some command.decisionId
  targetMapping := some mapping
  tracklistId := none
  versionId := none

def Desk.setSelection (desk : Desk Rest Digest) (selection : RecordingSelection) : Desk Rest Digest :=
  match desk.selection selection.mediaId with
  | none => { desk with selections := desk.selections ++ [selection] }
  | some _ =>
      { desk with selections := desk.selections.map fun row =>
          if row.mediaId = selection.mediaId ∧ row.kind = .tracklist then selection else row }

-- Reopening returns every rejected row of the source object to review.
def Desk.reopen (desk : Desk Rest Digest) (media object : Uuid) : Desk Rest Digest :=
  { desk with candidates := desk.candidates.map fun row =>
      if row.mediaId = media ∧ row.status = .rejected ∧
          (desk.sources.observation row.observationId).any fun other => other.objectId = object then
        { row with status := .pending }
      else row }

def Desk.addEvent (desk : Desk Rest Digest) (command : RemoteSourceDecision) (actor : String)
    (mapping : Option TargetMapping) : Desk Rest Digest :=
  { desk with events := desk.events ++
      [{ mediaId := command.mediaId
         observationId := command.observationId
         actor := actor
         decisionId := command.decisionId
         action := command.action
         targetMapping := mapping
         decisionPayload := (command, actor) }] }

-- The branch of the action: its checks, then what it writes.
def act (desk : Desk Rest Digest) (command : RemoteSourceDecision) (actor : String) (now : Int)
    (reviewed : Reviewed Rest Digest) : Except String (Desk Rest Digest) :=
  match command.action with
  | .select => do
      let mapping ← selectable desk command reviewed
      return ((desk.setSelection (selectionOf command actor now mapping)).setStatus command.mediaId
        command.observationId .accepted).addEvent command actor (some mapping)
  | .reject => do
      rejectable reviewed
      return (desk.setStatus command.mediaId command.observationId .rejected).addEvent command actor none
  | .reopen => do
      reopenable reviewed
      return ((desk.reopen command.mediaId reviewed.source.id).setStatus command.mediaId command.observationId
        .pending).addEvent command actor none

-- What is left in the tables, before the selected source is read back.
def decided (desk : Desk Rest Digest) (command : RemoteSourceDecision) (actor : String) (now : Int) :
    Except String (Desk Rest Digest) := do
  let reviewed ← review strip desk command actor
  match desk.event command.decisionId with
  | some previous =>
      replay command actor reviewed previous
      return desk
  | none =>
      require (desk.token uuid5 reviewed.media.id = command.expectedSelectionToken)
        "Selected source changed; refresh before reviewing"
      act desk command actor now reviewed

-- `get_selected_recording_source` raises on a selected payload that is no snapshot.
def selectedRecordingSource (desk : Desk Rest Digest) (media : Uuid) : Except String (Option RecordingSelection) :=
  match desk.selection media with
  | none => .ok none
  | some selection =>
      match desk.sources.observation selection.observationId with
      | none => .ok none
      | some observation => do
          let _ ← orRaise (snapshotOf observation) "Snapshot validation failed"
          return some selection

def decideRemoteCandidate (desk : Desk Rest Digest) (command : RemoteSourceDecision) (actor : String) (now : Int) :
    Desk Rest Digest × Except String (Option RecordingSelection) :=
  match decided uuid5 strip desk command actor now with
  | .error raised => (desk, .error raised)
  | .ok written => (written, selectedRecordingSource written command.mediaId)

def addCandidate (desk : Desk Rest Digest) (id media observation : Uuid) (evidence : List String) :
    Desk Rest Digest × Except String (Option RecordingCandidate) :=
  if evidence.length ≤ 64 && evidence.all (fun value => value.length ≤ 4096) then
    if (desk.candidate media observation).isSome then (desk, .ok (desk.candidate media observation))
    else if (desk.media.any fun row => row.id = media) && (desk.sources.observation observation).isSome then
      let row : RecordingCandidate :=
        { id := id, mediaId := media, observationId := observation, status := .pending, evidence := evidence }
      ({ desk with candidates := desk.candidates ++ [row] }, .ok (some row))
    else (desk, .error "insert or update on table provider_recording_candidates violates foreign key constraint")
  else (desk, .error "Candidate evidence exceeds contract bounds")

/-! ## Runs of calls -/

inductive DeskCall where
  | decide (command : RemoteSourceDecision) (actor : String) (now : Int)
  | add (id media observation : Uuid) (evidence : List String)

def handle (desk : Desk Rest Digest) : DeskCall → Desk Rest Digest
  | .decide command actor now => (decideRemoteCandidate uuid5 strip desk command actor now).1
  | .add id media observation evidence => (addCandidate desk id media observation evidence).1

def raises (desk : Desk Rest Digest) : DeskCall → Bool
  | .decide command actor now =>
      match (decideRemoteCandidate uuid5 strip desk command actor now).2 with
      | .error _ => true
      | .ok _ => false
  | .add id media observation evidence =>
      match (addCandidate desk id media observation evidence).2 with
      | .error _ => true
      | .ok _ => false

def Desk.opening (sources : Database Rest Digest) (media : List FileRecord) : Desk Rest Digest where
  sources := sources
  media := media
  candidates := []
  selections := []
  events := []

end Deciding

end Phaze.Provider
