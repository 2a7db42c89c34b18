import Phaze.Provider.Source
import Phaze.Shared.Guards
import Phaze.Shared.Keyset

set_option autoImplicit false

/-!
# Storing what a provider reported

`services/provider_persistence.py`. A call that raises leaves its caller's transaction to be rolled back.
The ids a call draws are its arguments; the primary keys refuse one that is taken.
-/

namespace Phaze.Provider

open Guards Keyset

-- `_payload_bytes` (`none` where it raises) and the two uses of `_digest`.
structure Codec (Rest Digest : Type) where
  serialize : Payload Rest → Option String
  contentDigest : String → Digest
  nativeDigest : SourceIdentity → Digest

def maxNativeBytes : Nat := 16384
def maxRevisionBytes : Nat := 8192
def maxTextBytes : Nat := 1048576
def maxPayloadBytes : Nat := 4194304

def bounded (maximum : Nat) : Option String → Bool
  | none => true
  | some text => !text.toList.contains (Char.ofNat 0) && text.utf8ByteSize ≤ maximum

def bound (value : Option String) (maximum : Nat) (label : String) : Except String Unit :=
  require (bounded maximum value) (label ++ " exceeds its storage bound or contains NUL")

section Store

variable {Rest Digest : Type} [DecidableEq Rest] [DecidableEq Digest] (codec : Codec Rest Digest)

def insertObject (db : Database Rest Digest) (source : ProviderSourceObject Digest) :
    Except String (Database Rest Digest × ProviderSourceObject Digest) := do
  require (db.object source.id).isNone "duplicate key value violates provider_source_objects_pkey"
  return ({ db with objects := db.objects ++ [source] }, source)

-- The page loop over a digest bucket.
def inBucket (db : Database Rest Digest) (identity : SourceIdentity) : Option (ProviderSourceObject Digest) :=
  let bucket := db.objects.filter fun row =>
    row.providerId = identity.providerId && row.nativeDigest = codec.nativeDigest identity
  match walk ProviderSourceObject.id
    (fun (_ : Unit) row => if row.nativeId = identity.nativeId then .stop row else .goOn ()) bucket () with
  | .stop row => some row
  | .goOn _ => none

def resolveSource (db : Database Rest Digest) (identity : SourceIdentity) (sourceFileId : Option Uuid)
    (channel : Option Channel) (objectId : Uuid) :
    Except String (Database Rest Digest × ProviderSourceObject Digest) := do
  bound (some identity.nativeId) maxNativeBytes "native identity"
  require (sourceFileId.isNone == (channel == none || channel == some .remote))
    "Local source binding requires a file and companion/embedded channel; a remote source binds none"
  require (sourceFileId.all fun file => db.files.contains file) "Local source inventory no longer exists"
  match inBucket codec db identity with
  | some row =>
      require (row.originalFileId = sourceFileId && row.channel = channel)
        "Source identity cannot be rebound to another file or channel"
      return (db, row)
  | none =>
      insertObject db {
        id := objectId
        providerId := identity.providerId
        nativeId := identity.nativeId
        nativeDigest := codec.nativeDigest identity
        sourceFileId := sourceFileId
        originalFileId := sourceFileId
        channel := channel
        readSeq := 0 }

-- The arguments of `_store`.
structure Storing (Rest : Type) where
  identity : SourceIdentity
  payload : Payload Rest
  status : ObservationStatus
  code : String
  revision : Option String
  revisionScope : RevisionScope
  parserVersion : String
  decodedText : Option String
  encoding : Option String
  truncated : Bool
  retrievedAt : Int
  sourceUrl : Option String
  sourceFileId : Option Uuid
  channel : Option Channel
  parentId : Option Uuid
  snapshot : Bool

-- The prefilter of the reuse query.
def alike (storing : Storing Rest) (digest : Digest) (object : Uuid) (row : ProviderSourceObservation Rest Digest) : Bool :=
  row.objectId = object && row.parserVersion = storing.parserVersion && row.revision = storing.revision &&
    row.revisionScope = storing.revisionScope && row.status = storing.status && row.contentDigest = digest &&
    storing.parentId.all fun parent => row.parentId = some parent

def reusable (db : Database Rest Digest) (storing : Storing Rest) (digest : Digest) (object : Uuid) :
    Option (ProviderSourceObservation Rest Digest) :=
  match walk ProviderSourceObservation.id
    (fun (_ : Unit) row => if row.payload = storing.payload then .stop row else .goOn ())
    (db.observations.filter (alike storing digest object)) () with
  | .stop row => some row
  | .goOn _ => none

structure Attribution where
  conflictWith : Option Uuid
  parentId : Option Uuid

-- The rows that claim the revision and are no conflicts themselves.
def claims (object : Uuid) (revision : String) (row : ProviderSourceObservation Rest Digest) : Bool :=
  row.objectId = object && row.revision = some revision && row.revisionScope = .full && row.conflictWithId = none &&
    row.payload.tracked

def weigh (storing : Storing Rest) (state : Attribution) (row : ProviderSourceObservation Rest Digest) :
    Attribution :=
  if row.payload = storing.payload then state
  else if row.decodedText ≠ storing.decodedText ∨
      (row.parserVersion = storing.parserVersion ∧ row.status = storing.status) then
    { state with conflictWith := some row.id }
  else if row.parserVersion ≠ storing.parserVersion ∧ state.parentId = none then
    { state with parentId := some row.id }
  else state

def attribution (db : Database Rest Digest) (storing : Storing Rest) (object : Uuid) : Attribution :=
  let start := { conflictWith := none, parentId := storing.parentId }
  match storing.revision with
  | none => start
  | some revision =>
      if storing.snapshot && storing.revisionScope = .full then
        match walk (fun row => toLex (row.retrievedAt, row.id))
          (fun state row => (Visit.goOn (weigh storing state row) : Visit Attribution Empty))
          (db.observations.filter (claims object revision)) start with
        | .goOn final => final
        | .stop result => nomatch result
      else start

structure StoredObservation (Rest Digest : Type) where
  source : ProviderSourceObject Digest
  observation : ProviderSourceObservation Rest Digest
  reused : Bool
  conflict : Bool

def advance (db : Database Rest Digest) (object : Uuid) : Database Rest Digest :=
  { db with objects := db.objects.map fun row =>
      if row.id = object then { row with readSeq := row.readSeq + 1 } else row }

def insertRead (db : Database Rest Digest) (source : ProviderSourceObject Digest) (observation : Uuid) :
    Database Rest Digest :=
  { db with reads := db.reads ++
      [{ objectId := source.id, readSeq := source.readSeq + 1, observationId := observation }] }

def insertObservation (db : Database Rest Digest) (observation : ProviderSourceObservation Rest Digest) :
    Except String (Database Rest Digest) := do
  require (db.observation observation.id).isNone "duplicate key value violates provider_source_observations_pkey"
  return { db with observations := db.observations ++ [observation] }

def observationOf (storing : Storing Rest) (digest : Digest) (object observationId : Uuid) (attributed : Attribution) :
    ProviderSourceObservation Rest Digest where
  id := observationId
  objectId := object
  status := storing.status
  code := storing.code
  revision := storing.revision
  revisionScope := storing.revisionScope
  parserVersion := storing.parserVersion
  contentDigest := digest
  payload := storing.payload
  decodedText := storing.decodedText
  encoding := storing.encoding
  truncated := storing.truncated
  sourceUrl := storing.sourceUrl
  retrievedAt := storing.retrievedAt
  parentId := attributed.parentId
  conflictWithId := attributed.conflictWith

-- The rest of `_store`, from the advance of `read_seq` on.
def retain (db : Database Rest Digest) (storing : Storing Rest) (serialized : String)
    (source : ProviderSourceObject Digest) (observationId : Uuid) :
    Except String (Database Rest Digest × StoredObservation Rest Digest) :=
  let digest := codec.contentDigest serialized
  let db := advance db source.id
  match reusable db storing digest source.id with
  | some row =>
      .ok (insertRead db source row.id,
        { source := source, observation := row, reused := true, conflict := row.conflictWithId.isSome })
  | none => do
      let attributed := attribution db storing source.id
      let observation := observationOf storing digest source.id observationId attributed
      let db ← insertObservation db observation
      return (insertRead db source observation.id,
        { source := source, observation := observation, reused := false, conflict := attributed.conflictWith.isSome })

def ownParent (db : Database Rest Digest) (source : ProviderSourceObject Digest) : Option Uuid → Bool
  | none => true
  | some parent => (db.observation parent).any fun row => row.objectId = source.id

def store (db : Database Rest Digest) (storing : Storing Rest) (objectId observationId : Uuid) :
    Except String (Database Rest Digest × StoredObservation Rest Digest) := do
  bound storing.revision maxRevisionBytes "revision"
  bound storing.decodedText maxTextBytes "decoded text"
  bound (some storing.parserVersion) 512 "parser version"
  let serialized ← (codec.serialize storing.payload).elim (.error "Payload contains NUL") .ok
  require (serialized.utf8ByteSize ≤ maxPayloadBytes) "Normalized payload exceeds 4MiB"
  let (db, source) ← resolveSource codec db storing.identity storing.sourceFileId storing.channel objectId
  require (ownParent db source storing.parentId) "Parent observation must belong to this source"
  retain codec db storing serialized source observationId

/-! ## The three calls -/

-- The checks of `store_snapshot` and of the `LoadOutcome` it builds.
def snapshotStatus (snapshot : Snapshot Rest) (status : Option OutcomeStatus) : Except String OutcomeStatus := do
  let status := status.getD (if snapshot.completeness.complete then .found else .incomplete)
  require (status = .found || status = .incomplete || status = .ambiguous)
    "Snapshot status is incompatible with completeness"
  require (status ≠ .found || snapshot.completeness.complete) "Snapshot status is incompatible with completeness"
  require (status ≠ .incomplete || !snapshot.completeness.complete) "Incomplete outcome requires incomplete snapshot"
  require (status ≠ .found || !snapshot.tracks.isEmpty || !snapshot.completeness.evidence.isEmpty)
    "Found trackless source requires explicit empty-track evidence"
  return status

inductive Call (Rest : Type) where
  | storeSnapshot (snapshot : Snapshot Rest) (status : Option OutcomeStatus) (sourceFileId : Option Uuid)
      (channel : Option Channel) (parentId : Option Uuid)
  | storeSourceRead (identity : SourceIdentity) (read : SourceRead Rest) (parserVersion : String)
      (sourceFileId : Option Uuid) (channel : Option Channel)
  | storeDiscovery (candidate : ProviderCandidate Rest) (retrievedAt : Int)

omit [DecidableEq Rest] in
-- The arguments that a call passes to `_store`.
def Call.storing : Call Rest → Except String (Storing Rest)
  | .storeSnapshot snapshot status sourceFileId channel parentId => do
      let status ← snapshotStatus snapshot status
      return {
        identity := snapshot.identity
        payload := .snapshot snapshot.toSnapshotPayload
        status := .outcome status
        code := "snapshot"
        revision := snapshot.revision
        revisionScope := snapshot.revisionScope
        parserVersion := snapshot.parserVersion
        decodedText := snapshot.text
        encoding := snapshot.encoding
        truncated := false
        retrievedAt := snapshot.retrievedAt
        sourceUrl := snapshot.url
        sourceFileId := sourceFileId
        channel := channel
        parentId := parentId
        snapshot := true }
  | .storeSourceRead identity read parserVersion sourceFileId channel => do
      require (!parserVersion.isEmpty && parserVersion.length ≤ 128) "Parser version must contain 1..128 characters"
      return {
        identity := identity
        payload := .read read.toReadPayload
        status := .outcome read.status
        code := read.code
        revision := read.revision
        revisionScope := read.revisionScope
        parserVersion := parserVersion
        decodedText := read.text
        encoding := read.encoding
        truncated := read.truncated
        retrievedAt := read.retrievedAt
        sourceUrl := none
        sourceFileId := sourceFileId
        channel := channel
        parentId := none
        snapshot := false }
  | .storeDiscovery candidate retrievedAt =>
      .ok {
        identity := candidate.identity
        payload := .discovered candidate
        status := .discovered
        code := "discovered"
        revision := candidate.observedRevision
        revisionScope := .unknown
        parserVersion := "discovery-v1"
        decodedText := none
        encoding := none
        truncated := false
        retrievedAt := retrievedAt
        sourceUrl := candidate.url
        sourceFileId := none
        channel := some .remote
        parentId := none
        snapshot := false }

def perform (db : Database Rest Digest) (call : Call Rest) (objectId observationId : Uuid) :
    Except String (Database Rest Digest × Storing Rest × StoredObservation Rest Digest) := do
  let storing ← call.storing
  let (db, stored) ← store codec db storing objectId observationId
  return (db, storing, stored)

end Store

/-! ## Availability -/

inductive Availability where
  | current
  | absent
  | other (status : ObservationStatus)
deriving DecidableEq

section Availability

variable {Rest Digest : Type}

def readable (status : ObservationStatus) : Bool :=
  status = .outcome .found || status = .outcome .incomplete || status = .outcome .ambiguous

def isAbsent (db : Database Rest Digest) (observation : Uuid) : Bool :=
  (db.observation observation).any fun row => row.status = .outcome .absent

-- `select max(read_seq) where observation_id = ...`, NULL without a read.
def snapshotSeq (db : Database Rest Digest) (observation : Uuid) : Option Nat :=
  ((db.reads.filter fun read => read.observationId = observation).map (·.readSeq)).max?

-- `_remote_availability`
def remoteAvailability (db : Database Rest Digest) (observation : ProviderSourceObservation Rest Digest)
    (object : Uuid) : Availability :=
  if !readable observation.status then .other observation.status
  else if db.reads.any fun read => read.objectId = object && isAbsent db read.observationId &&
      (snapshotSeq db observation.id).any fun seq => seq < read.readSeq then .absent
  else .current

end Availability

end Phaze.Provider
