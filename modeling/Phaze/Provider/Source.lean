import Mathlib

set_option autoImplicit false

/-!
# Provider sources

The values the providers hand over (`tracklist_providers/domain.py`) and the rows that retain them
(`models/provider_source.py`). `Rest` stands for the facts of a payload that no decision reads.
-/

namespace Phaze.Provider

abbrev Uuid := Nat

inductive OutcomeStatus where
  | found
  | absent
  | incomplete
  | ambiguous
  | unsupported
  | unavailable
  | retry
  | contractError
deriving DecidableEq

inductive RevisionScope where
  | full
  | bounded
  | unknown
deriving DecidableEq

inductive Channel where
  | companion
  | embedded
  | remote
deriving DecidableEq

structure SourceIdentity where
  providerId : String
  nativeId : String
deriving DecidableEq

/-! ## What a provider reports -/

structure Completeness where
  complete : Bool
  reason : String
  evidence : List String
deriving DecidableEq

structure ProviderTrack where
  position : Nat
  sectionOrdinal : Option Nat
  artist : Option String
  title : Option String
deriving DecidableEq

structure TrackSection where
  ordinal : Nat
  completeness : Completeness
  warnings : List String
deriving DecidableEq

-- `normalized_payload`: a snapshot without the time and the URL of its acquisition.
structure SnapshotPayload (Rest : Type) where
  identity : SourceIdentity
  revision : Option String
  revisionScope : RevisionScope
  tracks : List ProviderTrack
  sections : List TrackSection
  sectionScanComplete : Bool
  text : Option String
  encoding : Option String
  parserVersion : String
  completeness : Completeness
  rest : Rest
deriving DecidableEq

structure Snapshot (Rest : Type) extends SnapshotPayload Rest where
  retrievedAt : Int
  url : Option String

structure ReadPayload (Rest : Type) where
  status : OutcomeStatus
  code : String
  text : Option String
  encoding : Option String
  revision : Option String
  revisionScope : RevisionScope
  truncated : Bool
  rest : Rest
deriving DecidableEq

structure SourceRead (Rest : Type) extends ReadPayload Rest where
  retrievedAt : Int

structure ProviderCandidate (Rest : Type) where
  identity : SourceIdentity
  observedRevision : Option String
  url : Option String
  rest : Rest
deriving DecidableEq

/-! ## What is retained -/

inductive Payload (Rest : Type) where
  | snapshot (payload : SnapshotPayload Rest)
  | read (payload : ReadPayload Rest)
  | discovered (candidate : ProviderCandidate Rest)
deriving DecidableEq

-- `payload ? 'tracks'`
def Payload.tracked {Rest : Type} : Payload Rest → Bool
  | .snapshot _ => true
  | .read _ | .discovered _ => false

inductive ObservationStatus where
  | outcome (status : OutcomeStatus)
  | discovered
deriving DecidableEq

structure ProviderSourceObject (Digest : Type) where
  id : Uuid
  providerId : String
  nativeId : String
  nativeDigest : Digest
  sourceFileId : Option Uuid
  originalFileId : Option Uuid
  channel : Option Channel
  readSeq : Nat
deriving DecidableEq

structure ProviderSourceObservation (Rest Digest : Type) where
  id : Uuid
  objectId : Uuid
  status : ObservationStatus
  code : String
  revision : Option String
  revisionScope : RevisionScope
  parserVersion : String
  contentDigest : Digest
  payload : Payload Rest
  decodedText : Option String
  encoding : Option String
  truncated : Bool
  sourceUrl : Option String
  retrievedAt : Int
  parentId : Option Uuid
  conflictWithId : Option Uuid
deriving DecidableEq

structure ProviderSourceRead where
  objectId : Uuid
  readSeq : Nat
  observationId : Uuid
deriving DecidableEq

-- The rows of a table stand in the order in which they were inserted.
structure Database (Rest Digest : Type) where
  files : List Uuid
  objects : List (ProviderSourceObject Digest)
  observations : List (ProviderSourceObservation Rest Digest)
  reads : List ProviderSourceRead

section Rows

variable {Rest Digest : Type}

def Database.object (db : Database Rest Digest) (id : Uuid) : Option (ProviderSourceObject Digest) :=
  db.objects.find? fun row => row.id = id

def Database.observation (db : Database Rest Digest) (id : Uuid) : Option (ProviderSourceObservation Rest Digest) :=
  db.observations.find? fun row => row.id = id

def Database.readsOf (db : Database Rest Digest) (object : Uuid) : List ProviderSourceRead :=
  db.reads.filter fun read => read.objectId = object

end Rows

end Phaze.Provider
