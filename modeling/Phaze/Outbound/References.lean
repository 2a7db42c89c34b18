import Phaze.Shared.Percent

set_option autoImplicit false

/-!
# Remote references

`tracklist_providers/domain.py`: what a provider may hand to the transport. A copy is made without validation, so every
field may hold what its validator would refuse.
-/

namespace Phaze.Outbound

open Percent

inductive SearchField where
  | artist
  | event
  | date
  | other (text : String)
deriving DecidableEq

inductive Channel where
  | companion
  | embedded
  | remote
  | other (text : String)
deriving DecidableEq

inductive RequestKind where
  | search
  | fetch
  | robots
  | other (text : String)
deriving DecidableEq

structure SourceIdentity where
  providerId : String
  nativeId : Str
deriving DecidableEq

structure SearchTerm where
  field : SearchField
  value : Str
deriving DecidableEq

structure RemoteRequest where
  kind : RequestKind
  terms : List SearchTerm
  page : Int
deriving DecidableEq

structure SourceReference where
  identity : SourceIdentity
  channel : Channel
  format : String
  displayName : Option String
  revision : Option String
  request : Option RemoteRequest
deriving DecidableEq

/-! ## Validation -/

def maxSearchTerms : Nat := 4
def maxSearchTermCharacters : Nat := 256
def maxSearchPage : Nat := 64
def maxText : Nat := 4096

-- `^[a-z][a-z0-9_]*$`, and 64 characters at most
def isProviderId (text : String) : Bool :=
  (text.toList.head?.any Char.isLower) && (text.toList.all fun char => char.isLower || char.isDigit || char = '_') &&
    text.length ≤ 64

-- `search:[0-9a-f]{64}`
def searchIdentity (nativeId : Str) : Bool :=
  (str "search:").isPrefixOf nativeId && nativeId.length = 71 && (nativeId.drop 7).all fun point =>
    match point with
    | .scalar char => char.isDigit || ('a' ≤ char && char ≤ 'f')
    | .surrogate _ => false

def SourceIdentity.valid (identity : SourceIdentity) : Bool :=
  isProviderId identity.providerId && 1 ≤ identity.nativeId.length && identity.nativeId.length ≤ maxText

def SearchTerm.valid (term : SearchTerm) : Bool :=
  (term.field = .artist || term.field = .event || term.field = .date) && 1 ≤ term.value.length &&
    term.value.length ≤ maxSearchTermCharacters

def RemoteRequest.valid (request : RemoteRequest) : Bool :=
  (request.kind = .search || request.kind = .fetch) && request.terms.length ≤ maxSearchTerms &&
    (request.terms.all SearchTerm.valid) && 0 < request.page && request.page ≤ maxSearchPage &&
    -- `validate_kind`
    !(request.kind = .fetch && (!request.terms.isEmpty || request.page ≠ 1)) &&
    !(request.kind = .search && request.terms.isEmpty) && (request.terms.map (·.field)).Nodup

def SourceReference.valid (source : SourceReference) : Bool :=
  source.identity.valid && (source.channel = .companion || source.channel = .embedded || source.channel = .remote) &&
    source.format.length ≤ maxText && (source.displayName.all fun text => text.length ≤ maxText) &&
    (source.revision.all fun text => text.length ≤ 2048) && source.request.all RemoteRequest.valid &&
    -- `validate_channel`
    (source.channel = .remote) == source.request.isSome && !(source.channel = .remote && source.revision.isSome) &&
    (source.request.all fun request => !(request.kind = .search && !searchIdentity source.identity.nativeId))

-- `model_validate`
def SourceReference.validate (source : SourceReference) : Option SourceReference :=
  if source.valid then some source else none

/-! ## What an invocation is about -/

inductive Certainty where
  | known
  | inferred
  | unknown
  | conflicting
deriving DecidableEq

structure Fact where
  value : Option Str
  certainty : Certainty
deriving DecidableEq

structure RecordingContext where
  recordingId : Str
  sources : List SourceReference
  artist : Fact
  event : Fact
  date : Fact
deriving DecidableEq

structure ProviderCandidate where
  identity : SourceIdentity
  source : Option SourceReference
deriving DecidableEq

structure DiscoveryBudget where
  maxCandidates : Nat
  maxReads : Nat
  maxBytes : Nat
  maxCharacters : Nat
  maxLines : Nat
  deadline : ℚ
deriving DecidableEq

end Phaze.Outbound
