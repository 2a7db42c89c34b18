import Phaze.Outbound.Plan

set_option autoImplicit false

/-!
# Invocations

`ProviderRegistry` mints what an invocation may read, and `_BoundedEffects` stands between the provider and the
transport. The provider is any sequence of reads.
-/

namespace Phaze.Outbound

open Percent

/-! ## The guard -/

structure BoundedEffects where
  budget : DiscoveryBudget
  allowed : List SourceReference
  minted : List SourceReference
  maxSearchPage : Nat
  reads : Nat
  bytesRead : Nat
  charactersRead : Nat
  linesRead : Nat
  violation : Option String
deriving DecidableEq

def BoundedEffects.new (budget : DiscoveryBudget) (allowed minted : List SourceReference) (maxSearchPage : Nat) :
    BoundedEffects :=
  { budget, allowed, minted, maxSearchPage, reads := 0, bytesRead := 0, charactersRead := 0, linesRead := 0,
    violation := none }

-- `reference.model_copy(update={"request": request.model_copy(update={"page": 1})})`
def SourceReference.firstPage (reference : SourceReference) (request : RemoteRequest) : SourceReference :=
  { reference with request := some { request with page := 1 } }

def BoundedEffects.authorized (effects : BoundedEffects) (source : SourceReference) : Bool :=
  if source.channel ≠ .remote then source ∈ effects.allowed
  else
    match source.validate with
    | none => false
    | some reference =>
        match reference.request with
        | none => false
        | some request =>
            let bound := if request.kind = .search then effects.maxSearchPage else 1
            reference.firstPage request ∈ effects.minted && request.page ≤ bound

-- A read of the provider, and how the world takes it.
structure Read where
  source : SourceReference
  budget : DiscoveryBudget
  world : World
deriving DecidableEq

def BoundedEffects.violate (effects : BoundedEffects) (code : String) : BoundedEffects :=
  { effects with violation := some code }

-- The remaining amounts are positive; that of the reads always is.
def BoundedEffects.remains (effects : BoundedEffects) : Bool :=
  effects.bytesRead < effects.budget.maxBytes && effects.charactersRead < effects.budget.maxCharacters &&
    effects.linesRead < effects.budget.maxLines

def BoundedEffects.charge (effects : BoundedEffects) (answer : Answer) : BoundedEffects :=
  let charged := { effects with
    bytesRead := effects.bytesRead + answer.bytesRead
    charactersRead := effects.charactersRead + answer.characters
    linesRead := effects.linesRead + answer.lines }
  if charged.bytesRead > effects.budget.maxBytes ∨ charged.charactersRead > effects.budget.maxCharacters ∨
      charged.linesRead > effects.budget.maxLines then
    charged.violate "input_cap"
  else charged

-- `read`, with the URLs that the transport sends for it
def BoundedEffects.read (profiles : List ValidatedProfile) (effects : BoundedEffects) (read : Read) :
    BoundedEffects × List Str :=
  if !effects.authorized read.source then (effects.violate "unauthorized_read", [])
  else if read.budget ≠ effects.budget then (effects.violate "budget_changed", [])
  else
    let effects := { effects with reads := effects.reads + 1 }
    if effects.reads > effects.budget.maxReads then (effects.violate "read_cap", [])
    else if !effects.remains then (effects.violate "input_cap", [])
    else
      let sent := transportRead profiles read.source read.world
      match read.world.answer with
      | none => (effects.violate "invalid_read", sent)
      | some answer => (effects.charge answer, sent)

def BoundedEffects.run (profiles : List ValidatedProfile) (effects : BoundedEffects) : List Read → List Str
  | [] => []
  | read :: rest =>
      let after := effects.read profiles read
      after.2 ++ after.1.run profiles rest

/-! ## The registry -/

structure ProviderDescriptor where
  id : String
  discovery : Bool
deriving DecidableEq

structure OpaqueCursor where
  providerId : String
  contextKey : Str
  contractVersion : Nat × Nat
deriving DecidableEq

def supportedVersion : Nat × Nat := (1, 0)

structure ProviderRegistry where
  descriptors : List ProviderDescriptor
  disabled : List String
  profiles : List ValidatedProfile
  -- `context_key`: a digest of the context
  contextKey : RecordingContext → Str

-- `_rejection`
def ProviderRegistry.rejection (registry : ProviderRegistry) (providerId : String) : Option String :=
  if registry.descriptors.all fun descriptor => descriptor.id ≠ providerId then some "unknown_provider"
  else if providerId ∈ registry.disabled then some "disabled_provider"
  else none

-- `str.isspace` of one code point
def isSpace : CodePoint → Bool
  | .scalar char =>
      let code := char.toNat
      (9 ≤ code && code ≤ 13) || (28 ≤ code && code ≤ 32) || code = 133 || code = 160 || code = 5760 ||
        (8192 ≤ code && code ≤ 8202) || code = 8232 || code = 8233 || code = 8239 || code = 8287 || code = 12288
  | .surrogate _ => false

def Fact.usable (fact : Fact) : Option Str :=
  if fact.certainty = .known ∨ fact.certainty = .inferred then
    fact.value.filter fun value => !value.all isSpace
  else none

def RecordingContext.facts (context : RecordingContext) : List (SearchField × Fact) :=
  [(.artist, context.artist), (.event, context.event), (.date, context.date)]

def usableTerms (route : RemoteSearchRoute) (context : RecordingContext) : List SearchTerm :=
  context.facts.filterMap fun fact =>
    if fact.1 ∈ route.fields then fact.2.usable.map fun value => { field := fact.1, value } else none

-- Too long is skipped, never truncated.
def searchTerms (route : RemoteSearchRoute) (context : RecordingContext) : List SearchTerm :=
  (usableTerms route context).filter fun term => term.value.length ≤ maxSearchTermCharacters

-- `_mint_search`; `none` where a constructor raises
def ProviderRegistry.mintSearch (registry : ProviderRegistry) (providerId : String) (context : RecordingContext) :
    Option (List SourceReference) :=
  match (findProfile registry.profiles providerId).bind (·.search) with
  | none => some []
  | some route =>
      let terms := searchTerms route context
      if terms.isEmpty then some []
      else
        let identity : SourceIdentity := { providerId, nativeId := str "search:" ++ registry.contextKey context }
        let reference : SourceReference :=
          { identity, channel := .remote, format := route.format, displayName := none, revision := none
            request := some { kind := .search, terms, page := 1 } }
        reference.validate.map fun reference => [reference]

-- The URLs that are sent on behalf of `discover`.
def ProviderRegistry.discover (registry : ProviderRegistry) (providerId : String) (context : RecordingContext)
    (budget : DiscoveryBudget) (cursor : Option OpaqueCursor) (reads : List Read) : List Str :=
  if (registry.rejection providerId).isSome then []
  else if context.sources.any fun source => source.channel = .remote then []
  else if cursor.any fun cursor => cursor.providerId ≠ providerId || cursor.contextKey ≠ registry.contextKey context ||
      cursor.contractVersion ≠ supportedVersion then
    []
  else if !registry.descriptors.any fun descriptor => descriptor.id = providerId && descriptor.discovery then []
  else
    match registry.mintSearch providerId context with
    | none => []
    | some minted =>
        let allowed := context.sources.filter fun source => source.identity.providerId = providerId
        let bound := ((findProfile registry.profiles providerId).bind (·.search)).elim 1 (·.maxPage)
        (BoundedEffects.new budget allowed minted bound).run registry.profiles reads

-- `minted` in `load`; `none` where the identity is refused or a constructor raises
def ProviderRegistry.mintFetch (registry : ProviderRegistry) (candidate : ProviderCandidate) :
    Option (List SourceReference) :=
  match (findProfile registry.profiles candidate.identity.providerId).bind (·.fetch) with
  | none => some []
  | some route =>
      if route.accepts candidate.identity.nativeId then
        let reference : SourceReference :=
          { identity := candidate.identity, channel := .remote, format := route.format, displayName := none
            revision := none, request := some { kind := .fetch, terms := [], page := 1 } }
        reference.validate.map fun reference => [reference]
      else none

-- The URLs that are sent on behalf of `load`.
def ProviderRegistry.load (registry : ProviderRegistry) (candidate : ProviderCandidate) (budget : DiscoveryBudget)
    (reads : List Read) : List Str :=
  if (registry.rejection candidate.identity.providerId).isSome then []
  else if candidate.source.any fun source => source.channel = .remote then []
  else
    match registry.mintFetch candidate with
    | none => []
    | some minted => (BoundedEffects.new budget candidate.source.toList minted 1).run registry.profiles reads

end Phaze.Outbound
