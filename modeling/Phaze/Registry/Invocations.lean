import Phaze.Registry.Guard
import Phaze.Tracklist.LocalSource

set_option autoImplicit false

/-!
# Discovery and loading

`ProviderRegistry.discover` and `load` around whatever a provider does: its reads before it ends, how it ends, and the
reads that its tasks make or await afterwards.
-/

namespace Phaze.Registry

open Phaze.Outbound Phaze.Guards Phaze.Percent
open Phaze.Tracklist (Completeness CompletenessState LoadOutcome OutcomeStatus Snapshot Text constraint evidenceFits fits
  identifierFits utf8Length)
open Phaze.Unicode (splitlines)

-- The deadline is a `TimeoutError`, caught with `_BudgetExceeded`. What is no outcome at all is another exception.
inductive Raised where
  | exhausted (message : Text)
  | osError
  | other (message : Text)
  | interrupted
deriving DecidableEq

structure ProviderCandidate extends Outbound.ProviderCandidate where
  observedRevision : Option Text
deriving DecidableEq

structure DiscoveryOutcome where
  status : OutcomeStatus
  code : Text
  scope : Text
  detail : Text := []
  evidence : List Text := []
  candidates : List ProviderCandidate := []
  completeness : Option Completeness := none
  cursor : Option OpaqueCursor := none
deriving DecidableEq

/-! ## Checks -/

-- `match_reference`
def ProviderCandidate.valid (candidate : ProviderCandidate) : Bool :=
  candidate.identity.valid && candidate.observedRevision.all (fits 4096) &&
    candidate.source.all fun source => source.valid && candidate.identity = source.identity

def cursorFits (cursor : OpaqueCursor) : Bool := isProviderId cursor.providerId && identifierFits cursor.contextKey

def DiscoveryOutcome.fieldsFit (outcome : DiscoveryOutcome) : Bool :=
  fits 4096 outcome.code && fits 4096 outcome.scope && fits 4096 outcome.detail && evidenceFits outcome.evidence &&
    outcome.candidates.length ≤ 256 && outcome.candidates.all ProviderCandidate.valid &&
    outcome.completeness.all Completeness.fieldsFit && outcome.cursor.all cursorFits

def DiscoveryOutcome.validateBatch (outcome : DiscoveryOutcome) : Except String Unit := do
  require (outcome.status ≠ .found ||
    ((outcome.completeness.any fun completeness => completeness.state = .complete) && outcome.cursor.isNone))
    "Found discovery requires demonstrated complete enumeration"
  require (outcome.status ≠ .incomplete ||
    outcome.completeness.any fun completeness => completeness.state = .incomplete && !completeness.reason.isEmpty)
    "Incomplete discovery requires incompleteness reason"

def DiscoveryOutcome.build (outcome : DiscoveryOutcome) : Except String DiscoveryOutcome := do
  require outcome.fieldsFit constraint
  outcome.validateBatch
  return outcome

-- The constructor raises a `ValidationError`.
def built {Outcome : Type} (outcome : Except String Outcome) : Except Raised Outcome :=
  outcome.mapError fun message => .other (str message)

/-! ## What a provider does -/

structure Conduct (Outcome : Type) where
  before : List Event
  ended : Except Raised Outcome
  after : List Event

structure Conclusion (Outcome : Type) where
  replies : List Reply
  later : List Reply
  outcome : Except Raised Outcome

section

variable {Outcome : Type}

-- Nothing of the provider runs.
def declined (outcome : Except Raised Outcome) : Conclusion Outcome := { replies := [], later := [], outcome }

def conclude (guard : Guard) (conduct : Conduct Outcome) (outcome : Guard → Except Raised Outcome) : Conclusion Outcome :=
  let before := guard.run conduct.before
  { replies := before.2, later := (before.1.run conduct.after).2, outcome := outcome before.1 }

end

-- `str(exc) or "deadline"`
def reasonOf (message : Text) : Text := if message.isEmpty then str "deadline" else message

def rejectionStatus (code : String) : OutcomeStatus := if code = "unknown_provider" then .contractError else .unavailable

/-! ## Discovery -/

def foreignCursor (registry : ProviderRegistry) (providerId : String) (context : RecordingContext) (cursor : OpaqueCursor) : Bool :=
  cursor.providerId ≠ providerId || cursor.contextKey ≠ registry.contextKey context || cursor.contractVersion ≠ supportedVersion

def DiscoveryOutcome.brief (status : OutcomeStatus) (code : String) (scope : Text) : Except Raised DiscoveryOutcome :=
  built (DiscoveryOutcome.build { status, code := str code, scope })

def discoverBody (registry : ProviderRegistry) (providerId : String) (context : RecordingContext) (budget : Budget)
    (ended : Except Raised DiscoveryOutcome) (guard : Guard) : Except Raised DiscoveryOutcome := do
  let returned ← ended
  let result ← built returned.build
  match guard.violation with
  | some code => DiscoveryOutcome.brief .contractError code context.recordingId
  | none =>
      if result.candidates.any fun candidate => candidate.source.any fun source => source ∉ guard.allowed then
        .error (.other (str "Candidate reference was not explicitly authorized"))
      else if result.candidates.any fun candidate => candidate.identity.providerId ≠ providerId then
        .error (.other (str "Foreign candidate identity"))
      else if result.cursor.any (foreignCursor registry providerId context) then .error (.other (str "Foreign cursor"))
      else if result.candidates.length > budget.limits.maxCandidates then
        built (DiscoveryOutcome.build
          { status := .incomplete, code := str "candidate_cap", scope := context.recordingId,
            candidates := result.candidates.take budget.limits.maxCandidates,
            completeness := some { state := .incomplete, reason := str "candidate_cap" } })
      else .ok result

def discoverExcept (context : RecordingContext) : Raised → Except Raised DiscoveryOutcome
  | .exhausted message =>
      built (DiscoveryOutcome.build
        { status := .incomplete, code := reasonOf message, scope := context.recordingId,
          completeness := some { state := .incomplete, reason := reasonOf message } })
  | .osError => DiscoveryOutcome.brief .unavailable "read_error" context.recordingId
  | .other message =>
      built (DiscoveryOutcome.build
        { status := .contractError, code := str "invalid_output", scope := context.recordingId, detail := message.take 4096 })
  | .interrupted => .error .interrupted

def discover (registry : ProviderRegistry) (providerId : String) (context : RecordingContext) (budget : Budget)
    (cursor : Option OpaqueCursor) (conduct : Conduct DiscoveryOutcome) : Conclusion DiscoveryOutcome :=
  match registry.rejection providerId with
  | some code => declined (DiscoveryOutcome.brief (rejectionStatus code) code context.recordingId)
  | none =>
      if context.sources.any fun source => source.channel = .remote then
        declined (DiscoveryOutcome.brief .contractError "caller_remote_reference" context.recordingId)
      else if cursor.any (foreignCursor registry providerId context) then
        declined (DiscoveryOutcome.brief .contractError "cursor_mismatch" context.recordingId)
      else if !registry.descriptors.any fun descriptor => descriptor.id = providerId && descriptor.discovery then
        declined (DiscoveryOutcome.brief .unsupported "discovery_unsupported" context.recordingId)
      else
        match registry.mintSearch providerId context with
        | none => declined (.error (.other (str constraint)))
        | some minted =>
            let allowed := context.sources.filter fun source => source.identity.providerId = providerId
            let bound := ((findProfile registry.profiles providerId).bind (·.search)).elim 1 (·.maxPage)
            conclude (Guard.new budget allowed minted bound) conduct fun guard =>
              (discoverBody registry providerId context budget conduct.ended guard).tryCatch (discoverExcept context)

/-! ## Loading -/

-- The identity of a snapshot.
def identityOf (identity : SourceIdentity) : Tracklist.SourceIdentity :=
  { providerId := str identity.providerId, nativeId := identity.nativeId }

def textWithin (limits : DiscoveryBudget) (snapshot : Snapshot) : Bool :=
  let text := snapshot.text.getD []
  text.length ≤ limits.maxCharacters && (splitlines text).length ≤ limits.maxLines && utf8Length text ≤ limits.maxBytes

-- `model_copy`: nothing is checked here.
def cutAt (maxTracks : Nat) (snapshot : Snapshot) : Snapshot :=
  { snapshot with
    tracks := snapshot.tracks.take maxTracks, completeness := { state := .incomplete, reason := str "track_cap" } }

def cutOutcome (candidate : ProviderCandidate) (maxTracks : Nat) (snapshot : Snapshot) : LoadOutcome :=
  { status := .incomplete, code := str "track_cap", scope := candidate.identity.nativeId,
    snapshot := some (cutAt maxTracks snapshot) }

def loadBrief (status : OutcomeStatus) (code : String) (scope : Text) : Except Raised LoadOutcome :=
  built (LoadOutcome.build { status, code := str code, scope })

def loadBody (candidate : ProviderCandidate) (limits : DiscoveryBudget) (maxTracks : Nat) (ended : Except Raised LoadOutcome)
    (guard : Guard) : Except Raised LoadOutcome := do
  let returned ← ended
  let result ← built returned.build
  match guard.violation, result.snapshot with
  | some code, _ => loadBrief .contractError code candidate.identity.nativeId
  | none, none => .ok result
  | none, some snapshot =>
      if snapshot.identity ≠ identityOf candidate.identity then .error (.other (str "Snapshot identity mismatch"))
      else if !textWithin limits snapshot then loadBrief .incomplete "output_cap" candidate.identity.nativeId
      else if snapshot.tracks.length > maxTracks then
        built (cutOutcome candidate maxTracks snapshot).build
      else if candidate.observedRevision.isSome ∧ snapshot.revision ≠ candidate.observedRevision then
        built (LoadOutcome.build
          { status := .retry, code := str "revision_changed", scope := candidate.identity.nativeId,
            evidence := [str "Discovered revision differs from loaded revision"] })
      else .ok result

def loadExcept (candidate : ProviderCandidate) : Raised → Except Raised LoadOutcome
  | .exhausted message =>
      built (LoadOutcome.build { status := .incomplete, code := reasonOf message, scope := candidate.identity.nativeId })
  | .osError => loadBrief .unavailable "read_error" candidate.identity.nativeId
  | .other message =>
      built (LoadOutcome.build
        { status := .contractError, code := str "invalid_output", scope := candidate.identity.nativeId, detail := message.take 4096 })
  | .interrupted => .error .interrupted

-- The identity is one that the profile of its provider fetches, if there is such a profile.
def fetchable (registry : ProviderRegistry) (identity : SourceIdentity) : Bool :=
  ((findProfile registry.profiles identity.providerId).bind (·.fetch)).all fun route => route.accepts identity.nativeId

def load (registry : ProviderRegistry) (candidate : ProviderCandidate) (limits : DiscoveryBudget) (maxTracks : Nat)
    (conduct : Conduct LoadOutcome) : Conclusion LoadOutcome :=
  match registry.rejection candidate.identity.providerId with
  | some code => declined (loadBrief (rejectionStatus code) code candidate.identity.nativeId)
  | none =>
      if candidate.source.any fun source => source.channel = .remote then
        declined (loadBrief .contractError "caller_remote_reference" candidate.identity.nativeId)
      else if !fetchable registry candidate.identity then
        declined (loadBrief .contractError "unauthorized_identity" candidate.identity.nativeId)
      else
        match registry.mintFetch candidate.toProviderCandidate with
        | none => declined (.error (.other (str constraint)))
        | some minted =>
            let budget : Budget := { limits, maxTracks := some maxTracks }
            conclude (Guard.new budget candidate.source.toList minted 1) conduct fun guard =>
              (loadBody candidate limits maxTracks conduct.ended guard).tryCatch (loadExcept candidate)

end Phaze.Registry
