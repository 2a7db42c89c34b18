import Phaze.Registry.Cut

set_option autoImplicit false

/-!
# The laws of an invocation

Whatever a provider does with its reads and returns, an invocation keeps to its budget and finds nothing after a refusal.
A snapshot that is cut keeps its sections as they were.
-/

namespace Phaze.Registry

open Phaze.Outbound Phaze.Guards Phaze.Percent
open Phaze.Tracklist (LoadOutcome OutcomeStatus Snapshot Text utf8Length fits)
open Phaze.Unicode (splitlines)

/-! ## Laws -/

structure Lawful {Outcome : Type} (limits : DiscoveryBudget) (status : Outcome → OutcomeStatus) (conclusion : Conclusion Outcome) :
    Prop where
  forwarded : forwards (conclusion.replies ++ conclusion.later) ≤ limits.maxReads
  received : ∀ amount, received amount (conclusion.replies ++ conclusion.later) ≤ amount.cap limits
  honest : Refused conclusion.replies → ∀ outcome, conclusion.outcome = .ok outcome → status outcome ≠ .found

structure Fitting (candidate : ProviderCandidate) (limits : DiscoveryBudget) (maxTracks : Nat) (snapshot : Snapshot) : Prop where
  identity : snapshot.identity = identityOf candidate.identity
  tracks : snapshot.tracks.length ≤ maxTracks
  characters : (snapshot.text.getD []).length ≤ limits.maxCharacters
  lines : (splitlines (snapshot.text.getD [])).length ≤ limits.maxLines
  bytes : utf8Length (snapshot.text.getD []) ≤ limits.maxBytes

-- No section is reported as complete that lost a track, unless the scan of the sections is not.
def Truthful (provided reported : Snapshot) : Prop :=
  reported.sectionScanComplete = true → ∀ part ∈ reported.sections, part.completeness.state = .complete →
    ∀ track ∈ provided.tracks, track.sectionOrdinal = some part.ordinal → track ∈ reported.tracks

structure LoadLawful (candidate : ProviderCandidate) (limits : DiscoveryBudget) (maxTracks : Nat) (conduct : Conduct LoadOutcome)
    (conclusion : Conclusion LoadOutcome) : Prop extends Lawful limits LoadOutcome.status conclusion where
  found : ∀ outcome, conclusion.outcome = .ok outcome → outcome.status = .found →
    ∃ snapshot, outcome.snapshot = some snapshot ∧ Fitting candidate limits maxTracks snapshot
  sections : ∀ returned outcome provided reported, conduct.ended = .ok returned → conclusion.outcome = .ok outcome →
    returned.snapshot = some provided → outcome.snapshot = some reported → Truthful provided reported

/-! ## Outcomes -/

theorem tryCatch_ok {Outcome : Type} {body : Except Raised Outcome} {handler : Raised → Except Raised Outcome} {outcome : Outcome}
    (ok : body.tryCatch handler = .ok outcome) : body = .ok outcome ∨ ∃ raised, handler raised = .ok outcome := by
  cases body with
  | ok value => exact .inl ok
  | error raised => exact .inr ⟨raised, ok⟩

theorem built_ok {Outcome : Type} {made : Except String Outcome} {outcome : Outcome} :
    built made = .ok outcome ↔ made = .ok outcome := by
  cases made <;> simp [built, Except.mapError]

theorem discovery_build_ok {outcome made : DiscoveryOutcome} (ok : outcome.build = .ok made) : made = outcome := by
  rw [DiscoveryOutcome.build, bind_require, bind_ok] at ok
  obtain ⟨-, -, -, same⟩ := ok
  exact (Except.ok.inj same).symm

theorem load_build_ok {outcome made : LoadOutcome} :
    outcome.build = .ok made ↔
      (fits 4096 outcome.code && fits 4096 outcome.scope && fits 4096 outcome.detail &&
        Tracklist.evidenceFits outcome.evidence) = true ∧
      outcome.snapshot.elim (.ok ()) Snapshot.validate = .ok () ∧ outcome.validateFound = .ok () ∧ made = outcome := by
  rw [LoadOutcome.build, bind_require]
  simp only [bind_ok, pure, Except.pure, Except.ok.injEq]
  constructor
  · rintro ⟨fields, ⟨⟩, valid, ⟨⟩, found, rfl⟩
    exact ⟨fields, valid, found, rfl⟩
  · rintro ⟨fields, valid, found, rfl⟩
    exact ⟨fields, (), valid, (), found, rfl⟩

theorem brief_status {status : OutcomeStatus} {code : String} {scope : Text} {outcome : DiscoveryOutcome}
    (ok : DiscoveryOutcome.brief status code scope = .ok outcome) : outcome.status = status := by
  rw [DiscoveryOutcome.brief, built_ok] at ok
  rw [discovery_build_ok ok]

-- Nothing found and no snapshot.
def Bare (outcome : LoadOutcome) : Prop := outcome.status ≠ .found ∧ outcome.snapshot = none

theorem built_bare {outcome made : LoadOutcome} (ok : built outcome.build = .ok made) (bare : Bare outcome) : Bare made := by
  rw [built_ok, load_build_ok] at ok
  rwa [ok.2.2.2]

theorem loadBrief_bare {status : OutcomeStatus} {code : String} {scope : Text} {outcome : LoadOutcome}
    (ok : loadBrief status code scope = .ok outcome) (other : status ≠ .found) : Bare outcome := built_bare ok ⟨other, rfl⟩

theorem rejectionStatus_ne (code : String) : rejectionStatus code ≠ .found := by
  unfold rejectionStatus
  split <;> simp

/-! ## Any invocation -/

section

variable {Outcome : Type} {limits : DiscoveryBudget} {status : Outcome → OutcomeStatus}

theorem lawful_declined {outcome : Except Raised Outcome} : Lawful limits status (declined outcome) where
  forwarded := Nat.zero_le _
  received _ := Nat.zero_le _
  honest refused := by simp [Refused, declined] at refused

theorem lawful_conclude {guard : Guard} (fresh : guard.Keeps limits []) {conduct : Conduct Outcome}
    {outcome : Guard → Except Raised Outcome}
    (honest : ∀ after : Guard, after.violation.isSome = true → ∀ made, outcome after = .ok made → status made ≠ .found) :
    Lawful limits status (conclude guard conduct outcome) := by
  have before := run_keeps fresh conduct.before
  have whole := run_keeps before conduct.after
  rw [List.nil_append] at before whole
  exact
    { forwarded := whole.forwarded
      received := whole.received
      honest := fun refused made ok => honest _ (before.refused.mp refused) made ok }

end

/-! ## Discovery -/

theorem discoverExcept_status {context : RecordingContext} {raised : Raised} {outcome : DiscoveryOutcome}
    (ok : discoverExcept context raised = .ok outcome) : outcome.status ≠ .found := by
  cases raised with
  | exhausted message =>
    rw [discoverExcept, built_ok] at ok
    simp [discovery_build_ok ok]
  | osError =>
    rw [discoverExcept] at ok
    simp [brief_status ok]
  | other message =>
    rw [discoverExcept, built_ok] at ok
    simp [discovery_build_ok ok]
  | interrupted => cases ok

-- The violation is looked at before anything that the provider returned.
theorem discoverBody_violated {registry : ProviderRegistry} {providerId : String} {context : RecordingContext} {budget : Budget}
    {ended : Except Raised DiscoveryOutcome} {guard : Guard} (violated : guard.violation.isSome = true) {outcome : DiscoveryOutcome}
    (ok : discoverBody registry providerId context budget ended guard = .ok outcome) : outcome.status ≠ .found := by
  obtain ⟨code, violation⟩ := Option.isSome_iff_exists.mp violated
  rw [discoverBody, bind_ok] at ok
  obtain ⟨returned, -, ok⟩ := ok
  rw [bind_ok] at ok
  obtain ⟨result, -, ok⟩ := ok
  rw [violation] at ok
  simp [brief_status ok]

theorem discover_lawful (registry : ProviderRegistry) (providerId : String) (context : RecordingContext) (budget : Budget)
    (cursor : Option OpaqueCursor) (conduct : Conduct DiscoveryOutcome) :
    Lawful budget.limits DiscoveryOutcome.status (discover registry providerId context budget cursor conduct) := by
  unfold discover
  split
  · exact lawful_declined
  split
  · exact lawful_declined
  split
  · exact lawful_declined
  split
  · exact lawful_declined
  split
  · exact lawful_declined
  apply lawful_conclude (keeps_new _ _ _ _)
  intro guard violated outcome ok
  obtain body | ⟨raised, handled⟩ := tryCatch_ok ok
  · exact discoverBody_violated violated body
  · exact discoverExcept_status handled

/-! ## Loading -/

theorem loadExcept_bare {candidate : ProviderCandidate} {raised : Raised} {outcome : LoadOutcome}
    (ok : loadExcept candidate raised = .ok outcome) : Bare outcome := by
  cases raised with
  | exhausted message => exact built_bare ok ⟨by simp, rfl⟩
  | osError => exact loadBrief_bare ok (by simp)
  | other message => exact built_bare ok ⟨by simp, rfl⟩
  | interrupted => cases ok

-- The guard that `load` hands to the provider, where it gets that far.
def opened (registry : ProviderRegistry) (candidate : ProviderCandidate) (limits : DiscoveryBudget) (maxTracks : Nat) : Option Guard :=
  if (registry.rejection candidate.identity.providerId).isSome then none
  else if candidate.source.any fun source => source.channel = .remote then none
  else if !fetchable registry candidate.identity then none
  else (registry.mintFetch candidate.toProviderCandidate).map fun minted =>
    Guard.new { limits, maxTracks := some maxTracks } candidate.source.toList minted 1

-- A snapshot that the body looks at after its reads.
structure Considered (candidate : ProviderCandidate) (limits : DiscoveryBudget) (ended : Except Raised LoadOutcome) (guard : Guard)
    (returned : LoadOutcome) (snapshot : Snapshot) : Prop where
  ended : ended = .ok returned
  valid : returned.build = .ok returned
  held : returned.snapshot = some snapshot
  clean : guard.violation = none
  identity : snapshot.identity = identityOf candidate.identity
  text : textWithin limits snapshot = true

variable {registry : ProviderRegistry} {candidate : ProviderCandidate} {limits : DiscoveryBudget} {maxTracks : Nat}
  {ended : Except Raised LoadOutcome} {guard : Guard} {conduct : Conduct LoadOutcome} {outcome returned : LoadOutcome}
  {snapshot : Snapshot}

theorem found_has_snapshot (valid : returned.build = .ok returned) (bare : returned.snapshot = none) :
    returned.status ≠ .found := by
  intro found
  have checked := (load_build_ok.mp valid).2.2.1
  simp [LoadOutcome.validateFound, bind_require, found, bare] at checked

theorem loadBody_ok (ok : loadBody candidate limits maxTracks ended guard = .ok outcome) :
    Bare outcome ∨ ∃ returned snapshot, Considered candidate limits ended guard returned snapshot ∧
      (snapshot.tracks.length ≤ maxTracks ∧ outcome = returned ∨
        maxTracks < snapshot.tracks.length ∧ outcome.status = .incomplete ∧ outcome.snapshot = some (cutAt maxTracks snapshot)) := by
  rw [loadBody, bind_ok] at ok
  obtain ⟨returned, end_, ok⟩ := ok
  rw [bind_ok] at ok
  obtain ⟨result, valid, ok⟩ := ok
  rw [built_ok] at valid
  obtain rfl := (load_build_ok.mp valid).2.2.2
  split at ok
  next => exact .inl (loadBrief_bare ok (by simp))
  next bare =>
    obtain rfl := Except.ok.inj ok
    exact .inl ⟨found_has_snapshot valid bare, bare⟩
  next snapshot clean some =>
    split at ok
    next => cases ok
    next identity =>
    split at ok
    next => exact .inl (loadBrief_bare ok (by simp))
    next text =>
    have considered : Considered candidate limits ended guard result snapshot :=
      { ended := end_, valid, held := some, clean, identity := not_not.mp identity, text := by simpa using text }
    split at ok
    next longer =>
      rw [built_ok, load_build_ok] at ok
      obtain ⟨-, -, -, rfl⟩ := ok
      exact .inr ⟨result, snapshot, considered, .inr ⟨longer, rfl, rfl⟩⟩
    next short =>
    split at ok
    next => exact .inl (built_bare ok ⟨by simp, rfl⟩)
    next =>
      obtain rfl := Except.ok.inj ok
      exact .inr ⟨result, snapshot, considered, .inl ⟨Nat.le_of_not_lt short, rfl⟩⟩

-- The cut passes its checks, so that it is what `load` returns.
theorem loadBody_cut (considered : Considered candidate limits ended guard returned snapshot) (longer : maxTracks < snapshot.tracks.length) :
    ∃ outcome, loadBody candidate limits maxTracks ended guard = .ok outcome ∧
      outcome.snapshot = some (cutAt maxTracks snapshot) := by
  have checked := (load_build_ok.mp considered.valid).2.1
  rw [considered.held, Option.elim_some] at checked
  have named : snapshot.identity.nativeId = candidate.identity.nativeId := by rw [considered.identity, identityOf]
  have native : fits 4096 candidate.identity.nativeId = true := by
    rw [Snapshot.validate, bind_require] at checked
    have fields := checked.1
    simp only [Snapshot.fieldsFit, Tracklist.SourceIdentity.fits, Tracklist.identifierFits, named, Bool.and_eq_true] at fields
    tauto
  have made : (cutOutcome candidate maxTracks snapshot).build = .ok (cutOutcome candidate maxTracks snapshot) := by
    apply Tracklist.build_ok
    · simp only [cutOutcome, native]
      rfl
    · exact cut_validate longer checked
    · simp [LoadOutcome.validateFound, bind_require, cutOutcome, cutAt]
  refine ⟨cutOutcome candidate maxTracks snapshot, ?_, rfl⟩
  rw [loadBody, considered.ended]
  simp only [bind, Except.bind, built_ok.mpr considered.valid, considered.clean, considered.held]
  rw [if_neg (not_not.mpr considered.identity), if_neg (by simp [considered.text]), if_pos longer]
  exact built_ok.mpr made

theorem opened_keeps (open_ : opened registry candidate limits maxTracks = some guard) : guard.Keeps limits [] := by
  unfold opened at open_
  split at open_
  next => cases open_
  split at open_
  next => cases open_
  split at open_
  next => cases open_
  obtain ⟨minted, -, rfl⟩ := Option.map_eq_some_iff.mp open_
  exact keeps_new _ _ _ _

theorem load_opened (open_ : opened registry candidate limits maxTracks = some guard) :
    load registry candidate limits maxTracks conduct =
      conclude guard conduct fun guard => (loadBody candidate limits maxTracks conduct.ended guard).tryCatch (loadExcept candidate) := by
  unfold opened at open_
  split at open_
  next => cases open_
  next known =>
  split at open_
  next => cases open_
  next local_ =>
  split at open_
  next => cases open_
  next accepted =>
  obtain ⟨minted, mints, rfl⟩ := Option.map_eq_some_iff.mp open_
  unfold load
  rw [Option.not_isSome_iff_eq_none.mp known]
  simp only
  rw [if_neg local_, if_neg accepted, mints]

theorem load_closed (closed : opened registry candidate limits maxTracks = none) :
    ∃ made, load registry candidate limits maxTracks conduct = declined made ∧ ∀ outcome, made = .ok outcome → Bare outcome := by
  unfold load
  split
  next code _ => exact ⟨_, rfl, fun outcome ok => loadBrief_bare ok (rejectionStatus_ne code)⟩
  next known =>
  split
  next => exact ⟨_, rfl, fun outcome ok => loadBrief_bare ok (by simp)⟩
  next local_ =>
  split
  next => exact ⟨_, rfl, fun outcome ok => loadBrief_bare ok (by simp)⟩
  next accepted =>
  split
  next => exact ⟨_, rfl, fun outcome ok => by cases ok⟩
  next minted mints =>
  rw [opened, known, if_neg (by simp), if_neg local_, if_neg accepted, mints] at closed
  cases closed

-- What `load` returns, beside outcomes without a snapshot, was considered after the reads of the provider.
theorem load_ok (ok : (load registry candidate limits maxTracks conduct).outcome = .ok outcome) :
    Bare outcome ∨ ∃ guard returned snapshot, opened registry candidate limits maxTracks = some guard ∧
      Considered candidate limits conduct.ended (guard.run conduct.before).1 returned snapshot ∧
      (snapshot.tracks.length ≤ maxTracks ∧ outcome = returned ∨
        maxTracks < snapshot.tracks.length ∧ outcome.status = .incomplete ∧ outcome.snapshot = some (cutAt maxTracks snapshot)) := by
  cases open_ : opened registry candidate limits maxTracks with
  | none =>
    have declines : ∃ made, load registry candidate limits maxTracks conduct = declined made ∧ ∀ outcome, made = .ok outcome → Bare outcome :=
      load_closed open_
    obtain ⟨made, same, bare⟩ := declines
    rw [same] at ok
    exact .inl (bare outcome ok)
  | some guard =>
    rw [load_opened open_] at ok
    obtain body | ⟨raised, handled⟩ := tryCatch_ok ok
    · obtain bare | ⟨returned, snapshot, considered, ends⟩ := loadBody_ok body
      · exact .inl bare
      · exact .inr ⟨guard, returned, snapshot, rfl, considered, ends⟩
    · exact .inl (loadExcept_bare handled)

theorem fitting_of (considered : Considered candidate limits ended guard returned snapshot)
    (short : snapshot.tracks.length ≤ maxTracks) : Fitting candidate limits maxTracks snapshot := by
  have text := considered.text
  simp only [textWithin, Bool.and_eq_true, decide_eq_true_eq] at text
  exact
    { identity := considered.identity, tracks := short, characters := text.1.1, lines := text.1.2, bytes := text.2 }

/-! ## The cut -/

-- The provider's snapshot gets as far as the cut.
def Cuts (registry : ProviderRegistry) (candidate : ProviderCandidate) (limits : DiscoveryBudget) (maxTracks : Nat)
    (conduct : Conduct LoadOutcome) (snapshot : Snapshot) : Prop :=
  maxTracks < snapshot.tracks.length ∧ ∃ guard returned, opened registry candidate limits maxTracks = some guard ∧
    Considered candidate limits conduct.ended (guard.run conduct.before).1 returned snapshot

-- The scan of its sections is complete, and one that is marked so has a track beyond the first `max_tracks`.
def Severed (maxTracks : Nat) (snapshot : Snapshot) : Prop :=
  snapshot.sectionScanComplete = true ∧ ∃ part ∈ snapshot.sections, part.completeness.state = .complete ∧
    ∃ track ∈ snapshot.tracks.drop maxTracks, track.sectionOrdinal = some part.ordinal

theorem truthful_refl (snapshot : Snapshot) : Truthful snapshot snapshot := fun _ _ _ _ _ member _ => member

theorem considered_positions (considered : Considered candidate limits ended guard returned snapshot) :
    snapshot.tracks.Pairwise fun track other => track.position < other.position := by
  have checked := (load_build_ok.mp considered.valid).2.1
  rw [considered.held, Option.elim_some, Snapshot.validate, bind_require, bind_ok] at checked
  obtain ⟨-, -, -, rest⟩ := checked
  rw [bind_ok] at rest
  obtain ⟨-, -, later⟩ := rest
  rw [Snapshot.validateTracks, bind_require] at later
  exact List.pairwise_map.mp (Tracklist.uniqueOrdered_iff.mp later.1)

theorem truthful_cut_iff (positions : snapshot.tracks.Pairwise fun track other => track.position < other.position) :
    Truthful snapshot (cutAt maxTracks snapshot) ↔ ¬ Severed maxTracks snapshot := by
  have apart : ∀ track ∈ snapshot.tracks.drop maxTracks, track ∉ snapshot.tracks.take maxTracks := by
    intro track beyond first
    rw [← List.take_append_drop maxTracks snapshot.tracks, List.pairwise_append] at positions
    exact lt_irrefl _ (positions.2.2 track first track beyond)
  constructor
  · rintro truthful ⟨scanned, part, member, complete, track, beyond, placed⟩
    exact apart track beyond (truthful scanned part member complete track (List.mem_of_mem_drop beyond) placed)
  · intro whole scanned part member complete track provided placed
    by_contra lost
    rw [← List.take_append_drop maxTracks snapshot.tracks, List.mem_append] at provided
    exact whole ⟨scanned, part, member, complete, track, provided.resolve_left lost, placed⟩

theorem load_sections_iff :
    (∀ returned outcome provided reported, conduct.ended = .ok returned →
      (load registry candidate limits maxTracks conduct).outcome = .ok outcome →
      returned.snapshot = some provided → outcome.snapshot = some reported → Truthful provided reported) ↔
    ∀ snapshot, Cuts registry candidate limits maxTracks conduct snapshot → ¬ Severed maxTracks snapshot := by
  constructor
  · rintro truthful snapshot ⟨longer, guard, returned, open_, considered⟩
    obtain ⟨outcome, body, held⟩ := loadBody_cut considered longer
    have ok : (load registry candidate limits maxTracks conduct).outcome = .ok outcome := by
      rw [load_opened open_]
      simp only [conclude, body]
      rfl
    exact (truthful_cut_iff (considered_positions considered)).mp
      (truthful returned outcome snapshot _ considered.ended ok considered.held held)
  · intro whole returned outcome provided reported ended ok held reports
    obtain bare | ⟨guard, other, snapshot, open_, considered, ends⟩ := load_ok ok
    · rw [bare.2] at reports
      cases reports
    · obtain rfl : other = returned := Except.ok.inj (considered.ended.symm.trans ended)
      obtain rfl : snapshot = provided := Option.some.inj (considered.held.symm.trans held)
      obtain ⟨-, rfl⟩ | ⟨longer, -, cut⟩ := ends
      · obtain rfl : snapshot = reported := Option.some.inj (held.symm.trans reports)
        exact truthful_refl snapshot
      · obtain rfl : cutAt maxTracks snapshot = reported := Option.some.inj (cut.symm.trans reports)
        exact (truthful_cut_iff (considered_positions considered)).mpr (whole snapshot ⟨longer, guard, other, open_, considered⟩)

theorem load_lawful : Lawful limits LoadOutcome.status (load registry candidate limits maxTracks conduct) := by
  cases open_ : opened registry candidate limits maxTracks with
  | none =>
    have declines : ∃ made, load registry candidate limits maxTracks conduct = declined made ∧ ∀ outcome, made = .ok outcome → Bare outcome :=
      load_closed open_
    obtain ⟨made, same, -⟩ := declines
    rw [same]
    exact lawful_declined
  | some guard =>
    rw [load_opened open_]
    apply lawful_conclude (opened_keeps open_)
    intro after violated outcome ok
    obtain body | ⟨raised, handled⟩ := tryCatch_ok ok
    · obtain bare | ⟨returned, snapshot, considered, -⟩ := loadBody_ok body
      · exact bare.1
      · rw [considered.clean] at violated
        cases violated
    · exact (loadExcept_bare handled).1

/-! ## The whole -/

-- Only a cut through a section of a complete scan breaks a law, and every such cut does.
theorem invocations_lawful (registry : ProviderRegistry) :
    (∀ (providerId : String) (context : RecordingContext) (budget : Budget) (cursor : Option OpaqueCursor)
      (conduct : Conduct DiscoveryOutcome),
      Lawful budget.limits DiscoveryOutcome.status (discover registry providerId context budget cursor conduct)) ∧
    ∀ (candidate : ProviderCandidate) (limits : DiscoveryBudget) (maxTracks : Nat) (conduct : Conduct LoadOutcome),
      LoadLawful candidate limits maxTracks conduct (load registry candidate limits maxTracks conduct) ↔
        ∀ snapshot, Cuts registry candidate limits maxTracks conduct snapshot → ¬ Severed maxTracks snapshot := by
  refine ⟨discover_lawful registry, fun candidate limits maxTracks conduct => ?_⟩
  rw [← load_sections_iff]
  constructor
  · exact LoadLawful.sections
  · intro sections
    refine { toLawful := load_lawful, found := ?_, sections }
    intro outcome ok found
    obtain bare | ⟨guard, returned, snapshot, -, considered, ends⟩ := load_ok ok
    · exact absurd found bare.1
    · obtain ⟨short, rfl⟩ | ⟨-, status, -⟩ := ends
      · exact ⟨snapshot, considered.held, fitting_of considered short⟩
      · rw [status] at found
        cases found

/-! ## Two tracks where one fits -/

def shelf : ProviderRegistry :=
  { descriptors := [{ id := "shelf", discovery := false }], disabled := [], profiles := [], contextKey := fun _ => [] }

def shelved : ProviderCandidate := { identity := { providerId := "shelf", nativeId := str "a" }, source := none, observedRevision := none }

def oneSide : Snapshot :=
  { identity := identityOf shelved.identity, retrievedAt := str "2026-01-01T00:00:00Z",
    tracks := [{ position := 1, sectionOrdinal := some 1 }, { position := 2, sectionOrdinal := some 1 }],
    sections := [{ ordinal := 1, completeness := { state := .complete, reason := str "listed" } }], sectionScanComplete := true,
    sourceFormat := str "txt", parserVersion := str "1", completeness := { state := .complete, reason := str "listed" } }

def bothTracks : LoadOutcome := { status := .found, code := str "found", scope := str "a", snapshot := some oneSide }

def usualLimits : DiscoveryBudget :=
  { maxCandidates := 64, maxReads := 16, maxBytes := 262144, maxCharacters := 131072, maxLines := 4096, deadline := 30 }

theorem cut_section_stays_complete :
    ¬ LoadLawful shelved usualLimits 1 { before := [], ended := .ok bothTracks, after := [] }
      (load shelf shelved usualLimits 1 { before := [], ended := .ok bothTracks, after := [] }) := by
  intro lawful
  have considered : Considered shelved usualLimits (.ok bothTracks)
      (Guard.new { limits := usualLimits, maxTracks := some 1 } [] [] 1) bothTracks oneSide :=
    { ended := rfl, valid := by decide +kernel, held := rfl, clean := rfl, identity := rfl, text := by decide }
  apply load_sections_iff.mp lawful.sections oneSide
  · exact ⟨by decide, _, bothTracks, rfl, considered⟩
  · exact ⟨rfl, _, List.mem_singleton_self _, rfl, _, List.mem_singleton_self _, rfl⟩

end Phaze.Registry
