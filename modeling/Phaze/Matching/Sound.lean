import Phaze.Matching.Dates

set_option autoImplicit false

/-!
# The order of the subjects

The subjects are shown in an order that depends on nothing but which subjects there are, ties and all. Their dates are
related as they are meant to be where the forms of the dates allow it.
-/

namespace Phaze.Matching

open Phaze.Calendar Phaze.Percent Phaze.Ranking Phaze.Unicode
open Phaze.Tracklist (Certainty Completeness Fact SourceIdentity Text)

variable {Seconds : Type}

def MatchAssessment.untied (assessment : MatchAssessment Seconds) : MatchAssessment Seconds := { assessment with tiedWith := [] }

def AssessedSubject.date (subject : AssessedSubject Seconds) : Fact := subject.source.facts.2.2

structure Sound (comparisons : Comparisons Seconds) (recording : RecordingContext Seconds) (subjects : List (AssessedSubject Seconds))
    (recordingDateKind : DateKind) (scope : Option Completeness) : Prop where
  permutes : ((assessCandidates comparisons recording subjects recordingDateKind scope).ranked.map MatchAssessment.untied).Perm
    (subjects.map fun subject => assessRecordingMatch comparisons recording subject recordingDateKind scope)
  ordered : ∀ others : List (AssessedSubject Seconds), others.Perm subjects →
    assessCandidates comparisons recording others recordingDateKind scope =
      assessCandidates comparisons recording subjects recordingDateKind scope
  ties : ∀ result ∈ (assessCandidates comparisons recording subjects recordingDateKind scope).ranked,
    result.tiedWith.Nodup ∧ ∀ identity, identity ∈ result.tiedWith ↔
      ∃ other ∈ (assessCandidates comparisons recording subjects recordingDateKind scope).ranked,
        other.identity ≠ result.identity ∧ evidenceKey other = evidenceKey result ∧ other.identity = identity
  symmetric : ∀ result ∈ (assessCandidates comparisons recording subjects recordingDateKind scope).ranked,
    ∀ other ∈ (assessCandidates comparisons recording subjects recordingDateKind scope).ranked,
      result.identity ∈ other.tiedWith ↔ other.identity ∈ result.tiedWith
  dates : ∀ subject ∈ subjects, DateSound recording.date subject.date recordingDateKind subject.dateKind

/-! ## Ties -/

theorem identityKey_injective : Function.Injective identityKey := by
  intro identity other same
  have parts : (identity.providerId.map code, identity.nativeId.map code) = (other.providerId.map code, other.nativeId.map code) := same
  have inject := List.map_injective_iff.mpr code_injective
  rw [Prod.mk.injEq] at parts
  have provider := inject parts.1
  have native := inject parts.2
  cases identity
  cases other
  simp only at provider native
  rw [provider, native]

theorem mem_tie {members : List (MatchAssessment Seconds)} {result : MatchAssessment Seconds} :
    result ∈ tie members ↔ ∃ (place : Nat) (inside : place < members.length),
      result = { members[place] with tiedWith := (members.eraseIdx place).map MatchAssessment.identity } := by
  rw [tie, List.mem_map]
  constructor
  · rintro ⟨⟨member, place⟩, found, rfl⟩
    rw [List.mk_mem_zipIdx_iff_getElem?, List.getElem?_eq_some_iff] at found
    obtain ⟨inside, rfl⟩ := found
    exact ⟨place, inside, rfl⟩
  · rintro ⟨place, inside, rfl⟩
    exact ⟨(members[place], place), List.mk_mem_zipIdx_iff_getElem?.mpr (List.getElem?_eq_getElem inside), rfl⟩

theorem untied_tie (members : List (MatchAssessment Seconds)) :
    (tie members).map MatchAssessment.untied = members.map MatchAssessment.untied := by
  have first : (members.zipIdx.map Prod.fst).map MatchAssessment.untied = members.map MatchAssessment.untied := by
    rw [List.zipIdx_map_fst]
  rw [tie, List.map_map, ← first, List.map_map]
  rfl

-- The others of a group are those of another identity.
theorem mem_others {members : List (MatchAssessment Seconds)} (apart : (members.map MatchAssessment.identity).Nodup) {place : Nat}
    (inside : place < members.length) {other : MatchAssessment Seconds} :
    other ∈ members.eraseIdx place ↔ other ∈ members ∧ other.identity ≠ members[place].identity := by
  have split : members = members.take place ++ members[place] :: members.drop (place + 1) := by
    rw [← List.drop_eq_getElem_cons inside, List.take_append_drop]
  have names : (members.take place ++ members.drop (place + 1)).map MatchAssessment.identity =
      (members.take place).map MatchAssessment.identity ++ (members.drop (place + 1)).map MatchAssessment.identity := List.map_append
  have absent : members[place].identity ∉ (members.take place ++ members.drop (place + 1)).map MatchAssessment.identity := by
    rw [split, List.map_append, List.map_cons, List.nodup_middle] at apart
    rw [names]
    exact (List.nodup_cons.mp apart).1
  rw [List.eraseIdx_eq_take_drop_succ]
  constructor
  · intro member
    refine ⟨?_, fun same => absent (same ▸ List.mem_map_of_mem member)⟩
    rw [split]
    obtain before | after := List.mem_append.mp member
    · exact List.mem_append_left _ before
    · exact List.mem_append_right _ (List.mem_cons_of_mem _ after)
  · rintro ⟨member, differs⟩
    rw [split, List.mem_append, List.mem_cons] at member
    obtain before | rfl | after := member
    · exact List.mem_append_left _ before
    · exact absurd rfl differs
    · exact List.mem_append_right _ after

/-! ## The whole -/

variable {comparisons : Comparisons Seconds} {recording : RecordingContext Seconds} {subjects : List (AssessedSubject Seconds)}
  {recordingDateKind : DateKind} {scope : Option Completeness}

def assessments (comparisons : Comparisons Seconds) (recording : RecordingContext Seconds) (subjects : List (AssessedSubject Seconds))
    (recordingDateKind : DateKind) (scope : Option Completeness) : List (MatchAssessment Seconds) :=
  subjects.map fun subject => assessRecordingMatch comparisons recording subject recordingDateKind scope

theorem assessCandidates_few (few : subjects.length ≤ maxSubjects) :
    assessCandidates comparisons recording subjects recordingDateKind scope =
      { ranked := (ranked evidenceKey (identityKey ∘ MatchAssessment.identity)
          (assessments comparisons recording subjects recordingDateKind scope)).flatMap tie, scope := scopeOf scope } := by
  rw [assessCandidates, if_neg (Nat.not_lt_of_le few), List.take_of_length_le few]
  rfl

theorem map_identity : (assessments comparisons recording subjects recordingDateKind scope).map MatchAssessment.identity =
    subjects.map AssessedSubject.identity := by
  rw [assessments, List.map_map]
  rfl

theorem apart_keys (distinct : (subjects.map AssessedSubject.identity).Nodup) :
    ((assessments comparisons recording subjects recordingDateKind scope).map (identityKey ∘ MatchAssessment.identity)).Nodup := by
  rw [← List.map_map, map_identity]
  exact distinct.map identityKey_injective

theorem ranked_permutes :
    (((ranked evidenceKey (identityKey ∘ MatchAssessment.identity)
      (assessments comparisons recording subjects recordingDateKind scope)).flatMap tie).map MatchAssessment.untied).Perm
      (assessments comparisons recording subjects recordingDateKind scope) := by
  have untied : (assessments comparisons recording subjects recordingDateKind scope).map MatchAssessment.untied =
      assessments comparisons recording subjects recordingDateKind scope := by
    rw [assessments, List.map_map]
    rfl
  have same (groups : List (List (MatchAssessment Seconds))) :
      (groups.flatMap tie).map MatchAssessment.untied = groups.flatten.map MatchAssessment.untied := by
    rw [List.map_flatMap, List.map_flatten, List.flatMap_def]
    exact congrArg List.flatten (List.map_congr_left fun members _ => untied_tie members)
  rw [same]
  exact ((flatten_ranked).map _).trans (List.Perm.of_eq untied)

-- A result is the assessment of a subject, tied with the others of its key.
theorem mem_results (distinct : (subjects.map AssessedSubject.identity).Nodup) {result : MatchAssessment Seconds}
    (member : result ∈ (ranked evidenceKey (identityKey ∘ MatchAssessment.identity)
      (assessments comparisons recording subjects recordingDateKind scope)).flatMap tie) :
    result.tiedWith.Nodup ∧ ∀ identity, identity ∈ result.tiedWith ↔
      ∃ other ∈ assessments comparisons recording subjects recordingDateKind scope,
        other.identity ≠ result.identity ∧ evidenceKey other = evidenceKey result ∧ other.identity = identity := by
  obtain ⟨members, group, member⟩ := List.mem_flatMap.mp member
  obtain ⟨name, known⟩ := mem_ranked group
  obtain ⟨place, inside, rfl⟩ := mem_tie.mp member
  have apart : (members.map MatchAssessment.identity).Nodup := by
    have whole : ((assessments comparisons recording subjects recordingDateKind scope).map MatchAssessment.identity).Nodup :=
      map_identity ▸ distinct
    have perm : (ranked evidenceKey (identityKey ∘ MatchAssessment.identity)
        (assessments comparisons recording subjects recordingDateKind scope)).flatten.Perm
        (assessments comparisons recording subjects recordingDateKind scope) := flatten_ranked
    have flat := (perm.map MatchAssessment.identity).nodup_iff.mpr whole
    exact flat.sublist ((List.sublist_flatten_of_mem group).map _)
  have mine : evidenceKey members[place] = name := ((known _).mp (List.getElem_mem inside)).2
  constructor
  · exact apart.sublist ((List.eraseIdx_sublist _ _).map _)
  · intro identity
    rw [List.mem_map]
    constructor
    · rintro ⟨other, member', rfl⟩
      obtain ⟨inGroup, differs⟩ := (mem_others apart inside).mp member'
      obtain ⟨assessed, key⟩ := (known other).mp inGroup
      exact ⟨other, assessed, differs, key.trans mine.symm, rfl⟩
    · rintro ⟨other, assessed, differs, key, rfl⟩
      have inGroup : other ∈ members := (known other).mpr ⟨assessed, key.trans mine⟩
      exact ⟨other, (mem_others apart inside).mpr ⟨inGroup, differs⟩, rfl⟩

theorem exists_result {property : MatchAssessment Seconds → Prop}
    (blind : ∀ result : MatchAssessment Seconds, property result ↔ property result.untied) :
    (∃ other ∈ assessments comparisons recording subjects recordingDateKind scope, property other) ↔
      ∃ other ∈ (ranked evidenceKey (identityKey ∘ MatchAssessment.identity)
        (assessments comparisons recording subjects recordingDateKind scope)).flatMap tie, property other := by
  constructor
  · rintro ⟨other, assessed, holds⟩
    obtain ⟨result, member, rfl⟩ := List.mem_map.mp (ranked_permutes.mem_iff.mpr assessed)
    exact ⟨result, member, (blind result).mpr holds⟩
  · rintro ⟨result, member, holds⟩
    exact ⟨result.untied, ranked_permutes.mem_iff.mp (List.mem_map_of_mem member), (blind result).mp holds⟩

theorem results_ties (few : subjects.length ≤ maxSubjects) (distinct : (subjects.map AssessedSubject.identity).Nodup) :
    ∀ result ∈ (assessCandidates comparisons recording subjects recordingDateKind scope).ranked,
      result.tiedWith.Nodup ∧ ∀ identity, identity ∈ result.tiedWith ↔
        ∃ other ∈ (assessCandidates comparisons recording subjects recordingDateKind scope).ranked,
          other.identity ≠ result.identity ∧ evidenceKey other = evidenceKey result ∧ other.identity = identity := by
  rw [assessCandidates_few few]
  intro result member
  obtain ⟨once, tied⟩ := mem_results distinct member
  refine ⟨once, fun identity => (tied identity).trans ?_⟩
  exact exists_result fun _ => Iff.rfl

theorem results_ordered (few : subjects.length ≤ maxSubjects) (distinct : (subjects.map AssessedSubject.identity).Nodup)
    {others : List (AssessedSubject Seconds)} (perm : others.Perm subjects) :
    assessCandidates comparisons recording others recordingDateKind scope =
      assessCandidates comparisons recording subjects recordingDateKind scope := by
  rw [assessCandidates_few few, assessCandidates_few (perm.length_eq ▸ few)]
  have assessed : (assessments comparisons recording others recordingDateKind scope).Perm
      (assessments comparisons recording subjects recordingDateKind scope) := perm.map _
  have distinct' : (others.map AssessedSubject.identity).Nodup := (perm.map _).nodup_iff.mpr distinct
  rw [ranked_congr assessed (apart_keys distinct')]

-- Of two results, each is tied with the other or neither is.
theorem results_symmetric (few : subjects.length ≤ maxSubjects) (distinct : (subjects.map AssessedSubject.identity).Nodup)
    {result other : MatchAssessment Seconds}
    (member : result ∈ (assessCandidates comparisons recording subjects recordingDateKind scope).ranked)
    (member' : other ∈ (assessCandidates comparisons recording subjects recordingDateKind scope).ranked)
    (tied : result.identity ∈ other.tiedWith) : other.identity ∈ result.tiedWith := by
  have apart : ((assessCandidates comparisons recording subjects recordingDateKind scope).ranked.map MatchAssessment.identity).Nodup := by
    rw [assessCandidates_few few]
    have perm : (((ranked evidenceKey (identityKey ∘ MatchAssessment.identity)
        (assessments comparisons recording subjects recordingDateKind scope)).flatMap tie).map MatchAssessment.untied).Perm
        (assessments comparisons recording subjects recordingDateKind scope) := ranked_permutes
    have names := perm.map MatchAssessment.identity
    rw [List.map_map, map_identity] at names
    exact names.nodup_iff.mpr distinct
  obtain ⟨third, inside, differs, key, same⟩ := ((results_ties few distinct other member').2 _).mp tied
  obtain rfl : third = result := List.inj_on_of_nodup_map apart inside member same
  exact ((results_ties few distinct third member).2 _).mpr ⟨other, member', differs.symm, key.symm, rfl⟩

theorem subject_dated (subject : AssessedSubject Seconds) : Dated subject.date := by
  intro known
  cases same : subject.source with
  | snapshot held =>
    rw [AssessedSubject.date, same] at known ⊢
    exact held.dated known
  | candidate identity =>
    rw [AssessedSubject.date, same] at known
    cases known

theorem assessCandidates_sound_iff (comparisons : Comparisons Seconds) (recording : RecordingContext Seconds)
    (subjects : List (AssessedSubject Seconds)) (recordingDateKind : DateKind) (scope : Option Completeness)
    (few : subjects.length ≤ maxSubjects) (distinct : (subjects.map AssessedSubject.identity).Nodup) :
    Sound comparisons recording subjects recordingDateKind scope ↔
      ∀ subject ∈ subjects, Comparable recording.date subject.date recordingDateKind subject.dateKind := by
  constructor
  · intro sound subject member
    exact (dateSound_iff (subject_dated subject)).mp (sound.dates subject member)
  · intro comparable
    refine
      { permutes := ?_, ordered := fun others perm => results_ordered few distinct perm, ties := results_ties few distinct, symmetric := ?_, dates := ?_ }
    · rw [assessCandidates_few few]
      exact ranked_permutes
    · intro result member other member'
      exact ⟨results_symmetric few distinct member member', results_symmetric few distinct member' member⟩
    · intro subject member
      exact (dateSound_iff (subject_dated subject)).mpr (comparable subject member)

/-! ## Two dates of one day -/

-- The comparisons of ASCII texts that are alike or share nothing.
def plainComparisons : Comparisons Nat :=
  { nfc := id
    nfkd := id
    casefold := List.map fun point => match point with
      | .scalar char => .scalar char.toLower
      | .surrogate value => .surrogate value
    isAlnum := fun point => match point with
      | .scalar char => char.isAlphanum
      | .surrogate _ => false
    similar := fun left right => left = right
    difference := fun left right => (left - right) + (right - left) }

def performedOn (literal : String) : Fact := { value := some (str literal), certainty := .known }

def datedSet : AssessedSubject Nat :=
  { source := .snapshot
      { identity := { providerId := str "fake", nativeId := str "set-1" }, date := performedOn "2024-06-15",
        dated := fun _ => ⟨str "2024-06-15", rfl, by decide, by decide +kernel⟩ },
    dateKind := .performance }

def namedSet : AssessedSubject Nat := { source := .candidate { providerId := str "fake", nativeId := str "set-2" } }

theorem extended_dates_sound :
    Sound plainComparisons { recordingId := str "rec-1", date := performedOn "2024-06-15" } [datedSet, namedSet] .performance none := by
  refine (assessCandidates_sound_iff plainComparisons _ [datedSet, namedSet] .performance none (by decide) (by decide)).mpr ?_
  intro subject member known known' kind kind' left right written filled held
  obtain rfl | rfl : subject = datedSet ∨ subject = namedSet := by simpa using member
  · obtain rfl : str "2024-06-15" = left := Option.some.inj written
    obtain rfl : str "2024-06-15" = right := Option.some.inj held
    have extended : Extended (str "2024-06-15") := ⟨{ year := 2024, month := 6, day := 15, legal := by decide }, by decide +kernel⟩
    refine ⟨fun _ _ _ => ⟨extended, extended⟩, ?_⟩
    rintro date - ⟨⟨year, month, groups⟩, -⟩
    have whole : isoGroups (shown (str "2024-06-15")) = some (str "2024", some (str "06"), some (str "15")) := by decide +kernel
    rw [whole] at groups
    simp at groups
  · cases known'

theorem compact_date_is_missing :
    ¬ Sound plainComparisons { recordingId := str "rec-1", date := performedOn "20240615" } [datedSet] .performance none := by
  intro sound
  have dates := sound.dates datedSet (List.mem_singleton_self _)
  have exact_ := dates.agreed rfl rfl rfl rfl (str "20240615") (str "2024-06-15") 739052 rfl rfl (by decide +kernel) (by decide +kernel)
  have missing : (compareDate (performedOn "20240615") datedSet.date .performance datedSet.dateKind).relation = .missing := by decide +kernel
  rw [missing] at exact_
  cases exact_

end Phaze.Matching
