import Phaze.Tracklist.LocalSource

set_option autoImplicit false

/-!
# What the checks of a snapshot ask

When the values that an interpreter builds pass their own checks.
-/

namespace Phaze.Tracklist

open Phaze.Guards Phaze.Percent Phaze.Unicode

/-! ## Texts -/

def Plain (text : Text) : Prop := ∀ point ∈ text, CodePoint.isScalar point = true

theorem fits_iff {limit : Nat} {text : Text} : fits limit text = true ↔ text.length ≤ limit ∧ Plain text := by
  simp [fits, Plain]

theorem Plain.append {text other : Text} (left : Plain text) (right : Plain other) : Plain (text ++ other) := by
  intro point member
  obtain first | second := List.mem_append.mp member
  · exact left point first
  · exact right point second

theorem Plain.part {text other : Text} (plain : Plain text) (part : ∀ point ∈ other, point ∈ text) : Plain other :=
  fun point member => plain point (part point member)

theorem plain_scalars (chars : List Char) : Plain (chars.map .scalar) := by
  intro point member
  obtain ⟨char, -, rfl⟩ := List.mem_map.mp member
  rfl

theorem plain_str (literal : String) : Plain (str literal) := plain_scalars literal.toList

theorem plain_digits (number : Nat) : Plain (digits number) := plain_scalars _

theorem plain_lineTag (line : Nat) : Plain (lineTag line) := (plain_str "line:").append (plain_digits line)

theorem Plain.take {text : Text} (plain : Plain text) (limit : Nat) : Plain (text.take limit) :=
  plain.part fun _ => List.mem_of_mem_take

def AllPlain (texts : List Text) : Prop := ∀ text ∈ texts, Plain text

theorem AllPlain.append {texts others : List Text} (left : AllPlain texts) (right : AllPlain others) : AllPlain (texts ++ others) := by
  intro text member
  obtain first | second := List.mem_append.mp member
  · exact left text first
  · exact right text second

theorem allPlain_nil : AllPlain [] := fun _ member => absurd member List.not_mem_nil

theorem Plain.single {text : Text} (plain : Plain text) : AllPlain [text] :=
  fun _ member => List.mem_singleton.mp member ▸ plain

theorem AllPlain.part {texts others : List Text} (plain : AllPlain texts) (part : ∀ text ∈ others, text ∈ texts) :
    AllPlain others := fun text member => plain text (part text member)

theorem evidenceFits_iff {evidence : List Text} :
    evidenceFits evidence = true ↔ evidence.length ≤ 64 ∧ ∀ text ∈ evidence, fits 4096 text = true := by
  simp [evidenceFits]

theorem boundedEvidence_fits {values : List Text} (plain : AllPlain values) : evidenceFits (boundedEvidence values) = true := by
  rw [evidenceFits_iff]
  constructor
  · rw [boundedEvidence, List.length_map]
    exact List.length_take_le 64 values
  · intro text member
    obtain ⟨value, inside, rfl⟩ := List.mem_map.mp member
    exact fits_iff.mpr ⟨List.length_take_le 4096 value, (plain value (List.mem_of_mem_take inside)).take 4096⟩

theorem evidence_plain {evidence : List Text} (fit : evidenceFits evidence = true) : AllPlain evidence :=
  fun text member => (fits_iff.mp ((evidenceFits_iff.mp fit).2 text member)).2

/-! ## Order -/

theorem uniqueOrdered_iff {values : List Int} : uniqueOrdered values = true ↔ values.Pairwise (· < ·) := by
  rw [uniqueOrdered, decide_eq_true_eq]
  constructor
  · intro same
    have sorted : values.Pairwise (· ≤ ·) := same ▸ List.pairwise_insertionSort (· ≤ ·) values.dedup
    have distinct : values.Nodup := same ▸ (List.perm_insertionSort (· ≤ ·) values.dedup).nodup_iff.mpr (List.nodup_dedup values)
    exact (sorted.and distinct).imp fun both => lt_of_le_of_ne both.1 both.2
  · intro rising
    have distinct : values.Nodup := rising.imp fun less => ne_of_lt less
    rw [distinct.dedup]
    exact (rising.imp fun less => le_of_lt less).insertionSort_eq

-- Qualified offsets of one origin do not go back.
def OffsetsOrdered (track other : ProviderTrack) : Prop :=
  ∀ origin offset later, qualifiedOrigin origin track = some offset → qualifiedOrigin origin other = some later → offset ≤ later

theorem offsetsOrdered_of {tracks : List ProviderTrack} (ordered : tracks.Pairwise OffsetsOrdered) : offsetsOrdered tracks = true := by
  rw [offsetsOrdered, List.all_eq_true]
  intro origin _
  rw [decide_eq_true_eq]
  apply List.Pairwise.insertionSort_eq
  rw [List.pairwise_filterMap]
  exact ordered.imp fun both offset first later second => both origin offset later first second

/-! ## Values -/

theorem Timestamp.validate_ok {timestamp : Timestamp} :
    timestamp.validate = .ok () ↔ timestamp.fieldsFit = true ∧ timestamp.validateQualification = .ok () := by
  rw [Timestamp.validate, bind_require]

theorem ProviderTrack.validate_ok {track : ProviderTrack} :
    track.validate = .ok () ↔
      track.fieldsFit = true ∧ ∀ timestamp, track.timestamp = some timestamp → timestamp.validate = .ok () := by
  rw [ProviderTrack.validate, bind_require]
  cases track.timestamp with
  | none => simp
  | some timestamp => simp

theorem forM_ok {Value : Type} {check : Value → Except String Unit} {values : List Value}
    (each : ∀ value ∈ values, check value = .ok ()) : values.forM check = .ok () := by
  induction values with
  | nil => rfl
  | cons value rest ih =>
    have later := ih fun other member => each other (List.mem_cons_of_mem _ member)
    rw [List.forM, each value List.mem_cons_self]
    exact later

-- Sections of which every track names one, in order.
structure Housed (sections : List TrackSection) (ordinals : List (Option Nat)) : Prop where
  rising : (sections.map TrackSection.ordinal).Pairwise (· < ·)
  named : ∀ ordinal, some ordinal ∈ ordinals → ordinal ∈ sections.map TrackSection.ordinal
  each : sections ≠ [] → none ∉ ordinals

theorem Snapshot.validate_ok {snapshot : Snapshot} (fields : snapshot.fieldsFit = true)
    (artist : snapshot.artist.requireKnownValue = .ok ()) (tracks : ∀ track ∈ snapshot.tracks, track.validate = .ok ())
    (positions : (snapshot.tracks.map ProviderTrack.position).Pairwise (· < ·))
    (housed : Housed snapshot.sections (snapshot.tracks.map ProviderTrack.sectionOrdinal))
    (offsets : snapshot.tracks.Pairwise OffsetsOrdered) (size : snapshot.dumpLength ≤ 4 * 1024 * 1024) :
    snapshot.validate = .ok () := by
  have ordinals : uniqueOrdered ((snapshot.sections.map TrackSection.ordinal).map Int.ofNat) = true := by
    rw [uniqueOrdered_iff, List.pairwise_map]
    exact housed.rising.imp fun less => Int.ofNat_lt.mpr less
  have named : (snapshot.tracks.all fun track => track.sectionOrdinal.all fun ordinal =>
      decide (ordinal ∈ snapshot.sections.map TrackSection.ordinal)) = true := by
    rw [List.all_eq_true]
    intro track member
    cases same : track.sectionOrdinal with
    | none => rfl
    | some ordinal =>
      have present := housed.named ordinal (List.mem_map.mpr ⟨track, member, same⟩)
      simpa using present
  have each : (snapshot.sections = [] || snapshot.tracks.all fun track => track.sectionOrdinal.isSome) = true := by
    rw [Bool.or_eq_true, decide_eq_true_eq, List.all_eq_true]
    by_cases empty : snapshot.sections = []
    · exact .inl empty
    · refine .inr fun track member => ?_
      cases same : track.sectionOrdinal with
      | none => exact absurd (List.mem_map.mpr ⟨track, member, same⟩) (housed.each empty)
      | some ordinal => rfl
  rw [Snapshot.validate, bind_require, bind_ok]
  refine ⟨fields, (), artist, ?_⟩
  rw [bind_ok]
  refine ⟨(), forM_ok tracks, ?_⟩
  simp only [Snapshot.validateTracks, bind_require, require_ok]
  exact ⟨uniqueOrdered_iff.mpr positions, ordinals, named, each, offsetsOrdered_of offsets, decide_eq_true size⟩

end Phaze.Tracklist
