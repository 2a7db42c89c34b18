import Phaze.Registry.Invocations
import Phaze.Tracklist.Outcomes

set_option autoImplicit false

/-!
# Cut snapshots

A snapshot that passes its checks still passes them when it is cut at a number of tracks.
-/

namespace Phaze.Registry

open Phaze.Guards Phaze.Json Phaze.Percent Phaze.Tracklist

/-! ## Sizes -/

theorem listLength_append (values others : List Value) : listLength values + listLength others ≤ listLength (values ++ others) := by
  induction values with
  | nil => simp [listLength]
  | cons value rest ih =>
    rw [List.cons_append, listLength_cons, listLength_cons]
    by_cases last : rest = []
    · simp only [last, if_true, List.nil_append, listLength]
      split <;> omega
    · have more : ¬ rest ++ others = [] := fun empty => last (List.append_eq_nil_iff.mp empty).1
      rw [if_neg last, if_neg more]
      omega

-- The names of its fields alone.
theorem track_length (track : ProviderTrack) : 11 ≤ track.json.length := by
  simp only [ProviderTrack.json, length_record, recordLength_cons]
  have names : "position".length = 8 ∧ "section_ordinal".length = 15 := ⟨rfl, rfl⟩
  omega

theorem cut_tracks {snapshot : Snapshot} {maxTracks : Nat} (longer : maxTracks < snapshot.tracks.length) :
    listLength ((snapshot.tracks.take maxTracks).map ProviderTrack.json) + 11 ≤ listLength (snapshot.tracks.map ProviderTrack.json) := by
  have split := listLength_append ((snapshot.tracks.take maxTracks).map ProviderTrack.json)
    ((snapshot.tracks.drop maxTracks).map ProviderTrack.json)
  rw [← List.map_append, List.take_append_drop] at split
  cases rest : snapshot.tracks.drop maxTracks with
  | nil => exact absurd (List.drop_eq_nil_iff.mp rest) (Nat.not_le_of_lt longer)
  | cons track later =>
    have long := track_length track
    rw [rest, List.map_cons, listLength_cons] at split
    omega

theorem cut_completeness (completeness : Completeness) :
    (Completeness.json { state := .incomplete, reason := str "track_cap" }).length ≤ completeness.json.length + 11 := by
  have reason : textLength (str "track_cap") = 11 := rfl
  have state : textLength (str completeness.state.value) ≥ 10 := by
    cases completeness.state with
    | complete => exact Nat.le_of_eq rfl
    | incomplete => exact Nat.le_of_ble_eq_true rfl
  have incomplete : textLength (str CompletenessState.incomplete.value) = 12 := rfl
  have least : 2 ≤ textLength completeness.reason := Nat.le_add_left 2 _
  simp only [Completeness.json, length_record, recordLength, Value.length, texts, List.map_nil, listLength, reason, incomplete]
  omega

theorem dumpLength_update (snapshot : Snapshot) (tracks : List ProviderTrack) (completeness : Completeness) :
    ({ snapshot with tracks, completeness } : Snapshot).dumpLength + listLength (snapshot.tracks.map ProviderTrack.json) +
        snapshot.completeness.json.length =
      snapshot.dumpLength + listLength (tracks.map ProviderTrack.json) + completeness.json.length := by
  simp only [Snapshot.dumpLength, Snapshot.json, length_record, recordLength_cons, Value.length]
  omega

theorem cut_dumpLength {snapshot : Snapshot} {maxTracks : Nat} (longer : maxTracks < snapshot.tracks.length) :
    (cutAt maxTracks snapshot).dumpLength ≤ snapshot.dumpLength := by
  have tracks := cut_tracks longer
  have completeness := cut_completeness snapshot.completeness
  have update := dumpLength_update snapshot (snapshot.tracks.take maxTracks) { state := .incomplete, reason := str "track_cap" }
  rw [cutAt]
  omega

/-! ## Checks -/

theorem of_forM_ok {Checked : Type} {check : Checked → Except String Unit} {values : List Checked} (ok : values.forM check = .ok ()) :
    ∀ value ∈ values, check value = .ok () := by
  induction values with
  | nil => exact fun _ member => absurd member List.not_mem_nil
  | cons value rest ih =>
    rw [List.forM_eq_forM, List.forM_cons, bind_ok] at ok
    obtain ⟨⟨⟩, first, later⟩ := ok
    exact List.forall_mem_cons.mpr ⟨first, ih later⟩

theorem uniqueOrdered_take {values : List Int} (ordered : uniqueOrdered values = true) (count : Nat) :
    uniqueOrdered (values.take count) = true := by
  rw [uniqueOrdered_iff] at ordered ⊢
  exact ordered.sublist (List.take_sublist count values)

theorem offsetsOrdered_take {tracks : List ProviderTrack} (ordered : offsetsOrdered tracks = true) (count : Nat) :
    offsetsOrdered (tracks.take count) = true := by
  rw [offsetsOrdered, List.all_eq_true] at ordered ⊢
  intro origin member
  have part : (tracks.take count).Sublist tracks := List.take_sublist count tracks
  have whole := ordered origin ((part.filterMap _).subset member)
  rw [decide_eq_true_eq] at whole ⊢
  have sorted : (tracks.filterMap (qualifiedOrigin origin)).Pairwise (· ≤ ·) := whole ▸ List.pairwise_insertionSort (· ≤ ·) _
  exact (sorted.sublist (part.filterMap _)).insertionSort_eq

theorem all_take {Checked : Type} {check : Checked → Bool} {values : List Checked} (all : values.all check = true) (count : Nat) :
    (values.take count).all check = true := by
  rw [List.all_eq_true] at all ⊢
  exact fun value member => all value (List.mem_of_mem_take member)

theorem cut_validateTracks {snapshot : Snapshot} {maxTracks : Nat} (longer : maxTracks < snapshot.tracks.length)
    (valid : snapshot.validateTracks = .ok ()) : (cutAt maxTracks snapshot).validateTracks = .ok () := by
  simp only [Snapshot.validateTracks, bind_require, require_ok] at valid ⊢
  obtain ⟨positions, ordinals, named, each, offsets, size⟩ := valid
  refine ⟨?_, ordinals, all_take named maxTracks, ?_, offsetsOrdered_take offsets maxTracks, ?_⟩
  · rw [cutAt, List.map_take]
    exact uniqueOrdered_take positions maxTracks
  · rw [Bool.or_eq_true] at each ⊢
    exact each.imp id fun housed => all_take housed maxTracks
  · rw [decide_eq_true_eq] at size ⊢
    exact Nat.le_trans (cut_dumpLength longer) size

theorem cut_fieldsFit {snapshot : Snapshot} {maxTracks : Nat} (fits : snapshot.fieldsFit = true) :
    (cutAt maxTracks snapshot).fieldsFit = true := by
  have reason : Completeness.fieldsFit { state := .incomplete, reason := str "track_cap" } = true := rfl
  have fewer : snapshot.tracks.length ≤ 4096 → (snapshot.tracks.take maxTracks).length ≤ 4096 :=
    Nat.le_trans (List.length_take_le' maxTracks snapshot.tracks)
  unfold Snapshot.fieldsFit at fits ⊢
  simp only [Bool.and_eq_true, decide_eq_true_eq] at fits ⊢
  simp only [cutAt, reason, and_true]
  tauto

theorem cut_validate {snapshot : Snapshot} {maxTracks : Nat} (longer : maxTracks < snapshot.tracks.length)
    (valid : snapshot.validate = .ok ()) : (cutAt maxTracks snapshot).validate = .ok () := by
  rw [Snapshot.validate, bind_require, bind_ok] at valid ⊢
  obtain ⟨fields, done, artist, rest⟩ := valid
  rw [bind_ok] at rest ⊢
  obtain ⟨⟨⟩, tracks, later⟩ := rest
  have kept : (snapshot.tracks.take maxTracks).forM ProviderTrack.validate = .ok () :=
    forM_ok fun track member => of_forM_ok tracks track (List.mem_of_mem_take member)
  exact ⟨cut_fieldsFit fields, done, artist, (), kept, cut_validateTracks longer later⟩

end Phaze.Registry
