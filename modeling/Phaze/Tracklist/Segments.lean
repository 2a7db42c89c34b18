import Phaze.Shared.Rises
import Phaze.Tracklist.Domain
import Phaze.Tracklist.Midpoints

set_option autoImplicit false

/-!
# Track segments

`build_track_segments` of `services/track_segments.py`: consecutive offsets become half-open segments, and each
takes its measurements from the windows whose midpoint it contains. Times are exact rationals.
-/

namespace Phaze.Tracklist

open Phaze.Percent Phaze.Rises

/-! ## Aggregates -/

-- `round(value, digits)`: halves go to the even neighbour.
def roundTo (digits : Nat) (value : ℚ) : ℚ :=
  let scaled := value * 10 ^ digits
  let floor := scaled.floor
  let rest := scaled - floor
  (if rest < 1 / 2 then floor else if 1 / 2 < rest then floor + 1 else if floor % 2 = 0 then floor else floor + 1 : ℤ) / 10 ^ digits

-- `statistics.median`
def median (values : List ℚ) : Option ℚ :=
  let sorted := values.insertionSort (· ≤ ·)
  let half := sorted.length / 2
  if sorted.length % 2 = 1 then sorted[half]?
  else (sorted[half - 1]?).bind fun low => (sorted[half]?).map fun high => (low + high) / 2

def mean (values : List ℚ) : ℚ := values.sum / values.length

def medianBpm (windows : List AnalysisWindow) : Option ℚ :=
  let values := (windows.filterMap fun window => window.bpm.join).filter (0 < ·)
  if values = [] then none else (median values).map (roundTo 1)

def meanEnergy (windows : List AnalysisWindow) : Option ℚ :=
  let values := windows.filterMap fun window => window.energy.join
  if values = [] then none else some (roundTo 3 (mean values))

def moodNames : List String :=
  ["mood_acoustic", "mood_electronic", "mood_aggressive", "mood_relaxed", "mood_happy", "mood_sad", "mood_party"]

def moodValues (windows : List AnalysisWindow) (name : String) : List ℚ :=
  windows.filterMap fun window => (window.moodScores.bind fun scores => scores.lookup name).join

def argmaxMood (windows : List AnalysisWindow) : Option String :=
  let scored := moodNames.filter fun name => moodValues windows name ≠ []
  scored.find? fun name => scored.all fun other => mean (moodValues windows other) ≤ mean (moodValues windows name)

-- The seconds that a window adds to its code; the windows of a segment have both bounds.
def weight (window : AnalysisWindow) : ℚ :=
  match window.startSec, window.endSec with
  | some start, some stop => max 0 (stop - start)
  | _, _ => 0

def addWeight (code : String) (seconds : ℚ) : List (String × ℚ) → List (String × ℚ)
  | [] => [(code, 0 + seconds)]
  | (other, sum) :: rest => if other = code then (other, sum + seconds) :: rest else (other, sum) :: addWeight code seconds rest

-- Codes in the order of their first window, as the dict has them.
def weights (windows : List AnalysisWindow) : List (String × ℚ) :=
  windows.foldl (fun sums window => match window.camelot with
    | some code => if code = "" then sums else addWeight code (weight window) sums
    | none => sums) []

def modalCamelot (windows : List AnalysisWindow) : Option String :=
  ((weights windows).find? fun entry => (weights windows).all fun other => other.2 ≤ entry.2).map Prod.fst

/-! ## Boundaries -/

-- A scraped row with its evidence, where that validates as a timestamp, or a provider's track.
inductive Track where
  | legacy (position : Int) (title : Option Text) (timestamp : Option Text) (evidence : Option Timestamp)
  | provider (track : ProviderTrack)
deriving DecidableEq

def Track.position : Track → Int
  | .legacy position _ _ _ => position
  | .provider track => track.position

def Track.title : Track → Option Text
  | .legacy _ title _ _ => title
  | .provider track => track.title

def qualifiedOffset (timestamp : Timestamp) : Option RationalOffset :=
  if timestamp.kind = .offset ∧ timestamp.offsetUsability = .qualified then timestamp.offset else none

def qualifiedLegacyOffset (raw : Option Text) (evidence : Option Timestamp) (mediaId : Option Text) : Option ℚ :=
  match raw, evidence, mediaId with
  | some raw, some timestamp, some mediaId =>
      if timestamp.original ≠ raw ∨ timestamp.origin ≠ some (str "recording:" ++ mediaId) then none
      else (qualifiedOffset timestamp).bind fun offset =>
        if (toString offset.numerator).length > 4096 ∨ (toString offset.denominator).length > 4096 then none
        else some offset.asFraction
  | _, _, _ => none

def usableOffset (mediaId : Option Text) : Track → Option ℚ
  | .legacy _ _ timestamp evidence => qualifiedLegacyOffset timestamp evidence mediaId
  | .provider track => (track.timestamp.bind qualifiedOffset).map RationalOffset.asFraction

-- From here on the conversion to a float rounds past the largest one and raises.
def floatOverflow : ℚ := 2 ^ 1024 - 2 ^ 970

def timestamped (tracks : List Track) (mediaId : Option Text) : List (Int × ℚ) :=
  tracks.filterMap fun track => (usableOffset mediaId track).bind fun start =>
    if start < 0 ∨ floatOverflow ≤ start then none else some (track.position, start)

/-! ## Segments -/

structure TrackSegment where
  position : Int
  startSec : ℚ
  endSec : Option ℚ
  bpm : Option ℚ
  camelot : Option String
  mood : Option String
  energy : Option ℚ
  title : Option Text
deriving DecidableEq

-- `titles.get(position)`: the last track of a position gives its title.
def titleAt (tracks : List Track) (position : Int) : Option Text :=
  (tracks.reverse.find? fun track => track.position = position).bind Track.title

def endOf (start : ℚ) (closing : Option ℚ) : List (Int × ℚ) → Option ℚ
  | [] => closing
  | (_, next) :: _ => some (max start next)

def segmentsFrom (fine coarse : MidpointIndex) (titles : Int → Option Text) (closing : Option ℚ) :
    List (Int × ℚ) → List TrackSegment
  | [] => []
  | (position, start) :: rest =>
      let endSec := endOf start closing rest
      let inFine := fine.within start endSec
      let inCoarse := coarse.within start endSec
      { position, startSec := start, endSec, bpm := medianBpm inFine, camelot := modalCamelot inFine
        mood := argmaxMood inCoarse, energy := meanEnergy inCoarse, title := titles position } ::
        segmentsFrom fine coarse titles closing rest

-- A duration that is missing, not finite or not after the last start closes nothing.
def closingOf (durationSec : Option FloatValue) (bounds : List (Int × ℚ)) : Option ℚ :=
  durationSec.join.bind fun duration => bounds.getLast?.bind fun last => if duration > last.2 then some duration else none

def ofTier (tier : String) (windows : List AnalysisWindow) : List AnalysisWindow :=
  windows.filter fun window => window.tier = tier

def buildTrackSegments (tracks : List Track) (windows : List AnalysisWindow) (durationSec : Option FloatValue)
    (mediaId : Option Text) : List TrackSegment :=
  let bounds := timestamped tracks mediaId
  if bounds = [] then []
  else segmentsFrom (.build (ofTier "fine" windows)) (.build (ofTier "coarse" windows)) (titleAt tracks)
    (closingOf durationSec bounds) bounds

/-! ## What a segment is made of -/

def members (tier : String) (windows : List AnalysisWindow) (segment : TrackSegment) : List AnalysisWindow :=
  (ofTier tier windows).filter (inside segment.startSec segment.endSec)

structure Measured (windows : List AnalysisWindow) (segment : TrackSegment) : Prop where
  bpm : segment.bpm = medianBpm (members "fine" windows segment)
  camelot : segment.camelot = modalCamelot (members "fine" windows segment)
  mood : segment.mood = argmaxMood (members "coarse" windows segment)
  energy : segment.energy = meanEnergy (members "coarse" windows segment)

structure Indexed (tracks : List Track) (windows : List AnalysisWindow) (mediaId : Option Text)
    (segments : List TrackSegment) : Prop where
  tracked : segments.map (fun segment => (segment.position, segment.startSec)) = timestamped tracks mediaId
  forward : ∀ segment ∈ segments, ∀ stop, segment.endSec = some stop → segment.startSec ≤ stop
  measured : ∀ segment ∈ segments, Measured windows segment
  once : ∀ tier, tier = "fine" ∨ tier = "coarse" → (segments.flatMap (members tier windows)).Subperm (ofTier tier windows)

-- The starts in the order of the tracks, and the duration where it closes the last one.
def boundaries (tracks : List Track) (durationSec : Option FloatValue) (mediaId : Option Text) : List ℚ :=
  let bounds := timestamped tracks mediaId
  bounds.map Prod.snd ++ (closingOf durationSec bounds).toList

-- The boundaries pass over a time, come back to it or before it and pass over it again.
def Recrossed (boundaries : List ℚ) (time : ℚ) : Prop :=
  [true, false, true, false].Sublist (boundaries.map fun boundary => decide (boundary ≤ time))

variable {tracks : List Track} {windows : List AnalysisWindow} {durationSec : Option FloatValue} {mediaId : Option Text}

theorem segmentsFrom_tracked (fine coarse : MidpointIndex) (titles : Int → Option Text) (closing : Option ℚ)
    (bounds : List (Int × ℚ)) :
    (segmentsFrom fine coarse titles closing bounds).map (fun segment => (segment.position, segment.startSec)) = bounds := by
  induction bounds with
  | nil => rfl
  | cons bound rest ih => simp [segmentsFrom, ih]

theorem closingOf_after {bounds : List (Int × ℚ)} {duration : ℚ} (closes : closingOf durationSec bounds = some duration) :
    ∃ last, bounds.getLast? = some last ∧ last.2 < duration := by
  simp only [closingOf, Option.bind_eq_some_iff] at closes
  obtain ⟨given, -, last, found, chosen⟩ := closes
  split at chosen
  next after =>
    obtain rfl := Option.some.inj chosen
    exact ⟨last, found, after⟩
  next => cases chosen

theorem segmentsFrom_forward {fine coarse : MidpointIndex} {titles : Int → Option Text} {closing : Option ℚ}
    {bounds : List (Int × ℚ)} (after : ∀ duration, closing = some duration → ∀ last, bounds.getLast? = some last → last.2 < duration) :
    ∀ segment ∈ segmentsFrom fine coarse titles closing bounds, ∀ stop, segment.endSec = some stop → segment.startSec ≤ stop := by
  induction bounds with
  | nil =>
    intro segment member
    cases member
  | cons bound rest ih =>
    intro segment member stop ended
    obtain rfl | later := List.mem_cons.mp member
    · cases rest with
      | nil => exact le_of_lt (after stop ended bound rfl)
      | cons next others =>
        obtain rfl : max bound.2 next.2 = stop := Option.some.inj ended
        exact le_max_left _ _
    · apply ih _ segment later stop ended
      intro duration closes last found
      apply after duration closes last
      rw [List.getLast?_cons, found]
      rfl

theorem segmentsFrom_measured (windows : List AnalysisWindow) (titles : Int → Option Text) (closing : Option ℚ)
    (bounds : List (Int × ℚ)) :
    ∀ segment ∈ segmentsFrom (.build (ofTier "fine" windows)) (.build (ofTier "coarse" windows)) titles closing bounds,
      Measured windows segment := by
  induction bounds with
  | nil =>
    intro segment member
    cases member
  | cons bound rest ih =>
    intro segment member
    obtain rfl | later := List.mem_cons.mp member
    · constructor <;> simp only [members, within_build]
    · exact ih segment later

/-! ## How many segments take a window -/

theorem count_members (tier : String) (windows : List AnalysisWindow) (segments : List TrackSegment) (window : AnalysisWindow) :
    (segments.flatMap (members tier windows)).count window =
      segments.countP (fun segment => inside segment.startSec segment.endSec window) * (ofTier tier windows).count window := by
  induction segments with
  | nil => simp
  | cons segment rest ih =>
    rw [List.flatMap_cons, List.count_append, ih, List.countP_cons, Nat.add_mul]
    cases contained : inside segment.startSec segment.endSec window with
    | true =>
      rw [members, List.count_filter contained]
      simp [Nat.add_comm]
    | false =>
      have absent : (members tier windows segment).count window = 0 := by
        rw [List.count_eq_zero]
        intro member
        have holds := (List.mem_filter.mp member).2
        rw [contained] at holds
        cases holds
      simp [absent]

theorem countP_segmentsFrom {fine coarse : MidpointIndex} {titles : Int → Option Text} {window : AnalysisWindow} {centre : ℚ}
    (placed : midpoint window = some centre) (closing : Option ℚ) (bounds : List (Int × ℚ)) :
    (segmentsFrom fine coarse titles closing bounds).countP
        (fun segment => inside segment.startSec segment.endSec window) =
      rises ((bounds.map Prod.snd ++ closing.toList).map fun boundary => decide (boundary ≤ centre)) ∨ bounds = [] := by
  induction bounds with
  | nil => exact .inr rfl
  | cons bound rest ih =>
    left
    rw [segmentsFrom, List.countP_cons]
    cases rest with
    | nil =>
      cases closing with
      | none => simp [segmentsFrom, endOf, inside, placed, rises, risesFrom]
      | some duration => simp [segmentsFrom, endOf, inside, placed, rises, risesFrom]
    | cons next others =>
      obtain counted | empty := ih
      · rw [counted]
        simp only [List.map_cons, List.cons_append, rises_cons_cons]
        rw [Nat.add_comm]
        congr 1
        by_cases reached : bound.2 ≤ centre
        · have clamped : centre < max bound.2 next.2 ↔ centre < next.2 := by
            rw [lt_max_iff]
            exact or_iff_right (not_lt.mpr reached)
          simp only [inside, placed, endOf, Option.any_some, reached, clamped, decide_true, Bool.true_and]
          simp
        · simp [inside, placed, reached]
      · cases empty

theorem countP_buildTrackSegments (tracks : List Track) (windows : List AnalysisWindow) (durationSec : Option FloatValue)
    (mediaId : Option Text) {window : AnalysisWindow} {centre : ℚ} (placed : midpoint window = some centre) :
    (buildTrackSegments tracks windows durationSec mediaId).countP
        (fun segment => inside segment.startSec segment.endSec window) ≤ 1 ↔
      ¬ Recrossed (boundaries tracks durationSec mediaId) centre := by
  have twice : Recrossed (boundaries tracks durationSec mediaId) centre ↔
      2 ≤ rises ((boundaries tracks durationSec mediaId).map fun boundary => decide (boundary ≤ centre)) :=
    (le_rises_iff 2 _).symm
  rw [twice]
  simp only [buildTrackSegments, boundaries]
  split
  next none =>
    simp [none, closingOf, rises, risesFrom]
  next some =>
    obtain counted | empty := countP_segmentsFrom placed
      (closingOf durationSec (timestamped tracks mediaId)) (timestamped tracks mediaId)
    · rw [counted]
      omega
    · exact absurd empty some

-- No fine or coarse window is centred where the boundaries pass twice.
def NeverRecrossed (tracks : List Track) (windows : List AnalysisWindow) (durationSec : Option FloatValue)
    (mediaId : Option Text) : Prop :=
  ∀ window ∈ windows, window.tier = "fine" ∨ window.tier = "coarse" → ∀ centre, midpoint window = some centre →
    ¬ Recrossed (boundaries tracks durationSec mediaId) centre

theorem once_iff (tracks : List Track) (windows : List AnalysisWindow) (durationSec : Option FloatValue) (mediaId : Option Text) :
    (∀ tier, tier = "fine" ∨ tier = "coarse" →
      ((buildTrackSegments tracks windows durationSec mediaId).flatMap (members tier windows)).Subperm (ofTier tier windows)) ↔
      NeverRecrossed tracks windows durationSec mediaId := by
  constructor
  · intro once window member tiered centre placed
    apply (countP_buildTrackSegments tracks windows durationSec mediaId placed).mp
    have fewer := List.subperm_iff_count.mp (once window.tier tiered) window
    rw [count_members] at fewer
    have present : 0 < (ofTier window.tier windows).count window := by
      rw [List.count_pos_iff, ofTier, List.mem_filter]
      exact ⟨member, by simp⟩
    exact Nat.le_of_mul_le_mul_right (by omega) present
  · intro never tier tiered
    rw [List.subperm_iff_count]
    intro window
    rw [count_members]
    obtain absent | present := Nat.eq_zero_or_pos ((ofTier tier windows).count window)
    · simp [absent]
    · have found := List.mem_filter.mp (List.count_pos_iff.mp present)
      have same : window.tier = tier := by simpa using found.2
      cases placed : midpoint window with
      | none =>
        have nowhere : ∀ segment : TrackSegment, inside segment.startSec segment.endSec window = false := by
          intro segment
          simp [inside, placed]
        simp [nowhere]
      | some centre =>
        have straight := never window found.1 (same ▸ tiered) centre placed
        have atMost := (countP_buildTrackSegments tracks windows durationSec mediaId placed).mpr straight
        calc (buildTrackSegments tracks windows durationSec mediaId).countP
              (fun segment => inside segment.startSec segment.endSec window) * (ofTier tier windows).count window
          _ ≤ 1 * (ofTier tier windows).count window := Nat.mul_le_mul_right _ atMost
          _ = (ofTier tier windows).count window := Nat.one_mul _

/-- The segments keep to the three rules exactly when the boundaries pass over no midpoint twice. -/
theorem segments_indexed_iff (tracks : List Track) (windows : List AnalysisWindow) (durationSec : Option FloatValue)
    (mediaId : Option Text) :
    Indexed tracks windows mediaId (buildTrackSegments tracks windows durationSec mediaId) ↔
      NeverRecrossed tracks windows durationSec mediaId := by
  constructor
  · intro indexed
    exact (once_iff tracks windows durationSec mediaId).mp indexed.once
  · intro never
    refine ⟨?_, ?_, ?_, (once_iff tracks windows durationSec mediaId).mpr never⟩
    · rw [buildTrackSegments]
      split
      next none => simp [none]
      next => exact segmentsFrom_tracked _ _ _ _ _
    · rw [buildTrackSegments]
      split
      next => simp
      next =>
        apply segmentsFrom_forward
        intro duration closes last found
        obtain ⟨other, same, after⟩ := closingOf_after closes
        obtain rfl : other = last := Option.some.inj (same.symm.trans found)
        exact after
    · rw [buildTrackSegments]
      split
      next => simp
      next => exact segmentsFrom_measured windows _ _ _

/-! ## A window of two tracks -/

def startsAt (position : Int) (seconds : Nat) : Track :=
  .provider
    { position
      timestamp := some
        { original := [], kind := .offset, precision := .second, origin := some (str "f")
          offset := some { numerator := seconds, denominator := 1, positive := by decide }
          offsetUsability := .qualified, evidence := [str "e"] } }

theorem timestamped_startsAt (position : Int) {seconds : Nat} (rest : List Track) (few : (seconds : ℚ) < floatOverflow) :
    timestamped (startsAt position seconds :: rest) none = (position, (seconds : ℚ)) :: timestamped rest none := by
  have starts : usableOffset none (startsAt position seconds) = some (seconds : ℚ) := by
    simp [usableOffset, startsAt, qualifiedOffset, RationalOffset.asFraction]
  have kept : ¬ ((seconds : ℚ) < 0 ∨ floatOverflow ≤ seconds) := not_or.mpr ⟨not_lt.mpr (Nat.cast_nonneg seconds), not_le.mpr few⟩
  simp only [timestamped, List.filterMap_cons, starts, Option.bind_some, if_neg kept]
  rfl

def backwards : List Track := [startsAt 1 10, startsAt 2 100, startsAt 3 50, startsAt 4 200]

def fineWindow : AnalysisWindow where
  tier := "fine"
  startSec := some 55
  endSec := some 65
  bpm := some (some 120)
  camelot := none
  energy := none
  moodScores := none

/-- The first and the third track both take the window at one minute. -/
theorem window_counts_twice : ¬ ∀ (tracks : List Track) (windows : List AnalysisWindow) (durationSec : Option FloatValue)
    (mediaId : Option Text), Indexed tracks windows mediaId (buildTrackSegments tracks windows durationSec mediaId) := by
  intro always
  have never := (once_iff backwards [fineWindow] none none).mp (always _ _ _ _).once
  have centred : midpoint fineWindow = some 60 := by norm_num [midpoint, fineWindow]
  apply never fineWindow (List.mem_singleton.mpr rfl) (.inl rfl) 60 centred
  have starts : boundaries backwards none none = [10, 100, 50, 200] := by
    have few : (200 : ℚ) < floatOverflow := by
      have halves : (2 : ℚ) ^ 1024 = 2 ^ 970 * 2 ^ 54 := by rw [← pow_add]
      have least : (1 : ℚ) ≤ 2 ^ 970 := one_le_pow₀ (by norm_num)
      rw [floatOverflow, halves]
      generalize (2 : ℚ) ^ 970 = half at least
      linarith
    have starts (position : Int) (seconds : Nat) (rest : List Track) (early : seconds ≤ 200) :=
      timestamped_startsAt position rest (lt_of_le_of_lt (Nat.cast_le.mpr early) few)
    rw [boundaries, backwards, starts 1 10 _ (by decide), starts 2 100 _ (by decide), starts 3 50 _ (by decide), starts 4 200 _ (by decide)]
    simp [timestamped, closingOf]
  rw [Recrossed, starts]
  norm_num

end Phaze.Tracklist
