import Phaze.Tracklist.Checks

set_option autoImplicit false

/-!
# Rows that pass their checks

What a line-driven parse keeps of its rows, its errors and its evidence, whatever the lines are.
-/

namespace Phaze.Tracklist

open Phaze.Guards Phaze.Percent Phaze.Unicode

/-! ## Parts of a text -/

theorem Plain.sublist {part text : Text} (plain : Plain text) (sub : part.Sublist text) : Plain part :=
  plain.part fun _ member => sub.subset member

theorem fits_sublist {limit : Nat} {part text : Text} (fit : fits limit text = true) (sub : part.Sublist text) :
    fits limit part = true := by
  have both := fits_iff.mp fit
  exact fits_iff.mpr ⟨sub.length_le.trans both.1, both.2.sublist sub⟩

theorem lstrip_sublist (text : Text) : (lstrip text).Sublist text := List.dropWhile_sublist _

theorem reverse_dropWhile_sublist (drops : CodePoint → Bool) (text : Text) : ((text.reverse.dropWhile drops).reverse).Sublist text := by
  have sub : (text.reverse.dropWhile drops).reverse.Sublist text.reverse.reverse := (List.dropWhile_sublist _).reverse
  rwa [List.reverse_reverse] at sub

theorem rstrip_sublist (text : Text) : (rstrip text).Sublist text := reverse_dropWhile_sublist isSpace text

theorem strip_sublist (text : Text) : (strip text).Sublist text := (rstrip_sublist _).trans (lstrip_sublist text)

theorem mem_splitOnP_sublist {splits : CodePoint → Bool} {text piece : Text} (member : piece ∈ text.splitOnP splits) :
    piece.Sublist text := by
  induction text generalizing piece with
  | nil =>
    rw [List.splitOnP_nil] at member
    exact List.mem_singleton.mp member ▸ List.Sublist.refl _
  | cons point rest ih =>
    rw [List.splitOnP_cons_eq_if_modifyHead] at member
    split at member
    · obtain rfl | later := List.mem_cons.mp member
      · exact List.nil_sublist _
      · exact (ih later).cons point
    · obtain ⟨first, others, same⟩ := List.exists_cons_of_ne_nil (List.splitOnP_ne_nil splits rest)
      rw [same, List.modifyHead_cons] at member
      obtain rfl | later := List.mem_cons.mp member
      · exact (ih (same ▸ List.mem_cons_self)).cons_cons point
      · exact (ih (same ▸ List.mem_cons_of_mem _ later)).cons point

theorem mem_words_sublist {text word : Text} (member : word ∈ words text) : word.Sublist text :=
  mem_splitOnP_sublist (List.mem_of_mem_filter member)

theorem lastWord_sublist (text : Text) : (lastWord text).Sublist text := by
  rw [lastWord]
  cases last : (words text).getLast? with
  | none => exact List.nil_sublist _
  | some word => exact mem_words_sublist (List.mem_of_getLast? last)

theorem known_fits {limit : Nat} {value : Text} (fit : fits limit value = true) : (known (some value)).all (fits limit) = true := by
  rw [known, Option.bind_some]
  split
  · rfl
  · split
    · rfl
    · exact fits_sublist fit (strip_sublist value)

theorem length_digits_le {number : Nat} (small : number < 10 ^ 5) : (digits number).length ≤ 5 := by
  rw [digits, List.length_map]
  exact (Nat.length_toDigits_le_iff (by decide) (by omega)).mpr small

theorem plain_errorText {line : Nat} {reason : Text} (plain : Plain reason) : Plain (errorText line reason) :=
  ((plain_lineTag line).append (plain_str ":")).append plain

/-! ## Rows -/

structure Row.Sound (row : Row) : Prop where
  line : row.line < 10 ^ 5
  position : 0 < row.position
  artist : row.artist.all (fits 4096) = true
  title : row.title.all (fits 4096) = true
  label : row.label.all (fits 4096) = true
  remix : row.remix.all (fits 4096) = true
  timestamp : ∀ timestamp, row.timestamp = some timestamp → timestamp.validate = .ok ()
  ordinal : row.sectionOrdinal.all (fun ordinal => 0 < ordinal && ordinal ≤ 4096) = true
  evidence : AllPlain row.evidence

theorem Row.Sound.track {row : Row} (sound : row.Sound) : (trackOf row).validate = .ok () := by
  rw [ProviderTrack.validate_ok]
  refine ⟨?_, sound.timestamp⟩
  have timestamp : row.timestamp.all Timestamp.fieldsFit = true := by
    cases same : row.timestamp with
    | none => rfl
    | some timestamp => exact (Timestamp.validate_ok.mp (sound.timestamp timestamp same)).1
  have position : (0 : Int) < row.position := Int.natCast_pos.mpr sound.position
  simp only [ProviderTrack.fieldsFit, trackOf, Bool.and_eq_true]
  exact ⟨⟨⟨⟨⟨⟨⟨decide_eq_true position, sound.ordinal⟩, sound.artist⟩, sound.title⟩, timestamp⟩, sound.label⟩, sound.remix⟩,
    boundedEvidence_fits sound.evidence⟩

theorem Row.Sound.note {row : Row} {evidence : Text} (sound : row.Sound) (plain : Plain evidence) : (row.note evidence).Sound :=
  { sound with evidence := sound.evidence.append plain.single }

def Row.Before (row other : Row) : Prop := row.position < other.position ∧ OffsetsOrdered (trackOf row) (trackOf other)

/-! ## A parse under way -/

structure Parse.Kept (budget : LoadBudget) (parse : Parse) : Prop where
  rows : ∀ row ∈ parse.rows, row.Sound
  rising : parse.rows.Pairwise Row.Before
  few : parse.rows.length ≤ budget.maxTracks
  errors : AllPlain parse.errors
  warnings : AllPlain parse.warnings
  evidence : AllPlain parse.evidence
  artist : parse.artist.all (fits 4096) = true
  artistEvidence : AllPlain parse.artistEvidence
  -- No rejection goes unnoticed as a whole.
  noticed : parse.errors = [] ↔ parse.rejected = []
  recorded : parse.rejected.length ≤ 64 → parse.errors = parse.rejected.map fun entry => errorText entry.1 entry.2

variable {budget : LoadBudget} {parse : Parse}

theorem Parse.Kept.initial : Parse.Kept budget {} :=
  { rows := fun _ member => absurd member List.not_mem_nil
    rising := .nil
    few := Nat.zero_le _
    errors := allPlain_nil
    warnings := allPlain_nil
    evidence := allPlain_nil
    artist := rfl
    artistEvidence := allPlain_nil
    noticed := ⟨fun _ => rfl, fun _ => rfl⟩
    recorded := fun _ => rfl }

theorem reject_errors_plain {line : Nat} {reason : Text} (errors : AllPlain parse.errors) (plain : Plain reason) :
    AllPlain (parse.reject line reason).errors := by
  have added : AllPlain [errorText line reason] := (plain_errorText plain).single
  rw [Parse.reject]
  split
  · exact errors.append added
  · split
    · exact (errors.part fun _ => List.mem_of_mem_dropLast).append added
    · exact errors

theorem reject_errors_ne_nil (parse : Parse) (line : Nat) (reason : Text) : (parse.reject line reason).errors ≠ [] := by
  rw [Parse.reject]
  split
  · simp
  next full =>
    split
    · simp
    · intro empty
      rw [empty] at full
      exact full (by decide)

@[simp]
theorem reject_rejected (parse : Parse) (line : Nat) (reason : Text) :
    (parse.reject line reason).rejected = parse.rejected ++ [(line, reason)] := rfl

theorem Parse.Kept.reject {line : Nat} {reason : Text} (kept : parse.Kept budget) (plain : Plain reason) :
    (parse.reject line reason).Kept budget := by
  have recorded : (parse.reject line reason).rejected ≠ [] := by simp
  exact
    { kept with
      errors := reject_errors_plain kept.errors plain
      noticed := ⟨fun empty => absurd empty (reject_errors_ne_nil parse line reason), fun empty => absurd empty recorded⟩
      recorded := by
        intro few
        rw [reject_rejected, List.length_append, List.length_singleton] at few
        have before := kept.recorded (by omega)
        have room : parse.errors.length < 64 := by
          rw [before, List.length_map]
          omega
        rw [reject_rejected, List.map_append, ← before, Parse.reject]
        exact if_pos room }

theorem last_position {row : Row} {before : List Row} (rows : parse.rows = before ++ [row]) : lastPosition parse = row.position := by
  rw [lastPosition, rows, List.getLast?_concat]
  rfl

theorem position_le_last (rising : parse.rows.Pairwise Row.Before) : ∀ row ∈ parse.rows, row.position ≤ lastPosition parse := by
  intro row member
  obtain empty | ⟨before, last, rows⟩ := parse.rows.eq_nil_or_concat
  · rw [empty] at member
    cases member
  · rw [List.concat_eq_append] at rows
    rw [last_position rows]
    rw [rows] at member rising
    obtain earlier | final := List.mem_append.mp member
    · exact ((List.pairwise_append.mp rising).2.2 row earlier last (List.mem_singleton_self last)).1.le
    · rw [List.mem_singleton.mp final]

theorem OffsetsOrdered.untimed {row other : Row} (untimed : other.timestamp = none) : OffsetsOrdered (trackOf row) (trackOf other) := by
  intro origin offset later _ second
  have none : qualifiedOrigin origin (trackOf other) = none := by
    rw [qualifiedOrigin]
    show other.timestamp.bind _ = _
    rw [untimed]
    rfl
  rw [none] at second
  cases second

-- The row that `add` puts at the end.
def addedRow (parse : Parse) (number line position : Nat) : Row :=
  { number, line, position := if position ≤ lastPosition parse then lastPosition parse + 1 else position
    evidence := [lineTag line, str "declared_position:" ++ digits number] }

theorem add_full (number line position : Nat) (full : budget.maxTracks ≤ parse.rows.length) :
    parse.add number line budget position = (parse.reject line (str "track_cap"), false) := if_pos full

theorem add_rows (number line position : Nat) (room : parse.rows.length < budget.maxTracks) :
    (parse.add number line budget position).2 = true ∧
      (parse.add number line budget position).1.rows = parse.rows ++ [addedRow parse number line position] := by
  rw [Parse.add, if_neg (Nat.not_le_of_lt room)]
  by_cases taken : position ≤ lastPosition parse
  · simp [taken, addedRow, Parse.reject]
  · simp [taken, addedRow]

theorem addedRow_sound (parse : Parse) (number position : Nat) {line : Nat} (small : line < 10 ^ 5) :
    (addedRow parse number line position).Sound := by
  constructor
  case line => exact small
  case position =>
    rw [addedRow]
    split
    · exact Nat.succ_pos _
    next above => exact Nat.lt_of_le_of_lt (Nat.zero_le _) (Nat.lt_of_not_le above)
  case evidence => exact (plain_lineTag line).single.append ((plain_str "declared_position:").append (plain_digits number)).single
  case timestamp =>
    intro timestamp same
    cases same
  all_goals rfl

theorem addedRow_after (rising : parse.rows.Pairwise Row.Before) (number line position : Nat) :
    ∀ row ∈ parse.rows, row.Before (addedRow parse number line position) := by
  intro row member
  have below := position_le_last rising row member
  constructor
  · rw [addedRow]
    split
    · exact Nat.lt_succ_of_le below
    next above => exact Nat.lt_of_le_of_lt below (Nat.lt_of_not_le above)
  · exact OffsetsOrdered.untimed rfl

theorem Parse.Kept.add {number line position : Nat} (kept : parse.Kept budget) (small : line < 10 ^ 5) :
    (parse.add number line budget position).1.Kept budget := by
  by_cases room : parse.rows.length < budget.maxTracks
  · have added := (add_rows number line position room).2
    have rejected : (if position ≤ lastPosition parse then parse.reject line (str "conflicting_numbering") else parse).Kept budget := by
      split
      · exact kept.reject (plain_str _)
      · exact kept
    have shape : (parse.add number line budget position).1 =
        { (if position ≤ lastPosition parse then parse.reject line (str "conflicting_numbering") else parse) with
          rows := parse.rows ++ [addedRow parse number line position] } := by
      rw [Parse.add, if_neg (Nat.not_le_of_lt room)]
      by_cases taken : position ≤ lastPosition parse
      · simp [taken, addedRow, Parse.reject]
      · simp [taken, addedRow]
    rw [shape]
    exact
      { rejected with
        rows := by
          intro row member
          obtain earlier | last := List.mem_append.mp member
          · exact kept.rows row earlier
          · rw [List.mem_singleton.mp last]
            exact addedRow_sound parse number position small
        rising := by
          rw [List.pairwise_append]
          refine ⟨kept.rising, List.pairwise_singleton _ _, fun row member other last => ?_⟩
          rw [List.mem_singleton.mp last]
          exact addedRow_after kept.rising number line position row member
        few := by
          rw [List.length_append, List.length_singleton]
          exact room }
  · rw [add_full _ _ _ (Nat.le_of_not_lt room)]
    exact kept.reject (plain_str _)

-- A change of the last row that keeps its place.
theorem Parse.Kept.onLast {before : List Row} {row : Row} {change : Row → Row} (kept : parse.Kept budget)
    (rows : parse.rows = before ++ [row]) (sound : (change row).Sound) (same : (change row).position = row.position)
    (ordered : ∀ other ∈ before, OffsetsOrdered (trackOf other) (trackOf (change row))) :
    (parse.onLast change).Kept budget := by
  have changed : (parse.onLast change).rows = before ++ [change row] := by
    rw [Parse.onLast]
    show parse.rows.modifyLast change = _
    rw [rows, List.modifyLast_concat]
  have members := kept.rows
  have rising := kept.rising
  rw [rows] at members rising
  have parts := List.pairwise_append.mp rising
  exact
    { kept with
      rows := by
        intro other member
        rw [changed] at member
        obtain earlier | last := List.mem_append.mp member
        · exact members other (List.mem_append_left _ earlier)
        · rw [List.mem_singleton.mp last]
          exact sound
      rising := by
        rw [changed, List.pairwise_append]
        refine ⟨parts.1, List.pairwise_singleton _ _, fun other member final last => ?_⟩
        rw [List.mem_singleton.mp last]
        exact ⟨same ▸ (parts.2.2 other member row (List.mem_singleton_self row)).1, ordered other member⟩
      few := by
        have few := kept.few
        rw [rows] at few
        rw [changed]
        simpa using few }

end Phaze.Tracklist
