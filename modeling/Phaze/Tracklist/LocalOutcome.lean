import Phaze.Tracklist.Attached
import Phaze.Tracklist.Outcomes

set_option autoImplicit false

/-!
# When a local source is read

Whatever the text is, the one thing that can fail is the size of what the snapshot holds beside its tracks.
-/

namespace Phaze.Tracklist

open Phaze.Guards Phaze.Json Phaze.Percent Phaze.Unicode

/-! ## The error of a full output -/

def jsonWeight (values : List Text) : Nat := (values.map fun value => textLength value + 1).sum

theorem length_texts (values : List Text) : (texts values).length + (if values = [] then 0 else 1) = jsonWeight values + 2 := by
  have list : ∀ values : List Text, listLength (values.map Value.text) + (if values = [] then 0 else 1) = jsonWeight values := by
    intro values
    induction values with
    | nil => rfl
    | cons value rest ih =>
      rw [List.map_cons, listLength_cons, jsonWeight, List.map_cons, List.sum_cons, Value.length, if_neg (List.cons_ne_nil value rest)]
      rw [jsonWeight] at ih
      simp only [List.map_eq_nil_iff]
      omega
  have inner := list values
  show listLength (values.map Value.text) + 2 + _ = _
  omega

theorem weight_append (values others : List Text) : jsonWeight (values ++ others) = jsonWeight values + jsonWeight others := by
  rw [jsonWeight, List.map_append, List.sum_append]
  rfl

theorem weight_prefix {values others : List Text} (front : values <+: others) : jsonWeight values ≤ jsonWeight others := by
  obtain ⟨rest, rfl⟩ := front
  rw [weight_append]
  exact Nat.le_add_right _ _

theorem textLength_le (text : Text) : textLength text ≤ 6 * text.length + 2 := by
  have point : ∀ point : CodePoint, pointLength point ≤ 6 := by
    intro point
    cases point with
    | surrogate value => exact Nat.le_refl 6
    | scalar char =>
      have size := char.utf8Size_le_four
      rw [pointLength]
      split
      · decide
      · split
        · decide
        · split
          · decide
          · omega
  have sum : (text.map pointLength).sum ≤ 6 * text.length := by
    induction text with
    | nil => exact Nat.le_refl 0
    | cons first rest ih =>
      have here := point first
      rw [List.map_cons, List.sum_cons, List.length_cons]
      omega
  rw [textLength]
  omega

def shortened (values : List Text) : List Text := values.map (List.take 4096)

theorem weight_bounded (values : List Text) : jsonWeight (boundedEvidence values) = jsonWeight (shortened (values.take 64)) := rfl

theorem shortened_append (values others : List Text) : shortened (values ++ others) = shortened values ++ shortened others := List.map_append

-- An error in front of the others costs at most its own length.
theorem weight_take_cons (count : Nat) (error : Text) (others : List Text) :
    jsonWeight (shortened ((error :: others).take count)) ≤ jsonWeight (shortened (others.take count)) + jsonWeight (shortened [error]) := by
  cases count with
  | zero => exact Nat.zero_le _
  | succ count =>
    have front : shortened (others.take count) <+: shortened (others.take (count + 1)) :=
      (List.take_prefix_take_left (Nat.le_succ count)).map _
    have less := weight_prefix front
    rw [List.take_succ_cons, ← List.singleton_append, shortened_append, weight_append]
    omega

variable {budget : LoadBudget} {candidate : ProviderCandidate} {content : SourceRead} {decoded : Decoded} {sourceFormat : Text}
  {parse : Parse}

theorem reject_weight (parse : Parse) (line : Nat) (reason : Text) :
    jsonWeight (boundedEvidence ((parse.reject line reason).errors ++ parse.warnings)) ≤
      jsonWeight (boundedEvidence (parse.errors ++ parse.warnings)) + jsonWeight (shortened [errorText line reason]) := by
  have split : ∀ (values others : List Text), jsonWeight (boundedEvidence (values ++ others)) =
      jsonWeight (shortened (values.take 64)) + jsonWeight (shortened (others.take (64 - values.length))) := by
    intro values others
    rw [weight_bounded, List.take_append, shortened_append, weight_append]
  rw [Parse.reject]
  split
  next room =>
    rw [List.append_assoc, split, split, List.singleton_append]
    have cons := weight_take_cons (64 - parse.errors.length) (errorText line reason) parse.warnings
    omega
  next full =>
    split
    · have whole : 63 ≤ parse.errors.dropLast.length := by
        rw [List.length_dropLast]
        omega
      have front : shortened (parse.errors.dropLast.take 64) <+: shortened (parse.errors.take 64) :=
        (List.IsPrefix.take (List.dropLast_prefix parse.errors) 64).map _
      have less := weight_prefix front
      have single : jsonWeight (shortened ((errorText line reason :: parse.warnings).take (64 - parse.errors.dropLast.length))) ≤
          jsonWeight (shortened [errorText line reason]) := by
        apply weight_prefix
        have short : ((errorText line reason :: parse.warnings).take (64 - parse.errors.dropLast.length)) <+: [errorText line reason] := by
          have bound : 64 - parse.errors.dropLast.length ≤ 1 := by omega
          exact (List.take_prefix_take_left bound).trans (List.prefix_refl _)
        exact short.map _
      rw [List.append_assoc, split, split, List.singleton_append]
      omega
    · exact Nat.le_add_right _ _

theorem capError_weight {line : Nat} (small : line < 10 ^ 5) : jsonWeight (shortened [errorText line (str "snapshot_output_cap")]) ≤ 256 := by
  have digits := length_digits_le small
  have tag : (str "line:").length = 5 ∧ (str ":").length = 1 ∧ (str "snapshot_output_cap").length = 19 := by decide
  have length : ((errorText line (str "snapshot_output_cap")).take 4096).length ≤ 30 := by
    rw [List.length_take, errorText, lineTag, List.length_append, List.length_append, List.length_append, tag.1, tag.2.1, tag.2.2]
    omega
  have bound := textLength_le ((errorText line (str "snapshot_output_cap")).take 4096)
  show textLength ((errorText line (str "snapshot_output_cap")).take 4096) + 1 + 0 ≤ 256
  omega

theorem length_texts_le (values : List Text) : (texts values).length ≤ jsonWeight values + 2 ∧ jsonWeight values + 1 ≤ (texts values).length := by
  have length := length_texts values
  split at length
  · omega
  · omega

-- The error of a full output and the flag it clears, beside the same tracks.
theorem capped_length (candidate : ProviderCandidate) (content : SourceRead) (decoded : Decoded) (sourceFormat : Text) (parse : Parse)
    (tracks : List ProviderTrack) {line : Nat} (small : line < 10 ^ 5) :
    (finalSnapshot (baseSnapshot candidate content decoded sourceFormat parse) (parse.reject line (str "snapshot_output_cap"))
        tracks).dumpLength ≤
      (baseSnapshot candidate content decoded sourceFormat parse).dumpLength + tracksLength tracks + 4096 := by
  have incomplete : completeParse (parse.reject line (str "snapshot_output_cap")) = false := by
    have errors := reject_errors_ne_nil parse line (str "snapshot_output_cap")
    rw [completeParse, decide_eq_false errors, Bool.false_and]
  have shape := dumpLength_with (baseSnapshot candidate content decoded sourceFormat parse) tracks
    { state := .incomplete, reason := incompleteReason
      evidence := boundedEvidence ((parse.reject line (str "snapshot_output_cap")).errors ++ parse.warnings) }
    ((baseSnapshot candidate content decoded sourceFormat parse).sectionScanComplete &&
      !capped (parse.reject line (str "snapshot_output_cap"))) rfl
  have flags : ∀ flag : Bool, 4 ≤ (Value.bool flag).length ∧ (Value.bool flag).length ≤ 5 := by decide
  have before := flags (baseSnapshot candidate content decoded sourceFormat parse).sectionScanComplete
  have after := flags ((baseSnapshot candidate content decoded sourceFormat parse).sectionScanComplete &&
      !capped (parse.reject line (str "snapshot_output_cap")))
  have listed := listLength_tracks tracks
  have error : jsonWeight (shortened [errorText line (str "snapshot_output_cap")]) ≤ 256 := capError_weight small
  have weights := reject_weight parse line (str "snapshot_output_cap")
  have long := length_texts_le (boundedEvidence ((parse.reject line (str "snapshot_output_cap")).errors ++ parse.warnings))
  have short := length_texts_le (boundedEvidence (parse.errors ++ parse.warnings))
  have base : (baseSnapshot candidate content decoded sourceFormat parse).completeness.json.length =
      textLength (str CompletenessState.incomplete.value) + textLength incompleteReason +
        (texts (boundedEvidence (parse.errors ++ parse.warnings))).length + 32 := completeness_length _ _ _
  rw [base, completeness_length] at shape
  rw [finalSnapshot, incomplete]
  simp only [Bool.false_eq_true, if_false]
  have warnings : (parse.reject line (str "snapshot_output_cap")).warnings = parse.warnings := rfl
  rw [warnings]
  omega

/-! ## What `finish` returns -/

-- The parse once the output is full after a number of rows.
def laterParse (parse : Parse) (count : Nat) : Parse :=
  ((parse.rows[count]?).map Row.line).elim parse fun line => parse.reject line (str "snapshot_output_cap")

def finalOf (candidate : ProviderCandidate) (content : SourceRead) (decoded : Decoded) (sourceFormat : Text) (parse : Parse)
    (count : Nat) : Snapshot :=
  finalSnapshot (baseSnapshot candidate content decoded sourceFormat parse) (laterParse parse count) ((parse.rows.take count).map trackOf)

-- Room for all that a snapshot holds beside its tracks, and for the error where not even the first row fits.
structure Compact (candidate : ProviderCandidate) (content : SourceRead) (decoded : Decoded) (sourceFormat : Text) (parse : Parse) :
    Prop where
  base : (baseSnapshot candidate content decoded sourceFormat parse).dumpLength ≤ 4 * 1024 * 1024
  capped : ∀ row ∈ parse.rows.head?,
    outputCap < (baseSnapshot candidate content decoded sourceFormat parse).dumpLength + (trackOf row).dumpLength + 1 →
    (finalSnapshot (baseSnapshot candidate content decoded sourceFormat parse) (parse.reject row.line (str "snapshot_output_cap"))
      []).dumpLength ≤ 4 * 1024 * 1024

theorem validate_small {snapshot : Snapshot} (valid : snapshot.validate = .ok ()) : snapshot.dumpLength ≤ 4 * 1024 * 1024 := by
  rw [Snapshot.validate, bind_require, bind_ok] at valid
  obtain ⟨-, -, -, valid⟩ := valid
  rw [bind_ok] at valid
  obtain ⟨-, -, valid⟩ := valid
  simp only [Snapshot.validateTracks, bind_require, require_ok, decide_eq_true_eq] at valid
  exact valid.2.2.2.2.2

theorem laterParse_errors (count : Nat) (errors : (laterParse parse count).errors = []) :
    laterParse parse count = parse ∧ parse.rows.length ≤ count := by
  rw [laterParse] at errors ⊢
  cases found : parse.rows[count]? with
  | none => exact ⟨rfl, List.getElem?_eq_none_iff.mp found⟩
  | some row =>
    rw [found] at errors
    exact absurd errors (reject_errors_ne_nil _ _ _)

theorem laterParse_plain (sound : parse.Sound budget) (count : Nat) :
    AllPlain ((laterParse parse count).errors ++ (laterParse parse count).warnings) := by
  rw [laterParse]
  cases parse.rows[count]? with
  | none => exact sound.kept.errors.append sound.kept.warnings
  | some row => exact (sound.kept.reject (plain_str "snapshot_output_cap")).errors.append sound.kept.warnings

theorem laterParse_sections (parse : Parse) (count : Nat) : (laterParse parse count).sections = parse.sections := by
  rw [laterParse]
  cases parse.rows[count]? with
  | none => rfl
  | some row => rfl

theorem finish_reads (candidate : ProviderCandidate) (content : SourceRead) (decoded : Decoded) (sourceFormat : Text)
    (sound : parse.Sound budget) :
    ∃ count, (count = 0 ∧ (∀ row ∈ parse.rows.head?,
        outputCap < (baseSnapshot candidate content decoded sourceFormat parse).dumpLength + (trackOf row).dumpLength + 1) ∨
        0 < count ∧ (baseSnapshot candidate content decoded sourceFormat parse).dumpLength +
          tracksLength ((parse.rows.take count).map trackOf) ≤ outputCap) ∧
      outputParse candidate content decoded sourceFormat parse = laterParse parse count ∧
      ∀ outcome, finish candidate content decoded sourceFormat parse = .ok outcome ↔
        (baseSnapshot candidate content decoded sourceFormat parse).validate = .ok () ∧
        (finalOf candidate content decoded sourceFormat parse count).validate = .ok () ∧
        LoadOutcome.build (outcomeOf content (laterParse parse count) (finalOf candidate content decoded sourceFormat parse count)) =
          .ok outcome := by
  obtain ⟨count, read, within⟩ := tracksFrom_ok sound.kept.rows
    (baseSnapshot candidate content decoded sourceFormat parse).dumpLength
  refine ⟨count, within, by rw [outputParse, read, laterParse], fun outcome => ?_⟩
  rw [finish]
  simp only [bind_ok, read, Except.ok.injEq, exists_eq_left']
  constructor
  · rintro ⟨⟨⟩, base, ⟨⟩, final, built⟩
    exact ⟨base, final, built⟩
  · rintro ⟨base, final, built⟩
    exact ⟨(), base, (), final, built⟩

theorem build_eq {outcome built : LoadOutcome} (same : LoadOutcome.build outcome = .ok built) : built = outcome := by
  rw [LoadOutcome.build, bind_require, bind_ok] at same
  obtain ⟨-, -, -, same⟩ := same
  rw [bind_ok] at same
  obtain ⟨-, -, same⟩ := same
  exact (Except.ok.inj same).symm

theorem finish_outcome {outcome : LoadOutcome} (sound : parse.Sound budget)
    (same : finish candidate content decoded sourceFormat parse = .ok outcome) :
    ∃ count, outcome = outcomeOf content (laterParse parse count) (finalOf candidate content decoded sourceFormat parse count) ∧
      outputParse candidate content decoded sourceFormat parse = laterParse parse count ∧
      (finalOf candidate content decoded sourceFormat parse count).validate = .ok () := by
  obtain ⟨count, -, output, reads⟩ := finish_reads candidate content decoded sourceFormat sound
  obtain ⟨-, final, built⟩ := (reads outcome).mp same
  exact ⟨count, build_eq built, output, final⟩

theorem finalOf_small (sound : parse.Sound budget) {count : Nat} (compact : Compact candidate content decoded sourceFormat parse)
    (within : count = 0 ∧ (∀ row ∈ parse.rows.head?,
        outputCap < (baseSnapshot candidate content decoded sourceFormat parse).dumpLength + (trackOf row).dumpLength + 1) ∨
      0 < count ∧ (baseSnapshot candidate content decoded sourceFormat parse).dumpLength +
        tracksLength ((parse.rows.take count).map trackOf) ≤ outputCap) :
    (finalOf candidate content decoded sourceFormat parse count).dumpLength ≤ 4 * 1024 * 1024 := by
  have cap : outputCap + 4096 = 4 * 1024 * 1024 := by decide
  have base := compact.base
  rw [finalOf, laterParse]
  obtain ⟨rfl, full⟩ | ⟨-, room⟩ := within
  · rw [List.take_zero, List.map_nil, ← List.head?_eq_getElem?]
    cases first : parse.rows.head? with
    | none =>
      have length := finalSnapshot_length candidate content decoded sourceFormat parse []
      have nothing : tracksLength [] = 0 := rfl
      rw [Option.map_none, Option.elim_none]
      omega
    | some row => exact compact.capped row first (full row first)
  · cases next : parse.rows[count]? with
    | none =>
      have length := finalSnapshot_length candidate content decoded sourceFormat parse ((parse.rows.take count).map trackOf)
      rw [Option.map_none, Option.elim_none]
      omega
    | some row =>
      have small := (sound.kept.rows row (List.mem_of_getElem? next)).line
      have length := capped_length candidate content decoded sourceFormat parse ((parse.rows.take count).map trackOf) small
      rw [Option.map_some, Option.elim_some]
      omega

theorem finish_iff (given : Given candidate content decoded sourceFormat) (sound : parse.Sound budget) (atMost : budget.maxTracks ≤ 4096)
    (reported : parse.rows = [] → parse.errors ≠ []) :
    (∃ outcome, finish candidate content decoded sourceFormat parse = .ok outcome) ↔
      Compact candidate content decoded sourceFormat parse := by
  obtain ⟨count, within, -, reads⟩ := finish_reads candidate content decoded sourceFormat sound
  constructor
  · rintro ⟨outcome, same⟩
    obtain ⟨base, final, -⟩ := (reads outcome).mp same
    refine ⟨validate_small base, fun row first full => ?_⟩
    obtain ⟨rfl, -⟩ | ⟨positive, room⟩ := within
    · have small := validate_small final
      rw [finalOf, laterParse, List.take_zero, List.map_nil, ← List.head?_eq_getElem?, Option.mem_def.mp first] at small
      exact small
    · obtain ⟨rest, rows⟩ : ∃ rest, parse.rows = row :: rest := List.head?_eq_some_iff.mp first
      obtain ⟨before, rfl⟩ := Nat.exists_eq_add_of_le' positive
      rw [rows, List.take_succ_cons, List.map_cons, tracksLength, List.map_cons, List.sum_cons] at room
      omega
  · intro compact
    have base := baseSnapshot_ok given sound atMost compact.base
    have final := finalSnapshot_ok given sound atMost count (laterParse_plain sound count) (finalOf_small sound compact within)
    refine ⟨_, (reads _).mpr ⟨base, final, outcomeOf_ok given final rfl fun complete empty => ?_⟩⟩
    obtain ⟨same, whole⟩ := laterParse_errors count (completeParse_iff.mp complete).1
    have errors := (completeParse_iff.mp complete).1
    have none : (parse.rows.take count).map trackOf = [] := empty
    rw [List.take_of_length_le whole] at none
    rw [same] at errors
    exact reported (List.map_eq_nil_iff.mp none) errors

end Phaze.Tracklist
