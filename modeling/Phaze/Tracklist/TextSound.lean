import Phaze.Tracklist.TextParts

set_option autoImplicit false

/-!
# Rows of free text pass their checks

An invariant of the lines of `LocalText`.
-/

namespace Phaze.Tracklist

open Phaze.Guards Phaze.Percent Phaze.Unicode Phaze.Patterns

variable {isWord : CodePoint → Bool}

/-! ## The fields of a row -/

-- A draft of a row that keeps the row's place.
structure Draft.Sound (base : Row) (draft : Draft) : Prop where
  row : draft.row.Sound
  position : draft.row.position = base.position
  ordinal : draft.row.sectionOrdinal = base.sectionOrdinal
  timestamp : draft.row.timestamp = base.timestamp
  body : fits 4096 draft.body = true
  reasons : AllPlain draft.reasons
  noted : AllPlain draft.noted
  warnings : AllPlain draft.warnings

variable {row : Row} {draft : Draft}

theorem Draft.Sound.initial {body : Text} (sound : row.Sound) (fit : fits 4096 body = true) : Draft.Sound row { row, body } :=
  { row := sound, position := rfl, ordinal := rfl, timestamp := rfl, body := fit, reasons := allPlain_nil, noted := allPlain_nil
    warnings := allPlain_nil }

theorem Draft.Sound.note {evidence : Text} (sound : Draft.Sound row draft) (plain : Plain evidence) :
    Draft.Sound row (draft.note evidence) := { sound with row := sound.row.note plain }

theorem Draft.Sound.warn (sound : Draft.Sound row draft) (warning : String) : Draft.Sound row (draft.warn warning) :=
  { sound with warnings := sound.warnings.append (plain_errorText (plain_str warning)).single }

theorem Draft.Sound.fail (sound : Draft.Sound row draft) (reason : String) : Draft.Sound row (draft.fail reason) :=
  { sound with
    reasons := sound.reasons.append (plain_str reason).single
    noted := sound.noted.append (plain_errorText (plain_str reason)).single }

theorem Draft.Sound.cut {body : Text} (sound : Draft.Sound row draft) (sub : body.Sublist draft.body) :
    Draft.Sound row { draft with body } := { sound with body := fits_sublist sound.body sub }

theorem withoutDuration_sound (sound : Draft.Sound row draft) : Draft.Sound row (withoutDuration isWord draft) := by
  rw [withoutDuration]
  split
  · exact sound
  next found success =>
    have time : Plain (groupOf found.place 1) := (fits_iff.mp sound.body).2.sublist (groupOf_search_sublist 1 success)
    have front := (rstrip_sublist found.front).trans (search_found success).1.sublist
    apply (sound.cut front).note
    exact ((((plain_lineTag _).append (plain_str _)).append time).append (plain_str _))

theorem annotate_sound {found : Found} (sound : Draft.Sound row draft) (success : search isWord annotation draft.body = some found) :
    Draft.Sound row (annotate draft found) := by
  have rest := sound.cut ((strip_sublist found.front).trans (search_found success).1.sublist)
  have captured : ∀ index group, found.place.text? index = some group → (known (some group)).all (fits 4096) = true :=
    fun index group taken => known_fits (fits_sublist sound.body ((search_found success).2 index group taken).sublist)
  have reasons : ∀ (doubled : Bool) (reason : String), AllPlain (draft.reasons ++ if doubled then [str reason] else []) := by
    intro doubled reason
    cases doubled with
    | true => exact sound.reasons.append (plain_str reason).single
    | false => exact sound.reasons.append allPlain_nil
  rw [annotate]
  cases first : found.place.text? 1 with
  | some label => exact { rest with row := { sound.row with label := captured 1 label first }, reasons := reasons _ _ }
  | none =>
    cases second : found.place.text? 2 with
    | some remix => exact { rest with row := { sound.row with remix := captured 2 remix second }, reasons := reasons _ _ }
    | none => exact { rest with row := { sound.row with } }

theorem annotations_sound (count : Nat) (sound : Draft.Sound row draft) : Draft.Sound row (annotations isWord count draft) := by
  induction count generalizing draft with
  | zero => exact sound
  | succ count ih =>
    rw [annotations]
    split
    · exact sound
    next found success => exact ih (annotate_sound sound success)

theorem columnsOf_sublist {body column : Text} (member : column ∈ columnsOf body) : column.Sublist body := by
  obtain ⟨piece, inside, rfl⟩ := List.mem_map.mp (List.mem_of_mem_filter member)
  rw [List.splitOn_eq_splitOnP] at inside
  exact (strip_sublist piece).trans (mem_splitOnP_sublist inside)

theorem Draft.Sound.named {artist title : Option Text} (sound : Draft.Sound row draft) (artistFits : artist.all (fits 4096) = true)
    (titleFits : title.all (fits 4096) = true) : Draft.Sound row { draft with row := { draft.row with artist, title } } :=
  { sound with row := { sound.row with artist := artistFits, title := titleFits } }

theorem attributed_sound {titleAllowed : Bool} (sound : Draft.Sound row draft) :
    Draft.Sound row (attributed isWord titleAllowed draft) := by
  have part : ∀ {value : Text}, value.Sublist draft.body → (known (some value)).all (fits 4096) = true :=
    fun sub => known_fits (fits_sublist sound.body sub)
  rw [attributed]
  dsimp only
  split
  next artist title more columns =>
    have listed : ∀ column ∈ artist :: title :: more, column.Sublist draft.body := fun column member =>
      columnsOf_sublist (columns ▸ member)
    have named := sound.named (part (listed artist (by simp))) (part (listed title (by simp)))
    split
    · exact named
    · exact (named.warn _).note (plain_str _)
  next begins _ => exact sound.named (part (List.take_sublist _ _)) (part (List.drop_sublist _ _))
  next => exact (sound.warn _).note (plain_str _)
  next =>
    split
    · exact sound.note (plain_str _)
    · split
      · exact sound.named sound.row.artist (part (List.drop_sublist _ _))
      · split
        · split
          · have untitled : Draft.Sound row { draft with row := { draft.row with title := none } } := sound.named sound.row.artist rfl
            exact (untitled.warn _).note (plain_str _)
          · exact sound.named sound.row.artist (part (List.Sublist.refl _))
        · exact { sound.fail "unsupported_title_only_body" with }

theorem textFields_sound {body : Text} {titleAllowed : Bool} (sound : row.Sound) (fit : fits 4096 body = true) :
    Draft.Sound row (textFields isWord row body titleAllowed) := by
  have initial := Draft.Sound.initial sound fit
  rw [textFields]
  split
  · exact initial.fail _
  · have read : Draft.Sound row (annotations isWord 3 (withoutDuration isWord { row, body })) :=
      annotations_sound 3 (withoutDuration_sound initial)
    have ended : ∀ {draft : Draft}, Draft.Sound row draft → Draft.Sound row
        (if (attributed isWord titleAllowed draft).supported && decide ((attributed isWord titleAllowed draft).body = [])
          then (attributed isWord titleAllowed draft).fail "empty_track_body" else attributed isWord titleAllowed draft) := by
      intro draft capped
      split
      · exact (attributed_sound capped).fail _
      · exact attributed_sound capped
    apply ended
    split
    · exact { read with reasons := read.reasons.append (plain_str _).single }
    · exact read

theorem textTimestamp_valid (isWord : CodePoint → Bool) {original : Text} {line : Nat} (fit : fits 4096 original = true) (small : line < 10 ^ 5) :
    (textTimestamp isWord original line).1.validate = .ok () ∧ (textTimestamp isWord original line).1.offset = none ∧
      AllPlain (textTimestamp isWord original line).2 := by
  have tag := fits_lineTag small
  have single : evidenceFits [lineTag line] = true := evidenceFits_iff.mpr ⟨by simp, fun text member =>
    List.mem_singleton.mp member ▸ tag⟩
  have valid : ∀ {timestamp : Timestamp}, timestamp.original = original → timestamp.origin = none → timestamp.offset = none →
      timestamp.offsetUsability = .unusable → evidenceFits timestamp.evidence = true → timestamp.validate = .ok () := by
    intro timestamp same origin offset usability evidence
    rw [Timestamp.validate_ok]
    constructor
    · simp only [Timestamp.fieldsFit, same, fit, origin, Option.all_none, evidence, Bool.and_self]
    · rw [validateQualification_ok]
      simp [offset, usability]
  rw [textTimestamp]
  split
  · refine ⟨valid rfl rfl rfl rfl (evidence_pair tag (by decide)), rfl, ?_⟩
    dsimp only
    split
    · exact allPlain_nil
    · exact (plain_str _).single
  · split
    · exact ⟨valid rfl rfl rfl rfl (evidence_pair tag (by decide)), rfl, allPlain_nil⟩
    · exact ⟨valid rfl rfl rfl rfl single, rfl, (plain_str _).single⟩

end Phaze.Tracklist
