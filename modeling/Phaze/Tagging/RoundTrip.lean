import Phaze.Tagging.Container

set_option autoImplicit false

/-!
# Undoing tag writes

An undo writes the snapshot of the first write back. The snapshot holds what reading made of the container, so
the container comes back exactly when reading it loses nothing; and a write is COMPLETED exactly when reading
gives the written texts back, up to NFC.
-/

namespace Phaze.Tagging

open Shared

section RoundTrip

variable {format : TagFormat} (unicode : Unicode)

/-! ## What a write leaves -/

def fieldValues (format : TagFormat) (field : Field) (value : TagValue) : Except WriteError (List Stored) :=
  match format with
  | .mp4 => mp4Values unicode field value
  | _ => .ok (textValues value)

variable {unicode}

theorem writeTags_eq (container : Container format) (tags : Tags) :
    writeTags unicode container tags = writeFields container (writeMap format) (fieldValues unicode format) tags := by
  cases format <;> rfl

theorem put_ok (container : Container format) {key : String} {values : List Stored}
    (fits : ∀ stored ∈ values, stored.Fits format key) :
    ∃ written, container.put key values = .ok written ∧ written.values = Function.update container.values key values := by
  refine ⟨_, dif_pos fits, rfl⟩

-- What the tags set each field to, as far as they do.
def Sets (unicode : Unicode) (tags : Tags) (valuesOf : Field → List Stored) (format : TagFormat) : Prop :=
  ∀ field value, tags.get field = some value → fieldValues unicode format field value = .ok (valuesOf field) ∧
    ∀ stored ∈ valuesOf field, stored.Fits format (writeMap format field)

theorem foldlM_sets {tags : Tags} {valuesOf : Field → List Stored} (sets : Sets unicode tags valuesOf format)
    (fields : List Field) (distinct : fields.Nodup) (container : Container format) :
    ∃ written, fields.foldlM (fun (container : Container format) field =>
        match tags.get field with
        | none => .ok container
        | some value => do container.put (writeMap format field) (← fieldValues unicode format field value)) container =
          Except.ok written ∧
      (∀ field ∈ fields, written.values (writeMap format field) =
        if tags.get field = none then container.values (writeMap format field) else valuesOf field) ∧
      ∀ key, (∀ field ∈ fields, key ≠ writeMap format field) → written.values key = container.values key := by
  induction fields generalizing container with
  | nil => exact ⟨container, rfl, by simp, fun _ _ => rfl⟩
  | cons field rest ih =>
    rw [List.nodup_cons] at distinct
    have apart : ∀ other ∈ rest, writeMap format other ≠ writeMap format field := fun other member same =>
      distinct.1 (writeMap_inj same ▸ member)
    obtain ⟨after, stepped, values⟩ : ∃ after : Container format,
        (match tags.get field with
        | none => Except.ok container
        | some value => do container.put (writeMap format field) (← fieldValues unicode format field value)) =
          Except.ok after ∧
        after.values = if tags.get field = none then container.values
          else Function.update container.values (writeMap format field) (valuesOf field) := by
      cases given : tags.get field with
      | none => exact ⟨container, rfl, by simp⟩
      | some value =>
        obtain ⟨set, fits⟩ := sets field value given
        obtain ⟨written, put, values⟩ := put_ok container fits
        exact ⟨written, by simp [set, put, bind, Except.bind], by simpa using values⟩
    obtain ⟨written, ran, mine, others⟩ := ih distinct.2 after
    refine ⟨written, by rw [List.foldlM_cons, stepped]; exact ran, ?_, ?_⟩
    · intro other member
      rcases List.mem_cons.mp member with rfl | member
      · rw [others _ fun other member => (apart other member).symm, values]
        split <;> simp
      · rw [mine other member, values]
        split
        · split
          · rfl
          · rw [Function.update_of_ne (apart other member)]
        · rfl
    · intro key outside
      rw [List.forall_mem_cons] at outside
      rw [others key outside.2, values]
      split
      · rfl
      · rw [Function.update_of_ne outside.1]

/-- A write sets the fields of its dict and nothing else. -/
theorem writeTags_ok {tags : Tags} {valuesOf : Field → List Stored} (sets : Sets unicode tags valuesOf format)
    (container : Container format) :
    ∃ written, writeTags unicode container tags = .ok written ∧
      (∀ field, written.values (writeMap format field) =
        if tags.get field = none then container.values (writeMap format field) else valuesOf field) ∧
      ∀ key, (∀ field, key ≠ writeMap format field) → written.values key = container.values key := by
  obtain ⟨written, ran, mine, others⟩ := foldlM_sets sets coreTagFields (by decide) container
  refine ⟨written, ?_, fun field => mine field (mem_coreTagFields field), fun key outside => others key fun field _ => outside field⟩
  rw [writeTags_eq]
  exact ran

/-! ## What is read -/

def trackOf : TagFormat → List Stored → Option Stored
  | .mp4 => mp4Track
  | _ => textTrack

theorem parseFormatTags_eq (container : Container format) :
    parseFormatTags unicode container =
      normalizedValues unicode (fun field => container.values (writeMap format field)) (trackOf format) := by
  cases format <;> rfl

def readText (text : Text) : Text :=
  repairMojibake (sanitizePgText text)

@[simp]
theorem firstStr_cons (text : Text) (rest : List Stored) : firstStr (.text text :: rest) = some (readText text) := rfl

@[simp]
theorem readText_decimalText (number : Int) : readText (decimalText number) = decimalText number := by
  rw [readText, sanitizePgText_decimalText, repairMojibake_ascii (ascii_decimalText number)]

/-! ## Forward writes -/

-- The dicts that the API dispatches for a write: texts, and numbers for the year and the track.
structure Proposed extends Tags where
  kind : ∀ field value, get field = some value →
    match field with
    | .year => ∃ number, value = .number number
    | .trackNumber => ∃ number : Nat, number < 65536 ∧ value = .number number
    | _ => ∃ text, value = .text text

-- What a forward write sets a field to.
def proposedValues (format : TagFormat) (field : Field) : TagValue → List Stored
  | .number number => if format = .mp4 ∧ field = .trackNumber then [.pair number 0] else [.text (decimalText number)]
  | value => textValues value

theorem fits_text {field : Field} (text : Text) (plain : ¬ (format = .mp4 ∧ field = .trackNumber)) :
    (Stored.text text).Fits format (writeMap format field) := by
  rintro ⟨rfl, key⟩
  cases field with
  | trackNumber => exact plain ⟨rfl, rfl⟩
  | artist | title | album | year | genre => exact absurd key (by decide)

variable (unicode) in
theorem Proposed.sets (proposed : Proposed) :
    Sets unicode proposed.toTags (fun field => proposedValues format field ((proposed.get field).getD .none)) format := by
  intro field value given
  have kind := proposed.kind field value given
  simp only [given, Option.getD_some]
  cases field with
  | artist | title | album | genre =>
    obtain ⟨text, rfl⟩ := kind
    refine ⟨by cases format <;> rfl, ?_⟩
    rintro stored member
    obtain rfl := List.mem_singleton.mp member
    exact fits_text text (by simp)
  | year =>
    obtain ⟨number, rfl⟩ := kind
    refine ⟨by cases format <;> rfl, ?_⟩
    rintro stored member
    simp only [proposedValues, reduceCtorEq, and_false, if_false, List.mem_singleton] at member
    subst member
    exact fits_text _ (by simp)
  | trackNumber =>
    obtain ⟨number, small, rfl⟩ := kind
    refine ⟨by cases format <;> rfl, ?_⟩
    rintro stored member
    by_cases atom : format = .mp4
    · subst atom
      simp only [proposedValues, and_self, if_true, List.mem_singleton] at member
      subst member
      exact ⟨rfl, rfl, by omega, by omega, le_rfl, by decide⟩
    · simp only [proposedValues, atom, false_and, if_false, List.mem_singleton] at member
      subst member
      exact fits_text _ (by simp [atom])

-- A dict whose texts reading gives back, up to NFC.
def Legible (unicode : Unicode) (tags : Tags) : Prop :=
  ∀ field text, tags.get field = some (.text text) → unicode.nfc (readText text) = unicode.nfc text

theorem short_toDigits {number : Nat} (small : number < 65536) :
    (Nat.toDigits 10 number).length ≤ maxStrDigits := by
  have five : (Nat.toDigits 10 number).length ≤ 5 := (Nat.length_toDigits_le_iff (by decide) (by decide)).mpr (by omega)
  exact five.trans (by decide)

theorem parseTrackText_toDigits {number : Nat} (small : number < 65536) :
    parseTrackText unicode (Nat.toDigits 10 number) = boundedTrack number := by
  rw [parseTrackText, strip_toDigits]
  simp only [(not_mem_toDigits (by decide) : '/' ∉ Nat.toDigits 10 number), if_false, Nat.toDigits_ne_nil,
    parseInt_toDigits (short_toDigits small), Option.bind_some]

theorem writeAndVerify_ok {container written : Container format} {tags : Tags}
    (ran : writeTags unicode container tags = .ok written) :
    writeAndVerify unicode container tags =
      ({ status := if verifyWrite unicode written tags = [] then .completed else .discrepancy
         discrepancies := some (verifyWrite unicode written tags)
         beforeTags := extractBeforeTags unicode container }, written) := by
  rw [writeAndVerify, ran]

-- Whether the verify of a forward value finds nothing.
theorem verifyField_proposed {parsed : ParsedTagValues} {source : Field → List Stored} (proposed : Proposed)
    (reads : parsed = normalizedValues unicode source (trackOf format)) {field : Field} {value : TagValue}
    (given : proposed.get field = some value) (written : source field = proposedValues format field value) :
    verifyField unicode parsed field value = none ↔
      ∀ text, value = .text text → unicode.nfc (readText text) = unicode.nfc text := by
  have kind := proposed.kind field value given
  subst reads
  cases field with
  | artist | title | album | genre =>
    obtain ⟨text, rfl⟩ := kind
    simp [verifyField, semanticCompareField, verifyNfcField, ParsedTagValues.get, normalizedValues, written,
      proposedValues, textValues, firstStr, Stored.str, ofText, actualText, TagValue.str, readText, eq_comm]
  | year =>
    obtain ⟨number, rfl⟩ := kind
    have same : readText (decimalText number) = decimalText number := readText_decimalText number
    simp only [readText] at same
    simp [verifyField, semanticCompareField, verifySemanticField, ParsedTagValues.get, normalizedValues, written,
      proposedValues, firstStr, Stored.str, normalizeYearText, same]
  | trackNumber =>
    obtain ⟨number, small, rfl⟩ := kind
    have same : readText (decimalText number) = decimalText number := readText_decimalText number
    have parsed : parseTrackText unicode (decimalText number) = boundedTrack number := parseTrackText_toDigits small
    simp only [readText] at same
    cases format <;>
      simp [verifyField, semanticCompareField, verifySemanticField, ParsedTagValues.get, normalizedValues, written,
        proposedValues, trackOf, textTrack, mp4Track, parseTrack, firstStr, Stored.str, normalizeTrackNumberText, same,
        parsed]

theorem verifyWrite_eq_nil {container : Container format} {tags : Tags} :
    verifyWrite unicode container tags = [] ↔
      ∀ field value, tags.get field = some value →
        verifyField unicode (parseFormatTags unicode container) field value = none := by
  rw [verifyWrite, List.filterMap_eq_nil_iff]
  refine ⟨fun nothing field value given => ?_, fun nothing field _ => ?_⟩
  · have := nothing field (mem_coreTagFields field)
    rwa [given] at this
  · cases given : tags.get field with
    | none => rfl
    | some value => exact nothing field value given

variable (unicode) in
/-- A forward write sets its fields alone, and is COMPLETED exactly when its texts are read back. -/
theorem writeAndVerify_proposed (container : Container format) (proposed : Proposed) :
    ((writeAndVerify unicode container proposed.toTags).1.status = .completed ↔ Legible unicode proposed.toTags) ∧
      ∀ key, (∀ field, key ≠ writeMap format field) →
        (writeAndVerify unicode container proposed.toTags).2.values key = container.values key := by
  obtain ⟨written, ran, mine, others⟩ := writeTags_ok (proposed.sets unicode) container
  rw [writeAndVerify_ok ran]
  refine ⟨?_, others⟩
  have complete : verifyWrite unicode written proposed.toTags = [] ↔ Legible unicode proposed.toTags := by
    rw [verifyWrite_eq_nil]
    have each : ∀ field value, proposed.get field = some value →
        (verifyField unicode (parseFormatTags unicode written) field value = none ↔
          ∀ text, value = .text text → unicode.nfc (readText text) = unicode.nfc text) := by
      intro field value given
      refine verifyField_proposed proposed (parseFormatTags_eq written) given ?_
      simp [mine field, given]
    constructor
    · intro nothing field text given
      exact (each field _ given).mp (nothing field _ given) text rfl
    · intro legible field value given
      exact (each field value given).mpr fun text is => legible field text (is ▸ given)
  rw [← complete]
  by_cases nothing : verifyWrite unicode written proposed.toTags = [] <;> simp [nothing]

/-! ## The undo -/

-- What the snapshot has for a field, of the values it reads.
def beforeValue (unicode : Unicode) (format : TagFormat) (field : Field) (values : List Stored) : TagValue :=
  match field with
  | .genre => rawGenreValue values
  | .trackNumber =>
      match rawTrackText unicode values with
      | some text => .text text
      | none => ofNumber (parseTrack unicode (trackOf format values))
  | _ => ofText (firstStr values)

theorem extractBeforeTags_get (container : Container format) (field : Field) :
    (extractBeforeTags unicode container).get field =
      some (beforeValue unicode format field (container.values (writeMap format field))) := by
  simp only [extractBeforeTags, parseFormatTags_eq, normalizedValues, ParsedTagValues.get]
  cases field with
  | artist | title | album => rfl
  | year =>
    cases first : firstStr (container.values (writeMap format .year)) <;> simp [first, beforeValue, ofText, parseYear, ofNumber]
  | genre =>
    cases values : container.values (writeMap format .genre) with
    | nil => simp [beforeValue, rawGenreValue, firstStr, ofText]
    | cons head rest =>
      have some_genre : rawGenreValue (head :: rest) ≠ .none := by
        cases rest <;> simp [rawGenreValue]
      simp [beforeValue, some_genre]
  | trackNumber =>
    cases raw : rawTrackText unicode (container.values (writeMap format .trackNumber)) <;>
      simp [raw, beforeValue, ofText]

variable (unicode) in
theorem mp4TrackTuple_rawTrackTuple {track total : Int} (fits : (Stored.pair track total).Fits format "trkn") :
    ∃ text, rawTrackTuple track total = some text ∧ mp4TrackTuple unicode (.text text) = .ok (track, total) := by
  obtain ⟨-, -, trackPos, trackSmall, totalPos, totalSmall⟩ := fits
  lift track to Nat using trackPos
  lift total to Nat using totalPos
  have parses : ∀ number : Nat, number < 65536 → parseInt unicode (Nat.toDigits 10 number) = some (number : Int) :=
    fun number small => parseInt_toDigits (short_toDigits small)
  have solid : ∀ number, '/' ∉ Nat.toDigits 10 number := fun number => not_mem_toDigits (by decide)
  have digits : ∀ number : Nat, (Nat.toDigits 10 number).all unicode.isDigit = true := fun number =>
    List.all_eq_true.mpr fun char member => unicode.digit_of_digit char (isDigit_of_mem member)
  by_cases bare : total = 0
  · subst bare
    refine ⟨Nat.toDigits 10 track, rfl, ?_⟩
    rw [mp4TrackTuple, if_neg (solid track), parses track (by omega)]
    rfl
  · refine ⟨Nat.toDigits 10 track ++ '/' :: Nat.toDigits 10 total, ?_, ?_⟩
    · rw [rawTrackTuple, if_pos (by exact_mod_cast bare)]
      rfl
    · rw [mp4TrackTuple, if_pos (by simp), takeWhile_slash, dropWhile_slash]
      simp only [List.tail_cons, strip_toDigits, Nat.toDigits_ne_nil, ne_eq, not_false_eq_true, digits, and_self, if_true,
        parses track (by omega), parses total (by omega), Option.elim_some]
      rfl

-- What the undo sets a field to.
def undoneValues (unicode : Unicode) (format : TagFormat) (field : Field) (values : List Stored) : List Stored :=
  if format = .mp4 ∧ field = .trackNumber then values.take 1 else textValues (beforeValue unicode format field values)

theorem text_of_mem {value : TagValue} {stored : Stored} (member : stored ∈ textValues value) :
    ∃ text, stored = .text text := by
  cases value with
  | none => cases member
  | text text => exact ⟨text, List.mem_singleton.mp member⟩
  | number number => exact ⟨_, List.mem_singleton.mp member⟩
  | texts texts =>
    obtain ⟨text, -, rfl⟩ := List.mem_map.mp member
    exact ⟨text, rfl⟩

variable (unicode) in
theorem before_sets (container : Container format) :
    Sets unicode (extractBeforeTags unicode container)
      (fun field => undoneValues unicode format field (container.values (writeMap format field))) format := by
  intro field value given
  rw [extractBeforeTags_get] at given
  obtain rfl := Option.some.inj given
  by_cases atom : format = .mp4 ∧ field = .trackNumber
  · obtain ⟨rfl, rfl⟩ := atom
    have fits := container.fits (writeMap .mp4 .trackNumber)
    simp only [undoneValues, and_self, if_true]
    refine ⟨?_, fun stored member => fits stored (List.mem_of_mem_take member)⟩
    cases values : container.values (writeMap .mp4 .trackNumber) with
    | nil => rfl
    | cons head rest =>
      rw [values] at fits
      have fit := fits head List.mem_cons_self
      cases head with
      | text text => exact absurd ⟨rfl, rfl⟩ fit
      | pair track total =>
        obtain ⟨text, raw, tuple⟩ := mp4TrackTuple_rawTrackTuple unicode fit
        simp [beforeValue, rawTrackText, raw, fieldValues, mp4Values, tuple, bind, Except.bind, pure, Except.pure]
  · simp only [undoneValues, if_neg atom]
    refine ⟨?_, fun stored member => ?_⟩
    · cases format <;> cases field <;> first | rfl | exact absurd ⟨rfl, rfl⟩ atom
    · obtain ⟨text, rfl⟩ := text_of_mem member
      exact fits_text text atom

@[simp]
theorem ofNumber_inj {first second : Option Int} : ofNumber first = ofNumber second ↔ first = second := by
  cases first <;> cases second <;> simp [ofNumber]

-- When reading a field loses nothing of it.
def Restorable (unicode : Unicode) (format : TagFormat) (field : Field) (values : List Stored) : Prop :=
  match field with
  | .genre =>
      (∃ text, values = [.text text] ∧ sanitizePgText text = text ∧ unicode.nfc (repairMojibake text) = unicode.nfc text) ∨
        values.length ≠ 1 ∧ ∀ text, .text text ∈ values → sanitizePgText text = text
  | .trackNumber =>
      if format = .mp4 then values.length ≤ 1
      else values = [] ∨ ∃ text, values = [.text text] ∧ text ≠ [] ∧ strip unicode (sanitizePgText text) = text ∧
        parseTrackText unicode text = parseTrackText unicode (readText text)
  | _ => values = [] ∨ ∃ text, values = [.text text] ∧ readText text = text

-- The verify of the undo for a field that it restores.
def Verifies (unicode : Unicode) (format : TagFormat) (field : Field) (values : List Stored) : Prop :=
  ∀ source, source field = values →
    verifyField unicode (normalizedValues unicode source (trackOf format)) field (beforeValue unicode format field values) =
      none

theorem verifyField_refl {parsed : ParsedTagValues} {field : Field} {read : Option Text}
    (plain : semanticCompareField unicode field = none) (reads : parsed.get field = ofText read) :
    verifyField unicode parsed field (ofText read) = none := by
  cases read with
  | none => simp [verifyField, reads, ofText, verifyDeletedField]
  | some text => simp [verifyField, reads, ofText, plain, verifyNfcField, actualText]

theorem verifyField_year {parsed : ParsedTagValues} {read : Option Text} (reads : parsed.year = parseYear unicode read) :
    verifyField unicode parsed .year (ofText read) = none := by
  cases read with
  | none => simp [verifyField, ParsedTagValues.get, reads, ofText, verifyDeletedField, parseYear, ofNumber]
  | some text =>
    simp [verifyField, ParsedTagValues.get, reads, ofText, semanticCompareField, verifySemanticField, normalizeYearText]

-- A text that is written back as it was read.
theorem written_back_iff {values : List Stored} (texts : ∀ stored ∈ values, ∃ text, stored = .text text) :
    textValues (ofText (firstStr values)) = values ↔ values = [] ∨ ∃ text, values = [.text text] ∧ readText text = text := by
  cases values with
  | nil => simp [firstStr, ofText, textValues]
  | cons head rest =>
    obtain ⟨text, rfl⟩ := texts head List.mem_cons_self
    simp only [firstStr_cons, ofText, textValues, List.cons.injEq, Stored.text.injEq, reduceCtorEq,
      false_or]
    constructor
    · rintro ⟨same, rfl⟩
      exact ⟨text, ⟨rfl, rfl⟩, same⟩
    · rintro ⟨other, ⟨rfl, rfl⟩, same⟩
      exact ⟨same, rfl⟩

-- A field is verified against its own values.
theorem verifyField_congr {source other : Field → List Stored} {field : Field} (same : source field = other field)
    (expected : TagValue) :
    verifyField unicode (normalizedValues unicode source (trackOf format)) field expected =
      verifyField unicode (normalizedValues unicode other (trackOf format)) field expected := by
  cases field <;> cases expected <;>
    simp [verifyField, semanticCompareField, ParsedTagValues.get, normalizedValues, same]

theorem restorable_text {field : Field} (plain : field ≠ .genre ∧ field ≠ .trackNumber) {values : List Stored}
    (texts : ∀ stored ∈ values, ∃ text, stored = .text text) :
    undoneValues unicode format field values = values ∧ Verifies unicode format field values ↔
      Restorable unicode format field values := by
  have before : beforeValue unicode format field values = ofText (firstStr values) := by
    cases field <;> first | rfl | simp at plain
  have verifies : Verifies unicode format field values := by
    rintro source rfl
    rw [before]
    cases field with
    | genre | trackNumber => simp at plain
    | artist | title | album => exact verifyField_refl rfl rfl
    | year => exact verifyField_year rfl
  have restorable : Restorable unicode format field values ↔
      values = [] ∨ ∃ text, values = [.text text] ∧ readText text = text := by
    cases field <;> first | rfl | simp at plain
  rw [undoneValues, if_neg fun atom => plain.2 atom.2, before, restorable, written_back_iff texts]
  exact and_iff_left verifies

theorem verifyField_genre {source : Field → List Stored} (text : Text) (read : Text)
    (reads : firstStr (source .genre) = some read) :
    verifyField unicode (normalizedValues unicode source (trackOf format)) .genre (.text text) = none ↔
      unicode.nfc text = unicode.nfc read := by
  simp [verifyField, semanticCompareField, verifyNfcField, ParsedTagValues.get, normalizedValues, reads, ofText, actualText,
    TagValue.str]

theorem restorable_genre {values : List Stored} (texts : ∀ stored ∈ values, ∃ text, stored = .text text) :
    undoneValues unicode format .genre values = values ∧ Verifies unicode format .genre values ↔
      Restorable unicode format .genre values := by
  rw [undoneValues, if_neg (by simp)]
  match values with
  | [] =>
    have verifies : Verifies unicode format .genre [] := by
      intro source absent
      simp [beforeValue, rawGenreValue, verifyField, verifyDeletedField, ParsedTagValues.get, normalizedValues, firstStr,
        ofText, absent]
    simp [beforeValue, rawGenreValue, textValues, verifies, Restorable]
  | [stored] =>
    obtain ⟨text, rfl⟩ := texts stored (List.mem_singleton_self _)
    have verifies : Verifies unicode format .genre [.text text] ↔
        unicode.nfc (sanitizePgText text) = unicode.nfc (readText text) := by
      constructor
      · intro verifies
        exact (verifyField_genre _ _ rfl).mp (verifies (fun _ => [.text text]) rfl)
      · intro same source holds
        exact (verifyField_genre _ _ (by rw [holds]; rfl)).mpr same
    have undone : textValues (beforeValue unicode format .genre [.text text]) = [.text text] ↔
        sanitizePgText text = text := by
      simp [beforeValue, rawGenreValue, textValues, Stored.str]
    rw [verifies, undone]
    simp only [Restorable, List.length_singleton, ne_eq, not_true_eq_false, false_and, or_false, List.cons.injEq,
      Stored.text.injEq, and_true, exists_eq_left']
    refine and_congr_right fun clean => ?_
    rw [readText, clean, eq_comm]
  | first :: second :: rest =>
    have before : beforeValue unicode format .genre (first :: second :: rest) =
        .texts ((first :: second :: rest).map fun stored => sanitizePgText stored.str) := by
      simp [beforeValue, rawGenreValue]
    have verifies : Verifies unicode format .genre (first :: second :: rest) := by
      intro source holds
      rw [before]
      simp [verifyField, verifyGenreListField, normalizedValues, rawGenreValue, holds]
    rw [before]
    refine (and_iff_left verifies).trans ?_
    have many : (first :: second :: rest).length ≠ 1 := by simp
    simp only [Restorable, many, ne_eq, not_false_eq_true, true_and, List.cons.injEq, reduceCtorEq, and_false, false_and,
      exists_false, false_or]
    generalize first :: second :: rest = values at texts
    rw [textValues, List.map_map]
    constructor
    · intro same text member
      have kept := List.map_eq_map_iff.mp (same.trans (List.map_id values).symm) (.text text) member
      simpa [Stored.str] using kept
    · intro clean
      refine (List.map_congr_left fun stored member => ?_).trans (List.map_id values)
      obtain ⟨text, rfl⟩ := texts stored member
      simp [Stored.str, clean text member]

theorem parseTrackText_rawTrackTuple {track total : Int} (fits : (Stored.pair track total).Fits format "trkn") {text : Text}
    (raw : rawTrackTuple track total = some text) : parseTrackText unicode text = boundedTrack track := by
  obtain ⟨-, -, trackPos, trackSmall, totalPos, totalSmall⟩ := fits
  lift track to Nat using trackPos
  lift total to Nat using totalPos
  by_cases bare : total = 0
  · subst bare
    obtain rfl : Nat.toDigits 10 track = text := Option.some.inj raw
    exact parseTrackText_toDigits (by omega)
  · rw [rawTrackTuple, if_pos (by exact_mod_cast bare)] at raw
    obtain rfl : Nat.toDigits 10 track ++ '/' :: Nat.toDigits 10 total = text := Option.some.inj raw
    have slashed : '/' ∈ Nat.toDigits 10 track ++ '/' :: Nat.toDigits 10 total := by simp
    rw [parseTrackText]
    simp only [strip_slashed, if_pos slashed, takeWhile_slash, strip_toDigits, Nat.toDigits_ne_nil, if_false,
      parseInt_toDigits (short_toDigits (show track < 65536 by omega)), Option.bind_some]

theorem restorable_mp4Track {values : List Stored} (fits : ∀ stored ∈ values, stored.Fits .mp4 "trkn") :
    undoneValues unicode .mp4 .trackNumber values = values ∧ Verifies unicode .mp4 .trackNumber values ↔
      Restorable unicode .mp4 .trackNumber values := by
  simp only [undoneValues, and_self, if_true, Restorable, List.take_eq_self_iff]
  refine and_iff_left_of_imp fun single => ?_
  match values with
  | [] =>
    intro source absent
    simp [beforeValue, rawTrackText, trackOf, mp4Track, parseTrack, ofNumber, verifyField, verifyDeletedField,
      ParsedTagValues.get, normalizedValues, absent]
  | [stored] =>
    intro source holds
    have fit := fits stored (List.mem_singleton_self _)
    cases stored with
    | text text => exact absurd ⟨rfl, rfl⟩ fit
    | pair track total =>
      obtain ⟨text, raw, -⟩ := mp4TrackTuple_rawTrackTuple unicode fit
      have parsed : parseTrackText unicode text = boundedTrack track := parseTrackText_rawTrackTuple fit raw
      simp [beforeValue, rawTrackText, raw, trackOf, mp4Track, parseTrack, verifyField, semanticCompareField,
        verifySemanticField, normalizeTrackNumberText, ParsedTagValues.get, normalizedValues, holds, parsed]
  | _ :: _ :: _ => simp at single

theorem restorable_textTrack (plain : format ≠ .mp4) {values : List Stored}
    (texts : ∀ stored ∈ values, ∃ text, stored = .text text) :
    undoneValues unicode format .trackNumber values = values ∧ Verifies unicode format .trackNumber values ↔
      Restorable unicode format .trackNumber values := by
  have track : trackOf format = textTrack := by
    cases format <;> first | rfl | exact absurd rfl plain
  rw [undoneValues, if_neg (by simp [plain]), Restorable, if_neg plain]
  match values with
  | [] =>
    have verifies : Verifies unicode format .trackNumber [] := by
      intro source absent
      simp [beforeValue, rawTrackText, track, textTrack, firstStr, parseTrack, ofNumber, verifyField, verifyDeletedField,
        ParsedTagValues.get, normalizedValues, absent]
    simp [beforeValue, rawTrackText, track, textTrack, firstStr, parseTrack, ofNumber, textValues, verifies]
  | first :: second :: rest =>
    have short : (textValues (beforeValue unicode format .trackNumber (first :: second :: rest))).length ≤ 1 := by
      rw [beforeValue]
      split
      · exact le_rfl
      · cases parseTrack unicode (trackOf format (first :: second :: rest)) <;> simp [ofNumber, textValues]
    have apart : textValues (beforeValue unicode format .trackNumber (first :: second :: rest)) ≠ first :: second :: rest := by
      intro same
      rw [same] at short
      simp at short
    simp [apart]
  | [.pair track total] =>
    obtain ⟨text, is⟩ := texts _ (List.mem_singleton_self _)
    cases is
  | [.text text] =>
    by_cases blank : strip unicode (sanitizePgText text) = []
    · have before : beforeValue unicode format .trackNumber [.text text] =
          ofNumber (parseTrackText unicode (readText text)) := by
        simp [beforeValue, rawTrackText, blank, track, textTrack, parseTrack]
      have apart : textValues (ofNumber (parseTrackText unicode (readText text))) ≠ [.text text] := by
        cases parsed : parseTrackText unicode (readText text) with
        | none => simp [ofNumber, textValues]
        | some number =>
          -- A text that is all digits is not blank.
          intro same
          have positive := (bounded_of_parseTrackText parsed).1
          lift number to Nat using positive
          simp only [ofNumber, textValues, List.cons.injEq, Stored.text.injEq, and_true] at same
          rw [← same, sanitizePgText_decimalText] at blank
          exact Nat.toDigits_ne_nil ((strip_toDigits number).symm.trans blank)
      rw [before]
      simp only [apart, false_and, List.cons_ne_nil, false_or, List.cons.injEq, Stored.text.injEq, and_true,
        exists_eq_left', false_iff, not_and]
      intro solid same
      exact absurd (same.symm.trans blank) solid
    · have before : beforeValue unicode format .trackNumber [.text text] = .text (strip unicode (sanitizePgText text)) := by
        simp [beforeValue, rawTrackText, blank]
      rw [before]
      simp only [textValues, List.cons.injEq, Stored.text.injEq, and_true, List.cons_ne_nil, false_or, exists_eq_left']
      have verifies : Verifies unicode format .trackNumber [.text text] ↔
          parseTrackText unicode (strip unicode (sanitizePgText text)) = parseTrackText unicode (readText text) := by
        have each : ∀ source : Field → List Stored, source .trackNumber = [.text text] →
            (verifyField unicode (normalizedValues unicode source (trackOf format)) .trackNumber
              (.text (strip unicode (sanitizePgText text))) = none ↔
              parseTrackText unicode (strip unicode (sanitizePgText text)) = parseTrackText unicode (readText text)) := by
          intro source holds
          simp [verifyField, semanticCompareField, verifySemanticField, normalizeTrackNumberText, ParsedTagValues.get,
            normalizedValues, holds, track, textTrack, parseTrack]
        rw [Verifies, before]
        exact ⟨fun verifies => (each (fun _ => [.text text]) rfl).mp (verifies _ rfl),
          fun same source holds => (each source holds).mpr same⟩
      rw [verifies]
      constructor
      · rintro ⟨same, parsed⟩
        exact ⟨fun empty => blank (same.trans empty), same, by rwa [same] at parsed⟩
      · rintro ⟨-, same, parsed⟩
        exact ⟨same, by rwa [same]⟩

theorem restorable_iff (container : Container format) (field : Field) :
    undoneValues unicode format field (container.values (writeMap format field)) =
        container.values (writeMap format field) ∧
      Verifies unicode format field (container.values (writeMap format field)) ↔
      Restorable unicode format field (container.values (writeMap format field)) := by
  have fits := container.fits (writeMap format field)
  by_cases atom : format = .mp4 ∧ field = .trackNumber
  · obtain ⟨rfl, rfl⟩ := atom
    exact restorable_mp4Track fits
  have texts : ∀ stored ∈ container.values (writeMap format field), ∃ text, stored = .text text := by
    intro stored member
    cases stored with
    | text text => exact ⟨text, rfl⟩
    | pair track total =>
      obtain ⟨rfl, key, -⟩ := fits _ member
      cases field with
      | trackNumber => exact absurd ⟨rfl, rfl⟩ atom
      | artist | title | album | year | genre => exact absurd key (by decide)
  by_cases plain : field ≠ .genre ∧ field ≠ .trackNumber
  · exact restorable_text plain texts
  · by_cases genre : field = .genre
    · subst genre
      exact restorable_genre texts
    · obtain rfl : field = .trackNumber := by
        by_contra other
        exact plain ⟨genre, other⟩
      exact restorable_textTrack (fun mp4 => atom ⟨mp4, rfl⟩) texts

/-! ## Whole sequences -/

-- The forward writes, one on what the other left.
def forwardWrites (unicode : Unicode) (container : Container format) : List Proposed → List (Outcome × Container format)
  | [] => []
  | proposed :: rest =>
      let written := writeAndVerify unicode container proposed.toTags
      written :: forwardWrites unicode written.2 rest

def lastOf (container : Container format) (writes : List (Outcome × Container format)) : Container format :=
  (writes.getLast?.map Prod.snd).getD container

-- The undo carries the snapshot of the first write.
def undoWrite (unicode : Unicode) (container : Container format) (first : Proposed) (rest : List Proposed) :
    Outcome × Container format :=
  writeAndVerify unicode (lastOf container (forwardWrites unicode container (first :: rest)))
    (writeAndVerify unicode container first.toTags).1.beforeTags

structure RoundTrips (unicode : Unicode) (container : Container format) (first : Proposed) (rest : List Proposed) : Prop where
  forward : ∀ write ∈ forwardWrites unicode container (first :: rest), write.1.status = .completed
  completed : (undoWrite unicode container first rest).1.status = .completed
  noDiscrepancies : (undoWrite unicode container first rest).1.discrepancies = some []
  restored : ∀ field, (undoWrite unicode container first rest).2.values (writeMap format field) =
    container.values (writeMap format field)
  untouched : ∀ key, (∀ field, key ≠ writeMap format field) →
    (∀ write ∈ forwardWrites unicode container (first :: rest), write.2.values key = container.values key) ∧
      (undoWrite unicode container first rest).2.values key = container.values key

theorem forwardWrites_untouched (container : Container format) (dicts : List Proposed) {key : String}
    (outside : ∀ field, key ≠ writeMap format field) :
    ∀ write ∈ forwardWrites unicode container dicts, write.2.values key = container.values key := by
  induction dicts generalizing container with
  | nil => simp [forwardWrites]
  | cons proposed rest ih =>
    have here := (writeAndVerify_proposed unicode container proposed).2 key outside
    intro write member
    rcases List.mem_cons.mp member with rfl | member
    · exact here
    · exact (ih _ write member).trans here

theorem forwardWrites_completed (container : Container format) (dicts : List Proposed) :
    (∀ write ∈ forwardWrites unicode container dicts, write.1.status = .completed) ↔
      ∀ proposed ∈ dicts, Legible unicode proposed.toTags := by
  induction dicts generalizing container with
  | nil => simp [forwardWrites]
  | cons proposed rest ih =>
    rw [forwardWrites, List.forall_mem_cons, List.forall_mem_cons, ih]
    exact and_congr_left fun _ => (writeAndVerify_proposed unicode container proposed).1

theorem lastOf_untouched (container : Container format) (dicts : List Proposed) {key : String}
    (outside : ∀ field, key ≠ writeMap format field) :
    (lastOf container (forwardWrites unicode container dicts)).values key = container.values key := by
  unfold lastOf
  cases last : (forwardWrites unicode container dicts).getLast? with
  | none => rfl
  | some write => exact forwardWrites_untouched container dicts outside write (List.mem_of_mem_getLast? last)

-- The snapshot a write returns is of the container it met.
theorem writeAndVerify_before (container : Container format) (tags : Tags) :
    (writeAndVerify unicode container tags).1.beforeTags = extractBeforeTags unicode container := by
  rw [writeAndVerify]
  split <;> rfl

variable (unicode) in
theorem undoWrite_eq (container : Container format) (first : Proposed) (rest : List Proposed) :
    ∃ written, undoWrite unicode container first rest =
        ({ status := if verifyWrite unicode written (extractBeforeTags unicode container) = [] then .completed else .discrepancy
           discrepancies := some (verifyWrite unicode written (extractBeforeTags unicode container))
           beforeTags := extractBeforeTags unicode
            (lastOf container (forwardWrites unicode container (first :: rest))) }, written) ∧
      (∀ field, written.values (writeMap format field) =
        undoneValues unicode format field (container.values (writeMap format field))) ∧
      ∀ key, (∀ field, key ≠ writeMap format field) → written.values key = container.values key := by
  obtain ⟨written, ran, mine, others⟩ := writeTags_ok (before_sets unicode container)
    (lastOf container (forwardWrites unicode container (first :: rest)))
  refine ⟨written, ?_, ?_, ?_⟩
  · rw [undoWrite, writeAndVerify_before, writeAndVerify_ok ran]
  · intro field
    rw [mine field, extractBeforeTags_get]
    simp
  · intro key outside
    rw [others key outside]
    exact lastOf_untouched container (first :: rest) outside

/-- A sequence of forward writes and its undo bring every container back, all of them COMPLETED, exactly when
reading the container loses nothing of its fields and the forward texts are read back as they were written. -/
theorem roundTrips_iff (unicode : Unicode) (container : Container format) (first : Proposed) (rest : List Proposed) :
    RoundTrips unicode container first rest ↔
      (∀ field, Restorable unicode format field (container.values (writeMap format field))) ∧
        ∀ proposed ∈ first :: rest, Legible unicode proposed.toTags := by
  obtain ⟨written, undone, mine, others⟩ := undoWrite_eq unicode container first rest
  have verified : verifyWrite unicode written (extractBeforeTags unicode container) = [] ↔
      ∀ field, verifyField unicode
        (normalizedValues unicode (fun field => written.values (writeMap format field)) (trackOf format)) field
        (beforeValue unicode format field (container.values (writeMap format field))) = none := by
    rw [verifyWrite_eq_nil, parseFormatTags_eq]
    simp [extractBeforeTags_get]
  constructor
  · intro trips
    refine ⟨fun field => (restorable_iff container field).mp ⟨?_, ?_⟩, (forwardWrites_completed container _).mp trips.forward⟩
    · rw [← mine field]
      simpa [undone] using trips.restored field
    · have nothing : verifyWrite unicode written (extractBeforeTags unicode container) = [] := by
        simpa [undone] using trips.noDiscrepancies
      intro source holds
      rw [← verified.mp nothing field]
      refine verifyField_congr (holds.trans ?_) _
      simpa [undone] using (trips.restored field).symm
  · rintro ⟨restorable, legible⟩
    have restored : ∀ field, written.values (writeMap format field) = container.values (writeMap format field) :=
      fun field => (mine field).trans ((restorable_iff container field).mpr (restorable field)).1
    have nothing : verifyWrite unicode written (extractBeforeTags unicode container) = [] :=
      verified.mpr fun field => ((restorable_iff container field).mpr (restorable field)).2 _ (restored field)
    exact
      { forward := (forwardWrites_completed container _).mpr legible
        completed := by simp [undone, nothing]
        noDiscrepancies := by simp [undone, nothing]
        restored := by simpa [undone] using restored
        untouched := fun key outside => ⟨forwardWrites_untouched container _ outside, by simpa [undone] using others key outside⟩ }

end RoundTrip

/-! ## Two artists -/

namespace Artists

-- A database that knows the ASCII characters alone.
def ascii : Unicode where
  nfc := id
  isSpace char := char = ' '
  isDigit := Char.isDigit
  decimal char := if char.isDigit then some (char.toNat - '0'.toNat) else none
  space_of_digit := by
    intro char digit
    rw [decide_eq_false_iff_not]
    rintro rfl
    cases digit
  digit_of_digit _ digit := digit
  decimal_of_digit _ digit := if_pos digit

def container : Container .vorbis where
  values key := if key = "artist" then [.text ['A'], .text ['B']] else []
  fits := by
    intro key stored member
    split at member
    · simp only [List.mem_cons, List.not_mem_nil, or_false] at member
      rcases member with rfl | rfl <;> exact fun mp4 => by cases mp4.1
    · cases member

def titled : Proposed where
  get
    | .title => some (.text ['T'])
    | _ => none
  lists := by
    intro field texts given
    cases field <;> cases given
  kind := by
    intro field value given
    cases field <;> cases given
    exact ⟨_, rfl⟩

/-- A write of the title and its undo leave one artist of two. -/
theorem second_artist_is_lost :
    (undoWrite ascii container titled []).1.status = .completed ∧
      (undoWrite ascii container titled []).2.values "artist" = [.text ['A']] ∧
      ¬ RoundTrips ascii container titled [] := by
  have lost : (undoWrite ascii container titled []).2.values "artist" = [.text ['A']] := by decide
  refine ⟨by decide, lost, fun trips => ?_⟩
  have restored := trips.restored .artist
  change (undoWrite ascii container titled []).2.values "artist" = container.values "artist" at restored
  rw [lost] at restored
  exact absurd restored (by decide)

end Artists

end Phaze.Tagging
