import Phaze.Tagging.Protocol
import Phaze.Tagging.Texts

set_option autoImplicit false

/-!
# Tag containers

Reading and writing the six core fields of a container (`services/metadata_parsing.py`,
`services/tag_write_disk.py`). A container is what mutagen saves and reloads: a list of values for each key,
empty where the key is absent. The track atom of MP4 holds pairs, everything else texts.
-/

namespace Phaze.Tagging

open Shared

inductive TagFormat where
  | id3
  | vorbis
  | mp4
  | asf
deriving DecidableEq

inductive Field where
  | artist
  | title
  | album
  | year
  | genre
  | trackNumber
deriving DecidableEq

-- `_CORE_TAG_FIELDS`
def coreTagFields : List Field := [.artist, .title, .album, .year, .genre, .trackNumber]

theorem mem_coreTagFields (field : Field) : field ∈ coreTagFields := by
  cases field <;> decide

/-! ## The maps -/

def writeId3Map : Field → String
  | .artist => "TPE1"
  | .title => "TIT2"
  | .album => "TALB"
  | .year => "TDRC"
  | .genre => "TCON"
  | .trackNumber => "TRCK"

def writeVorbisMap : Field → String
  | .artist => "artist"
  | .title => "title"
  | .album => "album"
  | .year => "date"
  | .genre => "genre"
  | .trackNumber => "tracknumber"

def writeMp4Map : Field → String
  | .artist => "©ART"
  | .title => "©nam"
  | .album => "©alb"
  | .year => "©day"
  | .genre => "©gen"
  | .trackNumber => "trkn"

def writeAsfMap : Field → String
  | .artist => "Author"
  | .title => "Title"
  | .album => "WM/AlbumTitle"
  | .year => "WM/Year"
  | .genre => "WM/Genre"
  | .trackNumber => "WM/TrackNumber"

def writeMap : TagFormat → Field → String
  | .id3 => writeId3Map
  | .vorbis => writeVorbisMap
  | .mp4 => writeMp4Map
  | .asf => writeAsfMap

def id3Map : List (String × Field) :=
  [("TPE1", .artist), ("TIT2", .title), ("TALB", .album), ("TDRC", .year), ("TCON", .genre), ("TRCK", .trackNumber)]

def vorbisMap : List (String × Field) :=
  [("artist", .artist), ("title", .title), ("album", .album), ("date", .year), ("genre", .genre),
    ("tracknumber", .trackNumber)]

def mp4Map : List (String × Field) :=
  [("©ART", .artist), ("©nam", .title), ("©alb", .album), ("©day", .year), ("©gen", .genre), ("trkn", .trackNumber)]

def asfMap : List (String × Field) :=
  [("Author", .artist), ("Title", .title), ("WM/AlbumTitle", .album), ("WM/Year", .year), ("WM/Genre", .genre),
    ("WM/TrackNumber", .trackNumber)]

theorem writeMap_inj {format : TagFormat} {first second : Field} (same : writeMap format first = writeMap format second) :
    first = second := by
  revert same
  cases format <;> cases first <;> cases second <;> decide

/-! ## The values -/

inductive Stored where
  | text (text : Text)
  | pair (track total : Int)
deriving DecidableEq

-- What a key can hold: a track atom is two 16-bit numbers.
def Stored.Fits (format : TagFormat) (key : String) : Stored → Prop
  | .text _ => ¬ (format = .mp4 ∧ key = "trkn")
  | .pair track total => format = .mp4 ∧ key = "trkn" ∧ 0 ≤ track ∧ track < 65536 ∧ 0 ≤ total ∧ total < 65536

instance (format : TagFormat) (key : String) (stored : Stored) : Decidable (stored.Fits format key) :=
  match stored with
  | .text _ => inferInstanceAs (Decidable (¬ _))
  | .pair _ _ => inferInstanceAs (Decidable (_ ∧ _))

structure Container (format : TagFormat) where
  values : String → List Stored
  fits : ∀ key, ∀ stored ∈ values key, stored.Fits format key

-- The values of a tag dict.
inductive TagValue where
  | none
  | text (text : Text)
  | number (number : Int)
  | texts (texts : List Text)
deriving DecidableEq

-- A dict of tags. Only a genre is ever a list.
structure Tags where
  get : Field → Option TagValue
  lists : ∀ field texts, get field = some (.texts texts) → field = .genre

-- `str(value)`; a list is never asked for its text.
def TagValue.str : TagValue → Text
  | .none | .texts _ => []
  | .text value => value
  | .number value => decimalText value

def Stored.str : Stored → Text
  | .text value => value
  | .pair track total => '(' :: decimalText track ++ ", ".toList ++ decimalText total ++ [')']

/-! ## Writing -/

inductive WriteError where
  | value
  | save
deriving DecidableEq

section Writing

variable {format : TagFormat}

-- A key that is set and saved; no values delete it.
def Container.put (container : Container format) (key : String) (values : List Stored) :
    Except WriteError (Container format) :=
  if fits : ∀ stored ∈ values, stored.Fits format key then
    .ok
      { values := Function.update container.values key values
        fits := by
          intro other stored member
          by_cases same : other = key
          · subst same
            exact fits stored (by simpa using member)
          · exact container.fits other stored (by simpa [same] using member) }
  else .error .save

-- What one field is set to where its values are texts.
def textValues : TagValue → List Stored
  | .none => []
  | .texts texts => texts.map .text
  | .text text => [.text text]
  | .number number => [.text (decimalText number)]

def mp4TrackTuple (unicode : Unicode) : TagValue → Except WriteError (Int × Int)
  | .text text =>
      if '/' ∈ text then
        let part := fun text => if strip unicode text ≠ [] ∧ (strip unicode text).all unicode.isDigit
          then (parseInt unicode (strip unicode text)).elim (.error .value) .ok else .ok 0
        do return (← part (text.takeWhile (· ≠ '/')), ← part (text.dropWhile (· ≠ '/')).tail)
      else (parseInt unicode text).elim (.error .value) fun number => .ok (number, 0)
  | .number number => .ok (number, 0)
  | .none | .texts _ => .error .value

-- The loop of a writer over the fields of the dict.
def writeFields (container : Container format) (keys : Field → String)
    (valuesOf : Field → TagValue → Except WriteError (List Stored)) (tags : Tags) : Except WriteError (Container format) :=
  coreTagFields.foldlM (fun container field =>
    match tags.get field with
    | none => .ok container
    | some value => do container.put (keys field) (← valuesOf field value)) container

def writeId3 (container : Container format) (tags : Tags) : Except WriteError (Container format) :=
  writeFields container writeId3Map (fun _ value => .ok (textValues value)) tags

def writeVorbis (container : Container format) (tags : Tags) : Except WriteError (Container format) :=
  writeFields container writeVorbisMap (fun _ value => .ok (textValues value)) tags

def writeAsf (container : Container format) (tags : Tags) : Except WriteError (Container format) :=
  writeFields container writeAsfMap (fun _ value => .ok (textValues value)) tags

def mp4Values (unicode : Unicode) (field : Field) (value : TagValue) : Except WriteError (List Stored) :=
  match field, value with
  | .trackNumber, .text _ | .trackNumber, .number _ => do
      let pair ← mp4TrackTuple unicode value
      return [.pair pair.1 pair.2]
  | _, _ => .ok (textValues value)

def writeMp4 (unicode : Unicode) (container : Container format) (tags : Tags) : Except WriteError (Container format) :=
  writeFields container writeMp4Map (mp4Values unicode) tags

-- `_WRITERS`
def writeTags (unicode : Unicode) (container : Container format) (tags : Tags) : Except WriteError (Container format) :=
  match format with
  | .id3 => writeId3 container tags
  | .vorbis => writeVorbis container tags
  | .mp4 => writeMp4 unicode container tags
  | .asf => writeAsf container tags

end Writing

/-! ## Reading -/

structure ParsedTagValues where
  artist : Option Text
  title : Option Text
  album : Option Text
  year : Option Int
  genre : Option Text
  trackNumber : Option Int
  rawYear : Option Text
  rawTrackNumber : Option Text
  rawGenre : TagValue

section Reading

variable {format : TagFormat}

-- `_first_str`
def firstStr : List Stored → Option Text
  | [] => none
  | stored :: _ => some (repairMojibake (sanitizePgText stored.str))

-- `_parse_track`, of the value that `_first_track_value` unwraps.
def parseTrack (unicode : Unicode) : Option Stored → Option Int
  | none => none
  | some (.pair track _) => boundedTrack track
  | some (.text text) => parseTrackText unicode text

-- `_raw_genre_value`
def rawGenreValue (values : List Stored) : TagValue :=
  match values.map fun stored => sanitizePgText stored.str with
  | [] => .none
  | [part] => .text part
  | parts => .texts parts

-- `_raw_track_tuple`
def rawTrackTuple (track total : Int) : Option Text :=
  if total ≠ 0 then some (decimalText track ++ '/' :: decimalText total) else some (decimalText track)

-- `_raw_track_text`
def rawTrackText (unicode : Unicode) : List Stored → Option Text
  | [] => none
  | .pair track total :: _ => rawTrackTuple track total
  | .text text :: _ =>
      let text := strip unicode (sanitizePgText text)
      if text = [] then none else some text

-- `_mapped_sources`: what the map has for a field.
def mappedSource (tags : Container format) (mapping : List (String × Field)) (field : Field) : List Stored :=
  match mapping.find? fun entry => entry.2 = field with
  | some (key, _) => tags.values key
  | none => []

-- `_normalized_values`; `track` is what the reader of the format makes of the track source.
def normalizedValues (unicode : Unicode) (source : Field → List Stored) (track : List Stored → Option Stored) :
    ParsedTagValues :=
  { artist := firstStr (source .artist)
    title := firstStr (source .title)
    album := firstStr (source .album)
    year := parseYear unicode (firstStr (source .year))
    genre := firstStr (source .genre)
    trackNumber := parseTrack unicode (track (source .trackNumber))
    rawYear := firstStr (source .year)
    rawTrackNumber := rawTrackText unicode (source .trackNumber)
    rawGenre := rawGenreValue (source .genre) }

-- `_text_value` and `_mp4_value`, for the track.
def textTrack (values : List Stored) : Option Stored :=
  (firstStr values).map .text

def mp4Track (values : List Stored) : Option Stored :=
  values.head?

def readId3 (unicode : Unicode) (tags : Container format) : ParsedTagValues :=
  normalizedValues unicode (mappedSource tags id3Map) textTrack

def readVorbis (unicode : Unicode) (tags : Container format) : ParsedTagValues :=
  normalizedValues unicode (mappedSource tags vorbisMap) textTrack

def readMp4 (unicode : Unicode) (tags : Container format) : ParsedTagValues :=
  normalizedValues unicode (mappedSource tags mp4Map) mp4Track

def readAsf (unicode : Unicode) (tags : Container format) : ParsedTagValues :=
  normalizedValues unicode (mappedSource tags asfMap) textTrack

-- `_READERS`
def parseFormatTags (unicode : Unicode) (tags : Container format) : ParsedTagValues :=
  match format with
  | .id3 => readId3 unicode tags
  | .vorbis => readVorbis unicode tags
  | .mp4 => readMp4 unicode tags
  | .asf => readAsf unicode tags

end Reading

/-! ## Verifying -/

structure Discrepancy where
  field : Field
  expected : Option Text
  actual : Option Text
deriving DecidableEq

def ofText : Option Text → TagValue
  | some text => .text text
  | none => .none

def ofNumber : Option Int → TagValue
  | some number => .number number
  | none => .none

-- `getattr(actual_tags, field)`
def ParsedTagValues.get (parsed : ParsedTagValues) : Field → TagValue
  | .artist => ofText parsed.artist
  | .title => ofText parsed.title
  | .album => ofText parsed.album
  | .year => ofNumber parsed.year
  | .genre => ofText parsed.genre
  | .trackNumber => ofNumber parsed.trackNumber

section Verifying

variable {format : TagFormat} (unicode : Unicode)

-- The NFC text of what was read, `None` for what is absent.
def actualText (actual : TagValue) : Option Text :=
  if actual = .none then none else some (unicode.nfc actual.str)

def normalizeYearText : TagValue → Option Int
  | .text text => parseYear unicode (some text)
  | .number number => parseYear unicode (some (decimalText number))
  | .none | .texts _ => none

def normalizeTrackNumberText : TagValue → Option Int
  | .text text => parseTrackText unicode text
  | .number number => parseTrackText unicode (decimalText number)
  | .texts texts => texts.head?.bind (parseTrackText unicode)
  | .none => none

-- `_SEMANTIC_COMPARE_FIELDS`
def semanticCompareField : Field → Option (TagValue → Option Int)
  | .year => some (normalizeYearText unicode)
  | .trackNumber => some (normalizeTrackNumberText unicode)
  | _ => none

def verifyDeletedField (field : Field) (actual : TagValue) : Option Discrepancy :=
  if actual = .none then none else some { field := field, expected := none, actual := actualText unicode actual }

def joined (texts : List Text) : Text :=
  ("; ".toList).intercalate texts

def verifyGenreListField (field : Field) (expected : List Text) (rawGenre : TagValue) : Option Discrepancy :=
  let actual := match rawGenre with
    | .texts texts => texts
    | .none => []
    | value => [value.str]
  if expected.map unicode.nfc = actual.map unicode.nfc then none
  else some
    { field := field
      expected := some (joined (expected.map unicode.nfc))
      actual := if actual = [] then none else some (joined (actual.map unicode.nfc)) }

def verifySemanticField (field : Field) (normalizer : TagValue → Option Int) (expected actual : TagValue) :
    Option Discrepancy :=
  if ofNumber (normalizer expected) = actual then none
  else some
    { field := field, expected := some (unicode.nfc expected.str), actual := actualText unicode actual }

def verifyNfcField (field : Field) (expected actual : TagValue) : Option Discrepancy :=
  if some (unicode.nfc expected.str) = actualText unicode actual then none
  else some
    { field := field, expected := some (unicode.nfc expected.str), actual := actualText unicode actual }

def verifyField (parsed : ParsedTagValues) (field : Field) (expected : TagValue) : Option Discrepancy :=
  let actual := parsed.get field
  match expected, field, semanticCompareField unicode field with
  | .none, _, _ => verifyDeletedField unicode field actual
  | .texts texts, .genre, _ => verifyGenreListField unicode field texts parsed.rawGenre
  | _, _, some normalizer => verifySemanticField unicode field normalizer expected actual
  | _, _, none => verifyNfcField unicode field expected actual

-- The loop over the dict.
def verifyWrite (container : Container format) (expected : Tags) : List Discrepancy :=
  coreTagFields.filterMap fun field =>
    (expected.get field).bind (verifyField unicode (parseFormatTags unicode container) field)

/-! ## One write -/

def extractBeforeTags (container : Container format) : Tags :=
  let tags := parseFormatTags unicode container
  { get := fun field => some (match field with
      | .year => if tags.rawYear ≠ none then ofText tags.rawYear else tags.get field
      | .trackNumber => if tags.rawTrackNumber ≠ none then ofText tags.rawTrackNumber else tags.get field
      | .genre => if tags.rawGenre ≠ .none then tags.rawGenre else tags.get field
      | _ => tags.get field)
    lists := by
      intro field texts is
      have text : ∀ value, ofText value ≠ .texts texts := by
        rintro (_ | _) <;> nofun
      have number : ∀ value, ofNumber value ≠ .texts texts := by
        rintro (_ | _) <;> nofun
      simp only [Option.some.injEq] at is
      cases field with
      | genre => rfl
      | artist | title | album => exact absurd is (text _)
      | year | trackNumber =>
        dsimp only at is
        split at is
        · exact absurd is (text _)
        · exact absurd is (number _) }

structure Outcome where
  status : TagWriteStatus
  discrepancies : Option (List Discrepancy)
  beforeTags : Tags

-- `write_and_verify_sync`; a save that raises has changed nothing.
def writeAndVerify (container : Container format) (proposed : Tags) : Outcome × Container format :=
  let before := extractBeforeTags unicode container
  match writeTags unicode container proposed with
  | .ok written =>
      let discrepancies := verifyWrite unicode written proposed
      ({ status := if discrepancies = [] then .completed else .discrepancy
         discrepancies := some discrepancies
         beforeTags := before }, written)
  | .error .save => ({ status := .saveFailed, discrepancies := none, beforeTags := before }, container)
  | .error .value => ({ status := .failed, discrepancies := none, beforeTags := before }, container)

end Verifying

end Phaze.Tagging
