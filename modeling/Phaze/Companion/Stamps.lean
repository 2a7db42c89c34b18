import Mathlib.Data.Finset.Image
import Mathlib.Data.Finset.Sort
import Mathlib.Data.List.Lex
import Mathlib.Data.Char
import Phaze.Shared.Chunks
import Phaze.Shared.Dict
import Phaze.Shared.Pages
import Phaze.Quarantine.Detector

set_option autoImplicit false

/-!
# Known stamps

The content features of the companions, as the control plane stores them, and the class it decides over the copies
of one content (`services/companion_content.py`). A features row is stored, dropped with its file or its old bytes,
and decided again together with every other copy of its content.

A row of `files` is read for its agent, path, type and unavailable markers; of a features row, for what the verdict
and `touched` read.
-/

namespace Phaze.Companion.Stamps

open Shared
open Quarantine.Detector (FileId JunkClass effectiveJunkClass mediaFolder)

/-! ## The rows -/

-- What decides whether a text is one of a list.
local instance : LawfulBEq Text := List.instLawfulBEq

-- `str.casefold` and `str.isalnum`
structure Characters where
  casefold : Text → Text
  isAlnum : Char → Bool

structure FileRecord where
  agentId : Text
  originalPath : Text
  fileType : Text
  -- `missing_at` and `companion_ambiguous_at`, set or not.
  missing : Bool
  ambiguous : Bool
  -- Agents post the absolute paths that they walked.
  rooted : '/' ∈ originalPath
deriving DecidableEq

-- `ContentJunkClass | None`: what the agent reports, and the check constraint of the column.
abbrev ContentJunkClass := { junkClass : Option JunkClass // junkClass.all JunkClass.perFile = true }

structure CompanionFeaturesRecord (Hash : Type) where
  originalPath : Text
  fingerprint : Hash
  contentJunkClass : ContentJunkClass
  folderMedia : List Text
deriving DecidableEq

structure CompanionContentFeatures (Hash : Type) where
  agentId : Text
  fingerprint : Hash
  contentJunkClass : ContentJunkClass
  junkClass : Option JunkClass
  folderMedia : List Text
deriving DecidableEq

structure Database (Hash : Type) where
  files : Dict FileId FileRecord
  features : Dict FileId (CompanionContentFeatures Hash)

def Database.new {Hash : Type} : Database Hash := ⟨.empty, .empty⟩

-- `INGESTIBLE_COMPANION_EXTENSIONS` and the music and video entries of `EXTENSION_MAP`, without their dots.
def COMPANION_FILE_TYPES : List Text := ["cue", "m3u", "m3u8", "nfo", "pls", "txt"].map String.toList

def MEDIA_FILE_TYPES : List Text :=
  ["mp3", "m4a", "ogg", "flac", "wav", "aiff", "wma", "aac", "opus", "mp2",
    "mp4", "mkv", "avi", "webm", "mov", "wmv", "flv"].map String.toList

def STAMP_MIN_FOLDERS : Nat := 3
def FINGERPRINT_PAGE : Nat := 1000

namespace FileRecord

variable (file : FileRecord)

def isCompanion : Bool := file.fileType ∈ COMPANION_FILE_TYPES
def isMedia : Bool := file.fileType ∈ MEDIA_FILE_TYPES

-- `available_companion_clause`
def available : Bool := !file.missing && !file.ambiguous

def folder : Text := mediaFolder file.originalPath

-- The part behind the last `/`, as `path.rpartition("/")` cuts it.
def name : Text := file.originalPath.rtakeWhile (· ≠ '/')

def mediaPlace : Option (Text × Text) := if file.isMedia then some (file.folder, file.name) else none

end FileRecord

/-! ## The verdict on one content -/

section Verdict

variable (characters : Characters)

def folderNameKey (directory : Text) : Text :=
  (characters.casefold ((PurePath.parts directory).getLast?.getD [])).filter characters.isAlnum

-- `frozenset.intersection(*media_sets)`
def intersection : List (Finset Text) → Finset Text
  | [] => ∅
  | first :: rest => rest.foldl (· ∩ ·) first

-- The members are the folder of each copy with the names of the media in it.
def isKnownStamp (members : List (Text × Finset Text)) : Bool :=
  let names := (members.map fun member => folderNameKey characters member.1).toFinset
  let mediaSets := (members.map Prod.snd).filter (· ≠ ∅)
  if names.card < STAMP_MIN_FOLDERS then false
  else if STAMP_MIN_FOLDERS ≤ mediaSets.toFinset.card then intersection mediaSets = ∅
  else mediaSets = []

-- The copies sit in three differently named folders, and either none holds media, or those that do hold three
-- different sets with nothing common to all.
def KnownStamp (copies : Finset (Text × Finset Text)) : Prop :=
  3 ≤ (copies.image fun copy => folderNameKey characters copy.1).card ∧
    ((∀ copy ∈ copies, copy.2 = ∅) ∨
      3 ≤ ((copies.image Prod.snd).erase ∅).card ∧
        ∀ name, ∃ copy ∈ copies, copy.2 ≠ ∅ ∧ name ∉ copy.2)

variable {characters} {members : List (Text × Finset Text)}

theorem mem_foldl_inter {sets : List (Finset Text)} {first : Finset Text} {name : Text} :
    name ∈ sets.foldl (· ∩ ·) first ↔ name ∈ first ∧ ∀ set ∈ sets, name ∈ set := by
  induction sets generalizing first with
  | nil => simp
  | cons set rest ih => simp [ih, and_assoc]

theorem mem_intersection {sets : List (Finset Text)} {name : Text} :
    name ∈ intersection sets ↔ sets ≠ [] ∧ ∀ set ∈ sets, name ∈ set := by
  cases sets with
  | nil => simp [intersection]
  | cons first rest => simp [intersection, mem_foldl_inter]

theorem isKnownStamp_iff : isKnownStamp characters members = true ↔ KnownStamp characters members.toFinset := by
  have names : (members.map fun member => folderNameKey characters member.1).toFinset =
      members.toFinset.image fun copy => folderNameKey characters copy.1 := by
    ext name
    simp
  have sets : ((members.map Prod.snd).filter (· ≠ ∅)).toFinset = (members.toFinset.image Prod.snd).erase ∅ := by
    ext set
    simp [and_comm]
  have none : (members.map Prod.snd).filter (· ≠ ∅) = [] ↔ ∀ copy ∈ members.toFinset, copy.2 = ∅ := by
    simp only [List.filter_eq_nil_iff, List.forall_mem_map, List.mem_toFinset, decide_eq_true_eq, not_not]
  have common : intersection ((members.map Prod.snd).filter (· ≠ ∅)) = ∅ ↔
      (members.map Prod.snd).filter (· ≠ ∅) = [] ∨ ∀ name, ∃ copy ∈ members.toFinset, copy.2 ≠ ∅ ∧ name ∉ copy.2 := by
    rw [Finset.eq_empty_iff_forall_notMem]
    simp only [mem_intersection, not_and_or, not_not, forall_or_left, not_forall]
    refine or_congr_right (forall_congr' fun name => ?_)
    constructor
    next =>
      rintro ⟨set, member, absent⟩
      obtain ⟨inside, some⟩ := List.mem_filter.mp member
      obtain ⟨copy, held, rfl⟩ := List.mem_map.mp inside
      exact ⟨copy, List.mem_toFinset.mpr held, of_decide_eq_true some, absent⟩
    next =>
      rintro ⟨copy, held, some, absent⟩
      have inside := List.mem_map_of_mem (f := Prod.snd) (List.mem_toFinset.mp held)
      exact ⟨copy.2, List.mem_filter.mpr ⟨inside, decide_eq_true some⟩, absent⟩
  rw [isKnownStamp, KnownStamp, names, sets]
  by_cases few : (members.toFinset.image fun copy => folderNameKey characters copy.1).card < STAMP_MIN_FOLDERS
  next =>
    rw [if_pos few]
    exact ⟨fun absurdity => (Bool.false_ne_true absurdity).elim, fun stamp => absurd stamp.1 (not_le.mpr few)⟩
  next =>
    rw [if_neg few, ← none]
    by_cases several : STAMP_MIN_FOLDERS ≤ ((members.toFinset.image Prod.snd).erase ∅).card
    next =>
      have some : (members.map Prod.snd).filter (· ≠ ∅) ≠ [] := by
        intro empty
        rw [← sets, empty] at several
        exact absurd several (by decide)
      rw [if_pos several, decide_eq_true_eq, common]
      exact ⟨fun stamp => ⟨not_lt.mp few, stamp.imp_right fun each => ⟨several, each⟩⟩,
        fun stamp => stamp.2.imp_right And.right⟩
    next =>
      rw [if_neg several, decide_eq_true_eq]
      exact ⟨fun empty => ⟨not_lt.mp few, .inl empty⟩, fun stamp => stamp.2.resolve_right fun each => several each.1⟩

end Verdict

/-! ## Deciding on write -/

variable (characters : Characters) {Hash : Type} [LinearOrder Hash]

namespace Database

variable (db : Database Hash) (agentId : Text)

def availableAt (id : FileId) : Bool := (db.files.get? id).any FileRecord.available

-- What `media_in_folders` finds for one of the folders it is asked for.
def mediaIn (folder : Text) : Finset Text :=
  (((db.files.items.map Prod.snd).filter fun file =>
    file.agentId = agentId && file.isMedia && file.folder = folder).map FileRecord.name).toFinset

def member (fingerprint : Hash) (id : FileId) (row : CompanionContentFeatures Hash) : Option (Text × Finset Text) :=
  (db.files.get? id).bind fun file =>
    if row.agentId = agentId ∧ row.fingerprint = fingerprint ∧ file.available = true then
      some (file.folder, db.mediaIn agentId file.folder)
    else none

def members (fingerprint : Hash) : List (Text × Finset Text) :=
  db.features.items.filterMap fun item => db.member agentId fingerprint item.1 item.2

def isStamp (fingerprint : Hash) : Bool := isKnownStamp characters (db.members agentId fingerprint)

-- The `UPDATE` of one page of fingerprints.
def settle (page pageStamps : List Hash) : Database Hash :=
  { db with
    features := db.features.mapValues fun id row =>
      let effective := effectiveJunkClass row.contentJunkClass.val (row.fingerprint ∈ pageStamps)
      if row.agentId = agentId ∧ row.fingerprint ∈ page ∧ row.junkClass ≠ effective ∧ db.availableAt id = true then
        { row with junkClass := effective }
      else row }

def refreshPage (apply : Bool) (state : Database Hash × Finset Hash) (page : List Hash) : Database Hash × Finset Hash :=
  let pageStamps := page.filter (state.1.isStamp characters agentId)
  (if apply then state.1.settle agentId page pageStamps else state.1, state.2 ∪ pageStamps.toFinset)

def refreshKnownStamps (fingerprints : Finset Hash) (apply : Bool) : Database Hash × Finset Hash :=
  ((Pages.ordered fingerprints).toChunks FINGERPRINT_PAGE).foldl (refreshPage characters agentId apply) (db, ∅)

-- `GROUP BY fingerprint HAVING count(*) >= 3 OR bool_or(junk_class = 'known_stamp')`
def candidates : Finset Hash :=
  let rows := (db.features.items.map Prod.snd).filter fun row => row.agentId = agentId
  (rows.map CompanionContentFeatures.fingerprint).toFinset.filter fun fingerprint =>
    let copies := rows.filter fun row => row.fingerprint = fingerprint
    STAMP_MIN_FOLDERS ≤ copies.length ∨ copies.any (fun row => row.junkClass = some .knownStamp) = true

structure Rechecked (Hash : Type) where
  db : Database Hash
  rechecked : Finset Hash
  stamps : Finset Hash

def recheck (apply : Bool) (state : Rechecked Hash) (page : List Hash) : Rechecked Hash :=
  let refreshed := state.db.refreshKnownStamps characters agentId page.toFinset apply
  ⟨refreshed.1, state.rechecked ∪ page.toFinset, state.stamps ∪ refreshed.2⟩

def refreshAgentStamps (apply : Bool) : Rechecked Hash :=
  Pages.walk (fun state => state.db.candidates agentId) (recheck characters agentId apply) FINGERPRINT_PAGE
    (db.features.items.length + 1) none ⟨db, ∅, ∅⟩

/-! ## What changes the members of a group -/

def stampGroupsIn (scope : FileId → Bool) : List (Text × Finset Hash) :=
  let rows := (db.features.items.filter fun item => scope item.1).map Prod.snd
  ((rows.map CompanionContentFeatures.agentId).toFinset.sort (· ≤ ·)).map fun agentId =>
    (agentId, ((rows.filter fun row => row.agentId = agentId).map CompanionContentFeatures.fingerprint).toFinset)

def refreshStampGroups (groups : List (Text × Finset Hash)) : Database Hash :=
  groups.foldl (fun db group => (db.refreshKnownStamps characters group.1 group.2 true).1) db

-- `delete_scan_cascade` and `delete_file_cascade`, of these two tables.
def deleteFiles (scope : FileId → Bool) : Database Hash :=
  let groups := db.stampGroupsIn scope
  let remaining : Database Hash :=
    ⟨db.files.filter fun id _ => !scope id, db.features.filter fun id _ => !scope id⟩
  remaining.refreshStampGroups characters groups

-- `invalidate_content_state`
def invalidate (id : FileId) : Database Hash :=
  let groups := db.stampGroupsIn (· = id)
  ({ db with features := db.features.pop id } : Database Hash).refreshStampGroups characters groups

def companionRows (paths : List Text) : Dict Text FileId :=
  db.files.items.foldl
    (fun found item =>
      if item.2.agentId = agentId ∧ item.2.originalPath ∈ paths ∧ item.2.isCompanion = true then
        found.set item.2.originalPath item.1
      else found)
    .empty

def touchedBy (id : FileId) (record : CompanionFeaturesRecord Hash) : List Hash :=
  let before := db.features.get? id
  if before.map (fun row => (row.fingerprint, row.folderMedia, row.contentJunkClass)) =
      some (record.fingerprint, record.folderMedia, record.contentJunkClass) then []
  else record.fingerprint :: (before.map CompanionContentFeatures.fingerprint).toList

-- `ON CONFLICT (file_id) DO UPDATE`: an unchanged copy keeps the verdict that it carries.
def upsert (features : Dict FileId (CompanionContentFeatures Hash)) (item : FileId × CompanionFeaturesRecord Hash) :
    Dict FileId (CompanionContentFeatures Hash) :=
  let record := item.2
  let keptStamp := (features.get? item.1).any fun row =>
    row.junkClass = some .knownStamp && row.fingerprint = record.fingerprint
  features.set item.1
    { agentId
      fingerprint := record.fingerprint
      contentJunkClass := record.contentJunkClass
      junkClass := effectiveJunkClass record.contentJunkClass.val keptStamp
      folderMedia := record.folderMedia }

structure StoreOutcome where
  stored : Nat
  unknown : Nat
deriving DecidableEq

def storeCompanionFeatures (records : List (CompanionFeaturesRecord Hash)) : Database Hash × StoreOutcome :=
  let byPath := records.foldl (fun found record => found.set record.originalPath record) (Dict.empty : Dict Text _)
  let fileIds := db.companionRows agentId byPath.keys
  if fileIds.items = [] then (db, ⟨0, byPath.items.length⟩)
  else
    let values := fileIds.items.filterMap fun item => (byPath.get? item.1).map fun record => (item.2, record)
    let touched := values.flatMap fun item => db.touchedBy item.1 item.2
    let stored : Database Hash := { db with features := values.foldl (upsert agentId) db.features }
    ((stored.refreshKnownStamps characters agentId touched.toFinset true).1,
      ⟨values.length, byPath.items.length - values.length⟩)

end Database

inductive Action (Hash : Type) where
  | store (agentId : Text) (records : List (CompanionFeaturesRecord Hash))
  -- The start of an association run or of a junk review.
  | associate (agentId : Text)
  | delete (scope : FileId → Bool)
  | invalidate (id : FileId)
  -- An upsert, a move, or a marker set or cleared. A row never changes its agent.
  | write (id : FileId) (file : FileRecord)

def step (db : Database Hash) : Action Hash → Option (Database Hash)
  | .store agentId records => some (db.storeCompanionFeatures characters agentId records).1
  | .associate agentId => some (db.refreshAgentStamps characters agentId true).db
  | .delete scope => some (db.deleteFiles characters scope)
  | .invalidate id => some (db.invalidate characters id)
  | .write id file =>
      if (db.files.get? id).all fun before => before.agentId = file.agentId then
        some { db with files := db.files.set id file }
      else none

end Phaze.Companion.Stamps
