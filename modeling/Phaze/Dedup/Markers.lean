import Mathlib.Data.Finset.Basic
import Mathlib.Data.List.Dedup

/-!
# Duplicate groups and their markers

`services/dedup.py`: the files of one sha256 group, the `dedup_resolution` rows
that retire all of them but a keeper, and the two calls that write those rows,
`resolve_group` and `undo_resolve`.
-/

set_option autoImplicit false

namespace Phaze.Dedup

abbrev Uuid := BitVec 128

structure FileRecord where
  id : Uuid
  sha256Hash : String
  fileType : String
deriving DecidableEq, Repr

-- `_DEDUP_MEDIA_TYPES`: the MUSIC and VIDEO extensions of `EXTENSION_MAP`, without the dot.
def dedupMediaTypes : List String :=
  ["mp3", "m4a", "ogg", "flac", "wav", "aiff", "wma", "aac", "opus", "mp2",
    "mp4", "mkv", "avi", "webm", "mov", "wmv", "flv"]

def dedupPopulation (file : FileRecord) : Bool :=
  dedupMediaTypes.contains file.fileType

-- The `dedup_resolution` table, keyed by its unique `file_id`; the value is
-- `canonical_file_id`.
abbrev Markers := Uuid → Option Uuid

def noMarkers : Markers :=
  fun _ => none

def dedupResolved (markers : Markers) (file : FileRecord) : Bool :=
  (markers file.id).isSome

-- The three clauses every query of the workflow shares.
def unresolvedMember (markers : Markers) (group : String) (file : FileRecord) : Bool :=
  file.sha256Hash == group && dedupPopulation file && !dedupResolved markers file

/-! ## Resolving a group -/

structure Call where
  groupHash : String
  canonicalId : Uuid
  reviewedMemberIds : Option (Finset Uuid)

-- False where `_assert_reviewed_snapshot` raises `StaleDuplicateReviewError`.
def assertReviewedSnapshot (files : List FileRecord) (markers : Markers) (call : Call)
    (reviewed : Finset Uuid) : Bool :=
  let current := ((files.filter (unresolvedMember markers call.groupHash)).map (·.id)).toFinset
  decide (call.canonicalId ∈ reviewed) && decide (current = reviewed)

def canonicalMembership (files : List FileRecord) (markers : Markers) (call : Call) : Bool :=
  files.any fun file => unresolvedMember markers call.groupHash file && file.id == call.canonicalId

def inReview (call : Call) (file : FileRecord) : Bool :=
  match call.reviewedMemberIds with
  | none => true
  | some reviewed => decide (file.id ∈ reviewed)

def nonCanonical (files : List FileRecord) (markers : Markers) (call : Call) : List FileRecord :=
  files.filter fun file =>
    unresolvedMember markers call.groupHash file && file.id != call.canonicalId && inReview call file

-- The table with the rows a statement adds to it. A `file_id` that has a row
-- keeps it (`ON CONFLICT DO NOTHING`).
def addMarkers (markers : Markers) (rows : List (Uuid × Uuid)) : Markers :=
  fun id =>
    match markers id with
    | some canonicalId => some canonicalId
    | none => rows.lookup id

-- Both columns of a row are foreign keys to `files.id`; a missing file is the
-- `IntegrityError` that rolls the savepoint back (`none`).
def insertResolutionMarkers (files : List FileRecord) (members : List FileRecord)
    (canonicalId : Uuid) : Option (List (Uuid × Uuid)) :=
  let rows := members.map fun file => (file.id, canonicalId)
  let present := fun id => files.any fun file => file.id == id
  if rows.all fun row => present row.1 && present row.2 then some rows else none

-- `str(uuid)`: 32 lower-case hex digits in groups of 8, 4, 4, 4 and 12.
def uuidStr (id : Uuid) : String :=
  let digits := Nat.toDigits 16 id.toNat
  let hex := List.replicate (32 - digits.length) '0' ++ digits
  String.ofList (hex.take 8 ++ '-' :: (hex.drop 8).take 4 ++ '-' :: (hex.drop 12).take 4 ++
    '-' :: (hex.drop 16).take 4 ++ '-' :: hex.drop 20)

-- A value of the browser's payload. `other` stands for every value that is
-- neither a dict, a string nor a UUID: numbers, booleans, null and arrays.
inductive Payload where
  | dict (fields : List (String × Payload))
  | str (text : String)
  | uuid (id : Uuid)
  | other

def fileState (canonicalId : Uuid) (file : FileRecord) : Payload :=
  .dict [("id", .str (uuidStr file.id)), ("canonical_id", .str (uuidStr canonicalId))]

inductive Reply where
  | resolved (count : Nat) (fileStates : List Payload)
  | staleDuplicateReview

-- What is left of `resolve_group` once its members have been selected: the reply,
-- and the rows it inserts.
def writeMarkers (files : List FileRecord) (call : Call) (members : List FileRecord) :
    Reply × List (Uuid × Uuid) :=
  let states := members.map (fileState call.canonicalId)
  if members.isEmpty then
    (.resolved states.length states, [])
  else
    match insertResolutionMarkers files members call.canonicalId with
    | none => (.resolved 0 [], [])
    | some rows => (.resolved states.length states, rows)

def resolveMember (files : List FileRecord) (markers : Markers) (call : Call) :
    Reply × List (Uuid × Uuid) :=
  if canonicalMembership files markers call then
    writeMarkers files call (nonCanonical files markers call)
  else
    (.resolved 0 [], [])

-- `resolve_group` run alone, from the lock to its return.
def resolveGroup (files : List FileRecord) (markers : Markers) (call : Call) :
    Reply × List (Uuid × Uuid) :=
  match call.reviewedMemberIds with
  | none => resolveMember files markers call
  | some reviewed =>
    if assertReviewedSnapshot files markers call reviewed then
      resolveMember files markers call
    else
      (.staleDuplicateReview, [])

/-! ### What the queries select and write -/

theorem unresolvedMember_iff (markers : Markers) (group : String) (file : FileRecord) :
    unresolvedMember markers group file = true ↔
      file.sha256Hash = group ∧ dedupPopulation file = true ∧ markers file.id = none := by
  simp [unresolvedMember, dedupResolved, and_assoc]

theorem canonicalMembership_iff (files : List FileRecord) (markers : Markers) (call : Call) :
    canonicalMembership files markers call = true ↔
      ∃ file ∈ files, unresolvedMember markers call.groupHash file = true ∧
        file.id = call.canonicalId := by
  simp [canonicalMembership]

theorem mem_nonCanonical {files : List FileRecord} {markers : Markers} {call : Call}
    {file : FileRecord} (selected : file ∈ nonCanonical files markers call) :
    file ∈ files ∧ unresolvedMember markers call.groupHash file = true ∧
      file.id ≠ call.canonicalId := by
  have parts := List.mem_filter.mp selected
  simp only [Bool.and_eq_true, bne_iff_ne] at parts
  exact ⟨parts.1, parts.2.1.1, parts.2.1.2⟩

theorem rows_of_insertResolutionMarkers {files members : List FileRecord} {canonicalId : Uuid}
    {rows : List (Uuid × Uuid)}
    (inserted : insertResolutionMarkers files members canonicalId = some rows) :
    rows = members.map fun file => (file.id, canonicalId) := by
  simp only [insertResolutionMarkers] at inserted
  split at inserted
  · exact (Option.some.inj inserted).symm
  · cases inserted

theorem mem_writeMarkers {files : List FileRecord} {call : Call} {members : List FileRecord}
    {row : Uuid × Uuid} (written : row ∈ (writeMarkers files call members).2) :
    ∃ file ∈ members, row = (file.id, call.canonicalId) := by
  simp only [writeMarkers] at written
  split at written
  · cases written
  · split at written
    · cases written
    next rows inserted =>
      rw [rows_of_insertResolutionMarkers inserted] at written
      obtain ⟨file, selected, same⟩ := List.mem_map.mp written
      exact ⟨file, selected, same.symm⟩

theorem addMarkers_some {markers : Markers} {rows : List (Uuid × Uuid)} {id canonicalId : Uuid}
    (marked : addMarkers markers rows id = some canonicalId) :
    markers id = some canonicalId ∨ (id, canonicalId) ∈ rows := by
  unfold addMarkers at marked
  split at marked
  next old present => exact Or.inl (present.trans marked)
  next =>
    obtain ⟨before, after, rfl, -⟩ := List.lookup_eq_some_iff.mp marked
    exact Or.inr (by simp)

theorem addMarkers_none {markers : Markers} {rows : List (Uuid × Uuid)} {id : Uuid}
    (unmarked : addMarkers markers rows id = none) :
    markers id = none ∧ ∀ canonicalId, (id, canonicalId) ∉ rows := by
  unfold addMarkers at unmarked
  split at unmarked
  next => cases unmarked
  next absent =>
    refine ⟨absent, fun canonicalId present => ?_⟩
    exact absurd (List.lookup_eq_none_iff.mp unmarked _ present) (by simp)

/-! ## Undoing a resolution -/

section Undo

-- `uuid.UUID(text)`, with `none` where it raises `ValueError`.
variable (parseUuid : String → Option Uuid)

def coerceUuid : Option Payload → Option Uuid
  | some (.uuid id) => some id
  | some (.str text) => parseUuid text
  | _ => none

def payloadPair : Payload → Option (Uuid × Uuid)
  | .dict fields =>
    match coerceUuid parseUuid (fields.lookup "id"),
        coerceUuid parseUuid (fields.lookup "canonical_id") with
    | some fileId, some canonicalId => some (fileId, canonicalId)
    | _, _ => none
  | _ => none

def payloadPairs (fileStates : List Payload) : List (Uuid × Uuid) :=
  (fileStates.filterMap (payloadPair parseUuid)).dedup

-- The `DELETE ... WHERE (file_id, canonical_file_id) IN pairs`.
def deleteMarkers (markers : Markers) (pairs : List (Uuid × Uuid)) : Markers :=
  fun id =>
    match markers id with
    | some canonicalId => if (id, canonicalId) ∈ pairs then none else some canonicalId
    | none => none

-- The distinct file ids that `RETURNING` yields: a file has one marker, so at
-- most one pair of it matches.
def undoResolve (markers : Markers) (fileStates : List Payload) : Nat × Markers :=
  let pairs := payloadPairs parseUuid fileStates
  if pairs.isEmpty then
    (0, markers)
  else
    ((pairs.filter fun pair => markers pair.1 == some pair.2).length, deleteMarkers markers pairs)

theorem undoResolve_some {markers : Markers} {fileStates : List Payload} {id canonicalId : Uuid}
    (marked : (undoResolve parseUuid markers fileStates).2 id = some canonicalId) :
    markers id = some canonicalId := by
  simp only [undoResolve] at marked
  split at marked
  · exact marked
  · simp only [deleteMarkers] at marked
    split at marked
    next kept present =>
      split at marked
      · cases marked
      · exact present.trans marked
    next => cases marked

end Undo

end Phaze.Dedup
