import Phaze.Companion.Stamps

set_option autoImplicit false

/-!
# A stored class is the verdict on its group

Which rows a verdict reads, what deciding a set of contents makes of the rows, and that a settled group stays
settled under each write but those of media and of the paths and markers of its copies.
-/

namespace Phaze.Companion.Stamps

open Shared
open Quarantine.Detector (FileId JunkClass effectiveJunkClass)

variable {characters : Characters} {Hash : Type} [LinearOrder Hash]

namespace Database

variable {db left right after : Database Hash} {agentId other : Text} {fingerprint : Hash} {id : FileId}
variable {file : FileRecord} {row : CompanionContentFeatures Hash}

/-! ## What a verdict reads -/

def Carries (db : Database Hash) (agentId : Text) (fingerprint : Hash) (id : FileId) : Prop :=
  ∃ row, db.features.get? id = some row ∧ row.agentId = agentId ∧ row.fingerprint = fingerprint

theorem mem_members {copy : Text × Finset Text} :
    copy ∈ db.members agentId fingerprint ↔
      ∃ id file, db.Carries agentId fingerprint id ∧ db.files.get? id = some file ∧ file.available = true ∧
        (file.folder, db.mediaIn agentId file.folder) = copy := by
  simp only [members, member, List.mem_filterMap, Option.bind_eq_some_iff, Option.ite_none_right_eq_some,
    Option.some.injEq]
  constructor
  next =>
    rintro ⟨⟨id, row⟩, stored, file, there, ⟨owner, content, available⟩, same⟩
    exact ⟨id, file, ⟨row, Dict.mem_items.mp stored, owner, content⟩, there, available, same⟩
  next =>
    rintro ⟨id, file, ⟨row, stored, owner, content⟩, there, available, same⟩
    exact ⟨(id, row), Dict.mem_items.mpr stored, file, there, ⟨owner, content, available⟩, same⟩

omit [LinearOrder Hash] in
theorem mem_mediaIn {folder name : Text} :
    name ∈ db.mediaIn agentId folder ↔
      ∃ id file, db.files.get? id = some file ∧ file.agentId = agentId ∧ file.mediaPlace = some (folder, name) := by
  simp only [mediaIn, List.mem_toFinset, List.mem_map, List.mem_filter, Bool.and_eq_true, decide_eq_true_eq,
    FileRecord.mediaPlace, Option.ite_none_right_eq_some, Option.some.injEq, Prod.mk.injEq]
  constructor
  next =>
    rintro ⟨file, ⟨⟨⟨id, _⟩, stored, rfl⟩, ⟨owner, media⟩, there⟩, named⟩
    exact ⟨id, _, Dict.mem_items.mp stored, owner, media, there, named⟩
  next =>
    rintro ⟨id, file, stored, owner, media, there, named⟩
    exact ⟨file, ⟨⟨(id, file), Dict.mem_items.mpr stored, rfl⟩, ⟨owner, media⟩, there⟩, named⟩

theorem isStamp_congr
    (same : ∀ copy, copy ∈ left.members agentId fingerprint ↔ copy ∈ right.members agentId fingerprint) :
    left.isStamp characters agentId fingerprint = right.isStamp characters agentId fingerprint := by
  rw [Bool.eq_iff_iff, isStamp, isStamp, isKnownStamp_iff, isKnownStamp_iff]
  have sets : (left.members agentId fingerprint).toFinset = (right.members agentId fingerprint).toFinset := by
    ext copy
    rw [List.mem_toFinset, List.mem_toFinset, same]
  rw [sets]

theorem isStamp_of_carries (files : left.files = right.files)
    (same : ∀ id, left.Carries agentId fingerprint id ↔ right.Carries agentId fingerprint id) :
    left.isStamp characters agentId fingerprint = right.isStamp characters agentId fingerprint := by
  have media : ∀ folder, left.mediaIn agentId folder = right.mediaIn agentId folder := by
    intro folder
    rw [mediaIn, mediaIn, files]
  refine isStamp_congr fun copy => ?_
  simp only [mem_members, files, same, media]

omit [LinearOrder Hash] in
theorem availableAt_congr (files : left.files = right.files) : left.availableAt id = right.availableAt id := by
  rw [availableAt, availableAt, files]

/-! ## Settled groups -/

def Settled (characters : Characters) (db : Database Hash) (agentId : Text) (fingerprint : Hash) : Prop :=
  ∀ id row, db.features.get? id = some row → row.agentId = agentId → row.fingerprint = fingerprint →
    db.availableAt id = true →
      row.junkClass = effectiveJunkClass row.contentJunkClass.val (db.isStamp characters agentId fingerprint)

structure Lawful (db : Database Hash) : Prop where
  owned : ∀ {id row}, db.features.get? id = some row → ∃ file, db.files.get? id = some file ∧ file.agentId = row.agentId
  classed : ∀ {id row}, db.features.get? id = some row →
    ∃ stamp, row.junkClass = effectiveJunkClass row.contentJunkClass.val stamp

omit [LinearOrder Hash] in
theorem Lawful.new : (Database.new : Database Hash).Lawful where
  owned stored := nomatch stored
  classed stored := nomatch stored

/-! ## Deciding a set of contents -/

def judge (characters : Characters) (db : Database Hash) (agentId : Text) (fingerprints : Finset Hash) (id : FileId)
    (row : CompanionContentFeatures Hash) : CompanionContentFeatures Hash :=
  if row.agentId = agentId ∧ row.fingerprint ∈ fingerprints ∧ db.availableAt id = true then
    { row with
      junkClass := effectiveJunkClass row.contentJunkClass.val (db.isStamp characters agentId row.fingerprint) }
  else row

@[simp]
theorem judge_agentId {fingerprints : Finset Hash} :
    (judge characters db agentId fingerprints id row).agentId = row.agentId := by
  rw [judge]
  split <;> rfl

@[simp]
theorem judge_fingerprint {fingerprints : Finset Hash} :
    (judge characters db agentId fingerprints id row).fingerprint = row.fingerprint := by
  rw [judge]
  split <;> rfl

@[simp]
theorem judge_contentJunkClass {fingerprints : Finset Hash} :
    (judge characters db agentId fingerprints id row).contentJunkClass = row.contentJunkClass := by
  rw [judge]
  split <;> rfl

-- `after` is `db` with the contents among `fingerprints` decided as `db` stands.
structure Decided (characters : Characters) (agentId : Text) (fingerprints : Finset Hash) (db after : Database Hash) :
    Prop where
  files : after.files = db.files
  keys : after.features.keys = db.features.keys
  rows : ∀ id, after.features.get? id = (db.features.get? id).map (judge characters db agentId fingerprints id)

namespace Decided

variable {fingerprints first second : Finset Hash} {mid : Database Hash}

theorem carries (decided : Decided characters agentId fingerprints db after) :
    after.Carries other fingerprint id ↔ db.Carries other fingerprint id := by
  rw [Carries, Carries, decided.rows]
  simp only [Option.map_eq_some_iff]
  constructor
  next =>
    rintro ⟨_, ⟨row, stored, rfl⟩, owner, content⟩
    rw [judge_agentId] at owner
    rw [judge_fingerprint] at content
    exact ⟨row, stored, owner, content⟩
  next =>
    rintro ⟨row, stored, owner, content⟩
    exact ⟨_, ⟨row, stored, rfl⟩, by rw [judge_agentId, owner], by rw [judge_fingerprint, content]⟩

theorem isStamp (decided : Decided characters agentId fingerprints db after) :
    after.isStamp characters other fingerprint = db.isStamp characters other fingerprint :=
  isStamp_of_carries decided.files fun _ => decided.carries

theorem availableAt (decided : Decided characters agentId fingerprints db after) :
    after.availableAt id = db.availableAt id := availableAt_congr decided.files

theorem judge_trans (decided : Decided characters agentId first db mid) :
    judge characters mid agentId second id (judge characters db agentId first id row) =
      judge characters db agentId (first ∪ second) id row := by
  rw [judge, judge_agentId, judge_fingerprint, judge_contentJunkClass, decided.availableAt, decided.isStamp]
  by_cases owner : row.agentId = agentId ∧ db.availableAt id = true
  next =>
    by_cases early : row.fingerprint ∈ first
    next => by_cases late : row.fingerprint ∈ second <;> simp [judge, owner, early, late]
    next => by_cases late : row.fingerprint ∈ second <;> simp [judge, owner, early, late]
  next =>
    have apart : ∀ fingerprints : Finset Hash,
        ¬(row.agentId = agentId ∧ row.fingerprint ∈ fingerprints ∧ db.availableAt id = true) :=
      fun _ all => owner ⟨all.1, all.2.2⟩
    rw [if_neg (apart second), judge, if_neg (apart first), judge, if_neg (apart (first ∪ second))]

theorem trans (early : Decided characters agentId first db mid) (late : Decided characters agentId second mid after) :
    Decided characters agentId (first ∪ second) db after where
  files := late.files.trans early.files
  keys := late.keys.trans early.keys
  rows id := by
    rw [late.rows, early.rows, Option.map_map]
    refine congrArg (Option.map · _) (funext fun row => ?_)
    exact early.judge_trans

theorem refl : Decided characters agentId ∅ db db where
  files := rfl
  keys := rfl
  rows id := by
    cases db.features.get? id with
    | none => rfl
    | some row => simp [judge]

theorem settled (decided : Decided characters agentId fingerprints db after) (listed : fingerprint ∈ fingerprints) :
    Settled characters after agentId fingerprint := by
  intro id row stored owner content available
  rw [decided.rows, Option.map_eq_some_iff] at stored
  obtain ⟨before, stored, rfl⟩ := stored
  rw [judge_agentId] at owner
  rw [judge_fingerprint] at content
  rw [decided.availableAt] at available
  rw [judge_contentJunkClass, decided.isStamp, judge, if_pos ⟨owner, content ▸ listed, available⟩, content]

theorem keeps_settled (decided : Decided characters agentId fingerprints db after)
    (settled : Settled characters db other fingerprint) : Settled characters after other fingerprint := by
  intro id row stored owner content available
  rw [decided.rows, Option.map_eq_some_iff] at stored
  obtain ⟨before, stored, rfl⟩ := stored
  rw [judge_agentId] at owner
  rw [judge_fingerprint] at content
  rw [decided.availableAt] at available
  rw [judge_contentJunkClass, decided.isStamp, judge]
  split
  next here => rw [content, ← here.1, owner]
  next => exact settled id before stored owner content available

theorem lawful (decided : Decided characters agentId fingerprints db after) (lawful : db.Lawful) : after.Lawful where
  owned {id row} stored := by
    rw [decided.rows, Option.map_eq_some_iff] at stored
    obtain ⟨before, stored, rfl⟩ := stored
    rw [decided.files, judge_agentId]
    exact lawful.owned stored
  classed {id row} stored := by
    rw [decided.rows, Option.map_eq_some_iff] at stored
    obtain ⟨before, stored, rfl⟩ := stored
    rw [judge_contentJunkClass, judge]
    split
    next => exact ⟨_, rfl⟩
    next => exact lawful.classed stored

end Decided

theorem settle_decided {page : List Hash} :
    Decided characters agentId page.toFinset db
      (db.settle agentId page (page.filter (db.isStamp characters agentId))) where
  files := rfl
  keys := Dict.keys_mapValues
  rows id := by
    rw [settle, Dict.get?_mapValues]
    refine Option.map_congr fun row _ => ?_
    simp only [judge, List.mem_toFinset]
    by_cases here : row.agentId = agentId ∧ row.fingerprint ∈ page ∧ db.availableAt id = true
    next =>
      have stamp : (decide (row.fingerprint ∈ page.filter (db.isStamp characters agentId))) =
          db.isStamp characters agentId row.fingerprint := by
        simp [here.2.1]
      rw [if_pos here, stamp]
      by_cases same : row.junkClass =
          effectiveJunkClass row.contentJunkClass.val (db.isStamp characters agentId row.fingerprint)
      next => rw [if_neg fun all => all.2.2.1 same, ← same]
      next => rw [if_pos ⟨here.1, here.2.1, same, here.2.2⟩]
    next => rw [if_neg here, if_neg fun all => here ⟨all.1, all.2.1, all.2.2.2⟩]

-- The pages of one refresh: the stamps are told the same whether they are written or not.
theorem refreshPages_spec {apply : Bool} {pages : List (List Hash)} {state : Database Hash × Finset Hash}
    {decidedSoFar : Finset Hash} (so_far : if apply then Decided characters agentId decidedSoFar db state.1 else state.1 = db) :
    let last := pages.foldl (refreshPage characters agentId apply) state
    (if apply then Decided characters agentId (decidedSoFar ∪ pages.flatten.toFinset) db last.1 else last.1 = db) ∧
      last.2 = state.2 ∪ pages.flatten.toFinset.filter (db.isStamp characters agentId · = true) := by
  induction pages generalizing state decidedSoFar with
  | nil =>
    simp only [List.foldl_nil, List.flatten_nil, List.toFinset_nil, Finset.union_empty, Finset.filter_empty]
    exact ⟨so_far, trivial⟩
  | cons page rest ih =>
    have stamp : ∀ fingerprint, state.1.isStamp characters agentId fingerprint = db.isStamp characters agentId fingerprint := by
      intro fingerprint
      cases apply with
      | false => rw [show state.1 = db from so_far]
      | true => exact Decided.isStamp so_far
    have next : if apply then Decided characters agentId (decidedSoFar ∪ page.toFinset) db
          (refreshPage characters agentId apply state page).1
        else (refreshPage characters agentId apply state page).1 = db := by
      cases apply with
      | false => exact so_far
      | true => exact Decided.trans so_far settle_decided
    obtain ⟨decided, stamps⟩ := ih next
    refine ⟨?_, ?_⟩
    next =>
      rw [List.flatten_cons, List.toFinset_append, ← Finset.union_assoc]
      exact decided
    next =>
      rw [List.foldl_cons, stamps, refreshPage, List.flatten_cons, List.toFinset_append, Finset.filter_union,
        Finset.union_assoc]
      congr 2
      ext fingerprint
      simp [stamp]

theorem flatten_pages {fingerprints : Finset Hash} :
    ((Pages.ordered fingerprints).toChunks FINGERPRINT_PAGE).flatten.toFinset = fingerprints := by
  rw [flatten_toChunks]
  exact Pages.toFinset_ordered

theorem refreshKnownStamps_spec {fingerprints : Finset Hash} {apply : Bool} :
    (if apply then Decided characters agentId fingerprints db (db.refreshKnownStamps characters agentId fingerprints apply).1
      else (db.refreshKnownStamps characters agentId fingerprints apply).1 = db) ∧
    (db.refreshKnownStamps characters agentId fingerprints apply).2 =
      fingerprints.filter (db.isStamp characters agentId · = true) := by
  have start : if apply then Decided characters agentId ∅ db db else db = db := by
    cases apply with
    | false => rfl
    | true => exact Decided.refl
  have whole := @refreshPages_spec characters _ _ db agentId apply
    ((Pages.ordered fingerprints).toChunks FINGERPRINT_PAGE) (db, ∅) ∅ start
  rwa [flatten_pages, Finset.empty_union, Finset.empty_union] at whole

theorem refreshKnownStamps_decided {fingerprints : Finset Hash} :
    Decided characters agentId fingerprints db (db.refreshKnownStamps characters agentId fingerprints true).1 :=
  (@refreshKnownStamps_spec characters _ _ db agentId fingerprints true).1

theorem refreshKnownStamps_dry {fingerprints : Finset Hash} :
    (db.refreshKnownStamps characters agentId fingerprints false).1 = db :=
  (@refreshKnownStamps_spec characters _ _ db agentId fingerprints false).1

theorem refreshKnownStamps_stamps {fingerprints : Finset Hash} {apply : Bool} :
    (db.refreshKnownStamps characters agentId fingerprints apply).2 =
      fingerprints.filter (db.isStamp characters agentId · = true) :=
  refreshKnownStamps_spec.2

end Database

end Phaze.Companion.Stamps
