import Phaze.Companion.Verdicts
import Phaze.Shared.Runs

set_option autoImplicit false

/-!
# Associations settle, writes keep settled

An association run looks only at the contents with three copies or a copy that carries the verdict, page by page.
After it every copy of the agent is settled, and stays so while its media and the places of its copies stay.
-/

namespace Phaze.Companion.Stamps

open Shared
open Quarantine.Detector (FileId JunkClass effectiveJunkClass)

variable {characters : Characters} {Hash : Type} [LinearOrder Hash]

theorem effectiveJunkClass_true {contentJunkClass : Option JunkClass} :
    effectiveJunkClass contentJunkClass true = some .knownStamp ∨
      effectiveJunkClass contentJunkClass true = effectiveJunkClass contentJunkClass false := by
  rw [effectiveJunkClass, effectiveJunkClass]
  split
  next => exact .inr rfl
  next => exact .inl rfl

-- A copy reported unchanged keeps the class it had.
theorem effectiveJunkClass_kept (contentJunkClass : ContentJunkClass) (stamp : Bool) :
    effectiveJunkClass contentJunkClass.val
        (effectiveJunkClass contentJunkClass.val stamp = some .knownStamp) =
      effectiveJunkClass contentJunkClass.val stamp := by
  obtain ⟨junkClass, lawful⟩ := contentJunkClass
  revert lawful
  cases junkClass with
  | none => cases stamp <;> simp [effectiveJunkClass]
  | some junkClass => cases junkClass <;> cases stamp <;> simp [effectiveJunkClass, JunkClass.perFile]

namespace Database

variable {db after : Database Hash} {agentId other : Text} {fingerprint : Hash} {id : FileId}
variable {file : FileRecord} {row : CompanionContentFeatures Hash}

/-! ## The candidates of a walk -/

def holds (agentId : Text) (fingerprint : Hash) (row : CompanionContentFeatures Hash) : Bool :=
  row.agentId = agentId && row.fingerprint = fingerprint

theorem mem_candidates :
    fingerprint ∈ db.candidates agentId ↔
      (∃ id, db.Carries agentId fingerprint id) ∧
        (STAMP_MIN_FOLDERS ≤ db.features.keys.countP (fun id => (db.features.get? id).any (holds agentId fingerprint)) ∨
          ∃ id row, db.features.get? id = some row ∧ holds agentId fingerprint row = true ∧
            row.junkClass = some .knownStamp) := by
  have copies : ((db.features.items.map Prod.snd).filter fun row => row.agentId = agentId).filter
      (fun row => row.fingerprint = fingerprint) = (db.features.items.map Prod.snd).filter (holds agentId fingerprint) := by
    rw [List.filter_filter]
    congr 1
    funext row
    rw [holds, Bool.and_comm]
  simp only [candidates, Finset.mem_filter, copies]
  refine and_congr ?_ (or_congr ?_ ?_)
  next =>
    simp only [List.mem_toFinset, List.mem_map, List.mem_filter, decide_eq_true_eq]
    constructor
    next =>
      rintro ⟨row, ⟨⟨⟨id, _⟩, stored, rfl⟩, owner⟩, content⟩
      exact ⟨id, _, Dict.mem_items.mp stored, owner, content⟩
    next =>
      rintro ⟨id, row, stored, owner, content⟩
      exact ⟨row, ⟨⟨(id, row), Dict.mem_items.mpr stored, rfl⟩, owner⟩, content⟩
  next =>
    rw [← List.countP_eq_length_filter, List.countP_map, ← Dict.countP_items]
    rfl
  next =>
    simp only [List.any_eq_true, List.mem_filter, List.mem_map, decide_eq_true_eq]
    constructor
    next =>
      rintro ⟨row, ⟨⟨⟨id, _⟩, stored, rfl⟩, held⟩, stamped⟩
      exact ⟨id, _, Dict.mem_items.mp stored, held, stamped⟩
    next =>
      rintro ⟨id, row, stored, held, stamped⟩
      exact ⟨row, ⟨⟨(id, row), Dict.mem_items.mpr stored, rfl⟩, held⟩, stamped⟩

theorem candidates_card : (db.candidates agentId).card ≤ db.features.items.length := by
  refine (Finset.card_filter_le _ _).trans ((List.toFinset_card_le _).trans ?_)
  rw [List.length_map]
  exact (List.length_filter_le _ _).trans (List.length_map _).le

theorem members_length :
    (db.members agentId fingerprint).length ≤
      db.features.keys.countP fun id => (db.features.get? id).any (holds agentId fingerprint) := by
  rw [members, List.length_filterMap_eq_countP, ← Dict.countP_items]
  refine List.countP_mono_left fun item _ found => ?_
  obtain ⟨copy, same⟩ := Option.isSome_iff_exists.mp found
  simp only [member, Option.bind_eq_some_iff, Option.ite_none_right_eq_some] at same
  obtain ⟨file, -, ⟨owner, content, -⟩, -⟩ := same
  simp [holds, owner, content]

-- A group that the walk leaves out has too few copies to be a stamp, and none of them carries the verdict.
theorem Lawful.settled_of_notMem (lawful : db.Lawful) (absent : fingerprint ∉ db.candidates agentId) :
    Settled characters db agentId fingerprint := by
  intro id row stored owner content _
  have carried : ∃ id, db.Carries agentId fingerprint id := ⟨id, row, stored, owner, content⟩
  have held : holds agentId fingerprint row = true := by simp [holds, owner, content]
  rw [mem_candidates, not_and_or, not_or] at absent
  obtain ⟨few, unstamped⟩ := absent.resolve_left fun none => none carried
  have plain : db.isStamp characters agentId fingerprint = false := by
    rw [← Bool.not_eq_true, isStamp, isKnownStamp_iff]
    intro stamp
    have names := stamp.1.trans (Finset.card_image_le.trans (List.toFinset_card_le _))
    exact few (names.trans members_length)
  rw [plain]
  obtain ⟨stamp, classed⟩ := lawful.classed stored
  cases stamp with
  | false => exact classed
  | true =>
    rcases @effectiveJunkClass_true row.contentJunkClass.val with stamped | same
    next => exact absurd ⟨id, row, stored, held, classed.trans stamped⟩ unstamped
    next => exact classed.trans same

theorem Decided.candidates {fingerprints : Finset Hash} (decided : Decided characters agentId fingerprints db after)
    (fresh : fingerprint ∉ fingerprints) : fingerprint ∈ after.candidates agentId ↔ fingerprint ∈ db.candidates agentId := by
  have same : ∀ id row, after.features.get? id = some row ∧ holds agentId fingerprint row = true ↔
      db.features.get? id = some row ∧ holds agentId fingerprint row = true := by
    intro id row
    rw [decided.rows, Option.map_eq_some_iff]
    have unjudged : ∀ row, holds agentId fingerprint row = true →
        judge characters db agentId fingerprints id row = row := by
      intro row held
      rw [holds, Bool.and_eq_true, decide_eq_true_eq, decide_eq_true_eq] at held
      rw [judge, if_neg fun all => fresh (held.2 ▸ all.2.1)]
    constructor
    next =>
      rintro ⟨⟨before, stored, rfl⟩, held⟩
      have early : holds agentId fingerprint before = true := by
        rwa [holds, judge_agentId, judge_fingerprint] at held
      rw [unjudged before early]
      exact ⟨stored, early⟩
    next =>
      rintro ⟨stored, held⟩
      exact ⟨⟨row, stored, unjudged row held⟩, held⟩
  have counted : ∀ id, (after.features.get? id).any (holds agentId fingerprint) =
      (db.features.get? id).any (holds agentId fingerprint) := by
    intro id
    rw [Bool.eq_iff_iff, Option.any_eq_true, Option.any_eq_true]
    exact exists_congr fun row => same id row
  rw [mem_candidates, mem_candidates, decided.keys]
  simp only [counted, decided.carries, ← and_assoc, same]

theorem refreshAgentStamps_settled (lawful : db.Lawful) :
    ∀ fingerprint, Settled characters (db.refreshAgentStamps characters agentId true).db agentId fingerprint := by
  refine @Pages.walk_covers _ (Rechecked Hash) _ _ _ FINGERPRINT_PAGE
    (fun state fingerprint => Settled characters state.db agentId fingerprint) _ _ _ (by decide) ?_ ?_ ?_ ?_
  next =>
    intro state found fingerprint listed
    exact refreshKnownStamps_decided.settled (List.mem_toFinset.mpr listed)
  next =>
    intro state found fingerprint fresh
    exact ⟨refreshKnownStamps_decided.keeps_settled,
      refreshKnownStamps_decided.candidates fun listed => fresh (List.mem_toFinset.mp listed)⟩
  next => exact Nat.lt_succ_of_le candidates_card
  next =>
    intro fingerprint
    by_cases listed : fingerprint ∈ db.candidates agentId
    next => exact .inr listed
    next => exact .inl (lawful.settled_of_notMem listed)

theorem refreshAgentStamps_keeps {kept : Database Hash → Prop}
    (each : ∀ fingerprints before after, Decided characters agentId fingerprints before after → kept before → kept after)
    (start : kept db) : kept (db.refreshAgentStamps characters agentId true).db :=
  @Pages.walk_keeps _ (Rechecked Hash) _ _ _ _ _ _ _ (fun state => kept state.db)
    (fun _ _ _ before => each _ _ _ refreshKnownStamps_decided before) start

/-! ## What a dry run tells -/

-- A walk so far, over the contents that it has come past.
structure Told (characters : Characters) (agentId : Text) (apply : Bool) (db : Database Hash) (state : Rechecked Hash) :
    Prop where
  written : if apply then Decided characters agentId state.rechecked db state.db else state.db = db
  stamps : state.stamps = state.rechecked.filter (db.isStamp characters agentId · = true)
  candidates : state.rechecked ⊆ db.candidates agentId

variable {apply : Bool} {state : Rechecked Hash}

theorem Told.isStamp (told : Told characters agentId apply db state) :
    state.db.isStamp characters agentId fingerprint = db.isStamp characters agentId fingerprint := by
  have written := told.written
  cases apply with
  | false => rw [show state.db = db from written]
  | true => exact Decided.isStamp written

theorem Told.mem_candidates (told : Told characters agentId apply db state)
    (listed : fingerprint ∈ state.db.candidates agentId) : fingerprint ∈ db.candidates agentId := by
  have written := told.written
  cases apply with
  | false => rwa [show state.db = db from written] at listed
  | true =>
    by_cases before : fingerprint ∈ state.rechecked
    next => exact told.candidates before
    next => exact (Decided.candidates written before).mp listed

theorem Told.recheck {page : List Hash} (told : Told characters agentId apply db state)
    (listed : ∀ fingerprint ∈ page, fingerprint ∈ state.db.candidates agentId) :
    Told characters agentId apply db (recheck characters agentId apply state page) where
  written := by
    have written := told.written
    cases apply with
    | false => exact refreshKnownStamps_dry.trans written
    | true => exact Decided.trans written refreshKnownStamps_decided
  stamps := by
    rw [Database.recheck, refreshKnownStamps_stamps, told.stamps, Finset.filter_union]
    ext fingerprint
    simp [told.isStamp]
  candidates := by
    refine Finset.union_subset told.candidates fun fingerprint member => ?_
    exact told.mem_candidates (listed fingerprint (List.mem_toFinset.mp member))

theorem refreshAgentStamps_told : Told characters agentId apply db (db.refreshAgentStamps characters agentId apply) := by
  refine Pages.walk_keeps (fun state page listed told => Told.recheck told listed) ⟨?_, rfl, Finset.empty_subset _⟩
  cases apply with
  | false => rfl
  | true => exact Decided.refl

theorem refreshAgentStamps_rechecked :
    (db.refreshAgentStamps characters agentId apply).rechecked = db.candidates agentId := by
  refine (@refreshAgentStamps_told characters _ _ db agentId apply).candidates.antisymm ?_
  intro fingerprint
  refine (@Pages.walk_covers _ (Rechecked Hash) _ _ _ FINGERPRINT_PAGE
    (fun state fingerprint => fingerprint ∉ db.candidates agentId ∨ fingerprint ∈ state.rechecked)
    _ _ _ (by decide) ?_ ?_ ?_ ?_ fingerprint).resolve_left ∘ not_not.mpr
  next => exact fun state found key listed => .inr (Finset.mem_union_right _ (List.mem_toFinset.mpr listed))
  next =>
    intro state found key fresh
    refine ⟨Or.imp_right (Finset.mem_union_left _), ?_⟩
    have fresh' : key ∉ found.toFinset := fun listed => fresh (List.mem_toFinset.mp listed)
    cases apply with
    | false => rw [recheck, refreshKnownStamps_dry]
    | true => exact refreshKnownStamps_decided.candidates fresh'
  next => exact Nat.lt_succ_of_le candidates_card
  next => exact fun key => (Classical.em (key ∈ db.candidates agentId)).symm.imp_left .inl

-- A run that writes nothing reports what one that writes does, and each class that it would leave.
theorem dry_run_foretells :
    (db.refreshAgentStamps characters agentId false).db = db ∧
      (db.refreshAgentStamps characters agentId true).rechecked =
        (db.refreshAgentStamps characters agentId false).rechecked ∧
      (db.refreshAgentStamps characters agentId true).stamps =
        (db.refreshAgentStamps characters agentId false).stamps ∧
      ∀ id row, db.features.get? id = some row → row.agentId = agentId → db.availableAt id = true →
        ∃ written, (db.refreshAgentStamps characters agentId true).db.features.get? id = some written ∧
          written.junkClass =
            if row.fingerprint ∈ (db.refreshAgentStamps characters agentId false).rechecked then
              effectiveJunkClass row.contentJunkClass.val
                (decide (row.fingerprint ∈ (db.refreshAgentStamps characters agentId false).stamps))
            else row.junkClass := by
  have dry := @refreshAgentStamps_told characters _ _ db agentId false
  have applied := @refreshAgentStamps_told characters _ _ db agentId true
  have seen : (db.refreshAgentStamps characters agentId true).rechecked =
      (db.refreshAgentStamps characters agentId false).rechecked := by
    rw [refreshAgentStamps_rechecked, refreshAgentStamps_rechecked]
  have written : Decided characters agentId _ db _ := applied.written
  refine ⟨dry.written, seen, ?_, fun id row stored owner available => ?_⟩
  next => rw [applied.stamps, seen, ← dry.stamps]
  next =>
    refine ⟨_, by rw [written.rows, stored, Option.map_some], ?_⟩
    rw [judge, seen, dry.stamps]
    by_cases listed : row.fingerprint ∈ (db.refreshAgentStamps characters agentId false).rechecked
    next => simp [listed, owner, available]
    next => simp [listed]

/-! ## The groups around a deletion -/

variable {groups : List (Text × Finset Hash)} {scope : FileId → Bool}

theorem refreshStampGroups_keeps {kept : Database Hash → Prop}
    (each : ∀ agentId fingerprints before after, Decided characters agentId fingerprints before after →
      kept before → kept after)
    (start : kept db) : kept (db.refreshStampGroups characters groups) := by
  rw [refreshStampGroups]
  induction groups generalizing db with
  | nil => exact start
  | cons group rest ih => exact ih (each _ _ _ _ refreshKnownStamps_decided start)

theorem refreshStampGroups_settled
    (covered : Settled characters db other fingerprint ∨ ∃ group ∈ groups, group.1 = other ∧ fingerprint ∈ group.2) :
    Settled characters (db.refreshStampGroups characters groups) other fingerprint := by
  rcases covered with settled | ⟨group, listed, rfl, content⟩
  next => exact refreshStampGroups_keeps (fun _ _ _ _ decided => decided.keeps_settled) settled
  next =>
    obtain ⟨front, back, rfl⟩ := List.append_of_mem listed
    rw [refreshStampGroups, List.foldl_append, List.foldl_cons]
    exact @refreshStampGroups_keeps _ _ _ _ back (Settled characters · group.1 fingerprint)
      (fun _ _ _ _ decided => decided.keeps_settled) (refreshKnownStamps_decided.settled content)

theorem mem_stampGroupsIn :
    (∃ group ∈ db.stampGroupsIn scope, group.1 = other ∧ fingerprint ∈ group.2) ↔
      ∃ id, scope id = true ∧ db.Carries other fingerprint id := by
  simp only [stampGroupsIn, List.mem_map, exists_exists_and_eq_and, Finset.mem_sort, List.mem_toFinset,
    List.mem_filter, decide_eq_true_eq]
  constructor
  next =>
    rintro ⟨_, -, rfl, row, ⟨⟨⟨id, _⟩, ⟨stored, inside⟩, rfl⟩, owner⟩, content⟩
    exact ⟨id, inside, _, Dict.mem_items.mp stored, owner, content⟩
  next =>
    rintro ⟨id, inside, row, stored, rfl, content⟩
    have selected : (id, row) ∈ db.features.items ∧ scope id = true := ⟨Dict.mem_items.mpr stored, inside⟩
    exact ⟨(id, row), selected, rfl, row, ⟨⟨(id, row), selected, rfl⟩, rfl⟩, content⟩

theorem Settled.transfer (settled : Settled characters db other fingerprint)
    (stamp : after.isStamp characters other fingerprint = db.isStamp characters other fingerprint)
    (same : ∀ id row, after.features.get? id = some row → row.agentId = other → row.fingerprint = fingerprint →
      after.availableAt id = true → db.features.get? id = some row ∧ db.availableAt id = true) :
    Settled characters after other fingerprint := by
  intro id row stored owner content available
  obtain ⟨early, availableEarly⟩ := same id row stored owner content available
  rw [stamp]
  exact settled id row early owner content availableEarly

/-! ## Each write -/

omit [LinearOrder Hash] in
theorem Carries.of_filter {keeps : FileId → CompanionContentFeatures Hash → Bool} {files : Dict FileId FileRecord}
    (every : ∀ id row, db.features.get? id = some row → row.agentId = other → row.fingerprint = fingerprint →
      keeps id row = true) :
    (⟨files, db.features.filter keeps⟩ : Database Hash).Carries other fingerprint id ↔
      db.Carries other fingerprint id := by
  constructor
  next =>
    rintro ⟨row, stored, owner, content⟩
    exact ⟨row, (Dict.get?_filter.mp stored).1, owner, content⟩
  next =>
    rintro ⟨row, stored, owner, content⟩
    exact ⟨row, Dict.get?_filter.mpr ⟨stored, every id row stored owner content⟩, owner, content⟩

theorem deleteFiles_lawful (lawful : db.Lawful) : (db.deleteFiles characters scope).Lawful := by
  refine refreshStampGroups_keeps (fun _ _ _ _ decided => decided.lawful) ?_
  constructor
  next =>
    intro id row stored
    obtain ⟨stored, outside⟩ := Dict.get?_filter.mp stored
    obtain ⟨file, there, owner⟩ := lawful.owned stored
    exact ⟨file, Dict.get?_filter.mpr ⟨there, outside⟩, owner⟩
  next =>
    intro id row stored
    exact lawful.classed (Dict.get?_filter.mp stored).1

theorem deleteFiles_settled
    (quiet : ∀ id file, db.files.get? id = some file → file.agentId = other → file.isMedia = true → scope id = false)
    (settled : Settled characters db other fingerprint) :
    Settled characters (db.deleteFiles characters scope) other fingerprint := by
  refine refreshStampGroups_settled ?_
  by_cases touched : ∃ id, scope id = true ∧ db.Carries other fingerprint id
  next => exact .inr (mem_stampGroupsIn.mpr touched)
  next =>
    have kept : ∀ id row, db.features.get? id = some row → row.agentId = other → row.fingerprint = fingerprint →
        (!scope id) = true := by
      intro id row stored owner content
      rw [Bool.not_eq_true']
      exact Bool.eq_false_iff.mpr fun inside => touched ⟨id, inside, row, stored, owner, content⟩
    refine .inl (settled.transfer (isStamp_congr fun copy => ?_) ?_)
    next =>
      have media : ∀ folder, (⟨db.files.filter fun id _ => !scope id, db.features.filter fun id _ => !scope id⟩ :
          Database Hash).mediaIn other folder = db.mediaIn other folder := by
        intro folder
        ext name
        rw [mem_mediaIn, mem_mediaIn]
        constructor
        next =>
          rintro ⟨id, file, stored, rest⟩
          exact ⟨id, file, (Dict.get?_filter.mp stored).1, rest⟩
        next =>
          rintro ⟨id, file, stored, owner, placed⟩
          have isMedia : file.isMedia = true := by
            rw [FileRecord.mediaPlace, Option.ite_none_right_eq_some] at placed
            exact placed.1
          refine ⟨id, file, Dict.get?_filter.mpr ⟨stored, ?_⟩, owner, placed⟩
          rw [quiet id file stored owner isMedia, Bool.not_false]
      simp only [mem_members, Carries.of_filter kept, media]
      constructor
      next =>
        rintro ⟨id, file, carried, stored, rest⟩
        exact ⟨id, file, carried, (Dict.get?_filter.mp stored).1, rest⟩
      next =>
        rintro ⟨id, file, carried, stored, rest⟩
        obtain ⟨row, featured, owner, content⟩ := carried
        exact ⟨id, file, ⟨row, featured, owner, content⟩,
          Dict.get?_filter.mpr ⟨stored, kept id row featured owner content⟩, rest⟩
    next =>
      intro id row stored owner content available
      obtain ⟨stored, outside⟩ := Dict.get?_filter.mp stored
      refine ⟨stored, ?_⟩
      rw [availableAt, Option.any_eq_true] at available ⊢
      obtain ⟨file, there, available⟩ := available
      exact ⟨file, (Dict.get?_filter.mp there).1, available⟩

theorem invalidate_lawful (lawful : db.Lawful) : (db.invalidate characters id).Lawful := by
  refine refreshStampGroups_keeps (fun _ _ _ _ decided => decided.lawful) ?_
  have earlier : ∀ {other row}, (db.features.pop id).get? other = some row → db.features.get? other = some row := by
    intro other row stored
    rw [Dict.get?_pop, Option.ite_none_left_eq_some] at stored
    exact stored.2
  exact ⟨fun stored => lawful.owned (earlier stored), fun stored => lawful.classed (earlier stored)⟩

theorem invalidate_settled (settled : Settled characters db other fingerprint) :
    Settled characters (db.invalidate characters id) other fingerprint := by
  refine refreshStampGroups_settled ?_
  by_cases touched : db.Carries other fingerprint id
  next => exact .inr (mem_stampGroupsIn.mpr ⟨id, decide_eq_true rfl, touched⟩)
  next =>
    have kept : ∀ copy row, (db.features.pop id).get? copy = some row ∧ row.agentId = other ∧ row.fingerprint = fingerprint ↔
        db.features.get? copy = some row ∧ row.agentId = other ∧ row.fingerprint = fingerprint := by
      intro copy row
      rw [Dict.get?_pop, Option.ite_none_left_eq_some]
      refine ⟨fun held => ⟨held.1.2, held.2⟩, fun held => ⟨⟨?_, held.1⟩, held.2⟩⟩
      rintro rfl
      exact touched ⟨row, held⟩
    refine .inl (settled.transfer (isStamp_of_carries rfl fun copy => exists_congr (kept copy)) ?_)
    intro copy row stored owner content available
    exact ⟨((kept copy row).mp ⟨stored, owner, content⟩).1, available⟩

omit [LinearOrder Hash] in
theorem write_lawful (lawful : db.Lawful) (same : ∀ before, db.files.get? id = some before → before.agentId = file.agentId) :
    Lawful { db with files := db.files.set id file } where
  owned {other row} stored := by
    obtain ⟨before, there, owner⟩ := lawful.owned stored
    rw [Dict.get?_set]
    split
    next here =>
      subst here
      exact ⟨file, rfl, (same before there).symm.trans owner⟩
    next => exact ⟨before, there, owner⟩
  classed stored := lawful.classed stored

-- A write that moves no media and no stored companion.
theorem write_settled (lawful : db.Lawful)
    (same : ∀ before, db.files.get? id = some before → before.agentId = file.agentId)
    (media : file.agentId = other → (db.files.get? id).bind FileRecord.mediaPlace = file.mediaPlace)
    (stays : file.agentId = other → ∀ row before, db.features.get? id = some row → db.files.get? id = some before →
      before.folder = file.folder ∧ before.available = file.available)
    (settled : Settled characters db other fingerprint) :
    Settled characters { db with files := db.files.set id file } other fingerprint := by
  have unmoved : ∀ folder, ({ db with files := db.files.set id file } : Database Hash).mediaIn other folder =
      db.mediaIn other folder := by
    intro folder
    ext name
    rw [mem_mediaIn, mem_mediaIn]
    constructor
    next =>
      rintro ⟨copy, found, stored, owner, placed⟩
      rw [Dict.get?_set] at stored
      split at stored
      next =>
        obtain rfl := Option.some.inj stored
        rw [← media owner, Option.bind_eq_some_iff] at placed
        obtain ⟨before, there, placed⟩ := placed
        exact ⟨id, before, there, (same before there).trans owner, placed⟩
      next => exact ⟨copy, found, stored, owner, placed⟩
    next =>
      rintro ⟨copy, found, stored, owner, placed⟩
      by_cases here : copy = id
      next =>
        subst here
        have owner' : file.agentId = other := (same found stored).symm.trans owner
        refine ⟨copy, file, by rw [Dict.get?_set, if_pos rfl], owner', ?_⟩
        rw [← media owner', stored, Option.bind_some, placed]
      next => exact ⟨copy, found, by rw [Dict.get?_set, if_neg here, stored], owner, placed⟩
  -- The row of a stored copy before and after the write.
  have place : ∀ copy row, db.features.get? copy = some row → row.agentId = other →
      ∃ before found, db.files.get? copy = some before ∧ (db.files.set id file).get? copy = some found ∧
        before.folder = found.folder ∧ before.available = found.available := by
    intro copy row stored owner
    obtain ⟨before, there, owned⟩ := lawful.owned stored
    rw [Dict.get?_set]
    by_cases here : copy = id
    next =>
      subst here
      have owner' : file.agentId = other := (same before there).symm.trans (owned.trans owner)
      exact ⟨before, file, there, if_pos rfl, stays owner' row before stored there⟩
    next => exact ⟨before, before, there, by rw [if_neg here, there], rfl, rfl⟩
  refine settled.transfer (isStamp_congr fun copy => ?_) fun copy row stored owner content available => ⟨stored, ?_⟩
  next =>
    rw [mem_members, mem_members]
    simp only [unmoved]
    refine exists_congr fun copy => ⟨?_, ?_⟩
    next =>
      rintro ⟨found, ⟨row, stored, owner, content⟩, there, available, same⟩
      obtain ⟨before, again, early, late, folder, open_⟩ := place copy row stored owner
      obtain rfl : again = found := Option.some.inj (late.symm.trans there)
      exact ⟨before, ⟨row, stored, owner, content⟩, early, open_.trans available, by rw [folder, same]⟩
    next =>
      rintro ⟨before, ⟨row, stored, owner, content⟩, there, available, same⟩
      obtain ⟨again, found, early, late, folder, open_⟩ := place copy row stored owner
      obtain rfl : again = before := Option.some.inj (early.symm.trans there)
      exact ⟨found, ⟨row, stored, owner, content⟩, late, open_.symm.trans available, by rw [← folder, same]⟩
  next =>
    obtain ⟨before, found, early, late, -, open_⟩ := place copy row stored owner
    rw [availableAt, early, Option.any_some, open_]
    rwa [availableAt, late, Option.any_some] at available

end Database

end Phaze.Companion.Stamps
