import Phaze.Companion.Settling

set_option autoImplicit false

/-!
# Reports of features, and whole runs

What one report of an agent makes of the rows, which contents it touches, and the verdicts over any run of reports,
associations, deletions, invalidations and writes of `files`.
-/

namespace Phaze.Companion.Stamps

open Shared
open Quarantine.Detector (FileId JunkClass effectiveJunkClass)

variable {characters : Characters} {Hash : Type} [LinearOrder Hash]

namespace Database

variable {db : Database Hash} {agentId other : Text} {fingerprint : Hash} {id : FileId}
variable {row : CompanionContentFeatures Hash} {record : CompanionFeaturesRecord Hash}

/-! ## The rows of a report -/

omit [LinearOrder Hash] in
theorem get?_companionRows {paths : List Text} {path : Text}
    (found : (db.companionRows agentId paths).get? path = some id) :
    ∃ file, db.files.get? id = some file ∧ file.agentId = agentId ∧ file.originalPath = path := by
  rw [companionRows] at found
  revert found
  refine List.foldlRecOn (motive := fun rows : Dict Text FileId => rows.get? path = some id →
    ∃ file, db.files.get? id = some file ∧ file.agentId = agentId ∧ file.originalPath = path) _ _ ?_ ?_
  next => rw [Dict.get?_empty]; exact fun absurdity => nomatch absurdity
  intro rows each item listed found
  split at found
  next selected =>
    rw [Dict.get?_set] at found
    split at found
    next here =>
      obtain rfl := Option.some.inj found
      exact ⟨item.2, Dict.mem_items.mp listed, selected.1, here.symm⟩
    next => exact each found
  next => exact each found

def byPath (records : List (CompanionFeaturesRecord Hash)) : Dict Text (CompanionFeaturesRecord Hash) :=
  records.foldl (fun found record => found.set record.originalPath record) .empty

def valuesOf (db : Database Hash) (agentId : Text) (records : List (CompanionFeaturesRecord Hash)) :
    List (FileId × CompanionFeaturesRecord Hash) :=
  (db.companionRows agentId (byPath records).keys).items.filterMap fun item =>
    ((byPath records).get? item.1).map fun record => (item.2, record)

variable {records : List (CompanionFeaturesRecord Hash)}

omit [LinearOrder Hash] in
theorem owner_of_value (listed : (id, record) ∈ db.valuesOf agentId records) :
    ∃ file, db.files.get? id = some file ∧ file.agentId = agentId := by
  obtain ⟨⟨path, copy⟩, stored, same⟩ := List.mem_filterMap.mp listed
  obtain ⟨_, -, same⟩ := Option.map_eq_some_iff.mp same
  obtain ⟨rfl, -⟩ := Prod.mk.inj same
  obtain ⟨file, there, owner, -⟩ := get?_companionRows (Dict.mem_items.mp stored)
  exact ⟨file, there, owner⟩

omit [LinearOrder Hash] in
theorem values_distinct : ((db.valuesOf agentId records).map Prod.fst).Nodup := by
  have ids : ((db.companionRows agentId (byPath records).keys).items.map Prod.snd).Nodup := by
    refine List.Nodup.map_on ?_ (List.Nodup.of_map _ (Dict.distinct _))
    rintro ⟨path, id⟩ first ⟨path', id'⟩ second rfl
    obtain ⟨file, there, -, named⟩ := get?_companionRows (Dict.mem_items.mp first)
    obtain ⟨file', there', -, named'⟩ := get?_companionRows (Dict.mem_items.mp second)
    obtain rfl : file = file' := Option.some.inj (there.symm.trans there')
    rw [← named, ← named']
  refine List.Nodup.sublist ?_ ids
  rw [valuesOf, List.map_filterMap]
  induction (db.companionRows agentId (byPath records).keys).items with
  | nil => exact List.Sublist.slnil
  | cons item rest ih =>
    rw [List.filterMap_cons, List.map_cons]
    cases (byPath records).get? item.1 with
    | none => exact ih.cons _
    | some record => exact ih.cons_cons _

def stored (agentId : Text) (before : Option (CompanionContentFeatures Hash)) (record : CompanionFeaturesRecord Hash) :
    CompanionContentFeatures Hash where
  agentId
  fingerprint := record.fingerprint
  contentJunkClass := record.contentJunkClass
  junkClass := effectiveJunkClass record.contentJunkClass.val
    (before.any fun row => row.junkClass = some .knownStamp && row.fingerprint = record.fingerprint)
  folderMedia := record.folderMedia

theorem get?_upserts {values : List (FileId × CompanionFeaturesRecord Hash)}
    {features : Dict FileId (CompanionContentFeatures Hash)} (distinct : (values.map Prod.fst).Nodup) :
    (∃ record, (id, record) ∈ values ∧
        (values.foldl (upsert agentId) features).get? id = some (stored agentId (features.get? id) record)) ∨
      id ∉ values.map Prod.fst ∧ (values.foldl (upsert agentId) features).get? id = features.get? id := by
  induction values generalizing features with
  | nil => exact .inr ⟨List.not_mem_nil, rfl⟩
  | cons item rest ih =>
    obtain ⟨fresh, distinct⟩ := List.nodup_cons.mp distinct
    have first : (upsert agentId features item).get? id =
        if id = item.1 then some (stored agentId (features.get? item.1) item.2) else features.get? id := Dict.get?_set
    rcases @ih (upsert agentId features item) distinct with ⟨record, listed, found⟩ | ⟨absent, found⟩
    next =>
      have apart : id ≠ item.1 := by
        rintro rfl
        exact fresh (List.mem_map.mpr ⟨_, listed, rfl⟩)
      rw [first, if_neg apart] at found
      exact .inl ⟨record, List.mem_cons_of_mem _ listed, found⟩
    next =>
      rw [first] at found
      by_cases here : id = item.1
      next =>
        subst here
        rw [if_pos rfl] at found
        exact .inl ⟨item.2, List.mem_cons_self, found⟩
      next =>
        rw [if_neg here] at found
        refine .inr ⟨?_, found⟩
        rw [List.map_cons, List.mem_cons, not_or]
        exact ⟨here, absent⟩

def upserted (db : Database Hash) (agentId : Text) (records : List (CompanionFeaturesRecord Hash)) : Database Hash :=
  { db with features := (db.valuesOf agentId records).foldl (upsert agentId) db.features }

theorem get?_upserted :
    (∃ record, (id, record) ∈ db.valuesOf agentId records ∧
        (db.upserted agentId records).features.get? id = some (stored agentId (db.features.get? id) record)) ∨
      id ∉ (db.valuesOf agentId records).map Prod.fst ∧
        (db.upserted agentId records).features.get? id = db.features.get? id :=
  get?_upserts values_distinct

theorem store_cases {kept : Database Hash → Prop} (nothing : kept db)
    (reported : kept ((db.upserted agentId records).refreshKnownStamps characters agentId
      ((db.valuesOf agentId records).flatMap fun item => db.touchedBy item.1 item.2).toFinset true).1) :
    kept (db.storeCompanionFeatures characters agentId records).1 := by
  rw [storeCompanionFeatures]
  dsimp only
  split
  next => exact nothing
  next => exact reported

theorem upserted_lawful (lawful : db.Lawful) : (db.upserted agentId records).Lawful where
  owned {id row} found := by
    rcases @get?_upserted _ _ db agentId id records with ⟨record, listed, became⟩ | ⟨-, became⟩
    next =>
      obtain rfl := Option.some.inj (became.symm.trans found)
      exact owner_of_value listed
    next => exact lawful.owned (became.symm.trans found)
  classed {id row} found := by
    rcases @get?_upserted _ _ db agentId id records with ⟨record, -, became⟩ | ⟨-, became⟩
    next =>
      obtain rfl := Option.some.inj (became.symm.trans found)
      exact ⟨_, rfl⟩
    next => exact lawful.classed (became.symm.trans found)

theorem mem_touchedBy {content : Hash} :
    content ∉ db.touchedBy id record →
      (content ≠ record.fingerprint ∧ ∀ before, db.features.get? id = some before → content ≠ before.fingerprint) ∨
        ∃ before, db.features.get? id = some before ∧ before.fingerprint = record.fingerprint ∧
          before.folderMedia = record.folderMedia ∧ before.contentJunkClass = record.contentJunkClass := by
  intro untouched
  rw [touchedBy] at untouched
  split at untouched
  next same =>
    obtain ⟨before, stored, same⟩ := Option.map_eq_some_iff.mp same
    rw [Prod.mk.injEq, Prod.mk.injEq] at same
    exact .inr ⟨before, stored, same⟩
  next =>
    rw [List.mem_cons, not_or] at untouched
    refine .inl ⟨untouched.1, fun before stored => ?_⟩
    rintro rfl
    exact untouched.2 (by rw [stored]; exact List.mem_singleton_self _)

-- A content that a report does not touch keeps its copies, and each of them its class.
theorem upserted_settled (lawful : db.Lawful)
    (untouched : other = agentId → ∀ id record, (id, record) ∈ db.valuesOf agentId records →
      fingerprint ∉ db.touchedBy id record)
    (settled : Settled characters db other fingerprint) :
    Settled characters (db.upserted agentId records) other fingerprint := by
  -- A copy of the content that was reported again, unchanged.
  have unchanged : ∀ {id record before}, (id, record) ∈ db.valuesOf agentId records →
      db.features.get? id = some before → before.agentId = agentId ∧
        (other = agentId → before.fingerprint = fingerprint ∨ record.fingerprint = fingerprint →
          before.fingerprint = record.fingerprint ∧ before.folderMedia = record.folderMedia ∧
            before.contentJunkClass = record.contentJunkClass) := by
    intro id record before listed found
    obtain ⟨file, there, owner⟩ := owner_of_value listed
    obtain ⟨file', there', owned⟩ := lawful.owned found
    obtain rfl : file = file' := Option.some.inj (there.symm.trans there')
    refine ⟨owned.symm.trans owner, fun same content => ?_⟩
    rcases mem_touchedBy (untouched same id record listed) with ⟨fresh, early⟩ | ⟨again, found', same⟩
    next =>
      rcases content with content | content
      next => exact absurd content.symm (early before found)
      next => exact absurd content.symm fresh
    next =>
      obtain rfl : again = before := Option.some.inj (found'.symm.trans found)
      exact same
  have carried : ∀ id, (db.upserted agentId records).Carries other fingerprint id ↔ db.Carries other fingerprint id := by
    intro id
    rw [Carries, Carries]
    rcases @get?_upserted _ _ db agentId id records with ⟨record, listed, became⟩ | ⟨-, became⟩
    next =>
      rw [became]
      constructor
      next =>
        rintro ⟨_, ⟨⟩, owner, content⟩
        rcases mem_touchedBy (untouched owner.symm id record listed) with ⟨fresh, -⟩ | ⟨before, found, same, -⟩
        next => exact absurd content.symm fresh
        next => exact ⟨before, found, (unchanged listed found).1.trans owner, same.trans content⟩
      next =>
        rintro ⟨before, found, owner, content⟩
        have mine := unchanged listed found
        have same := mine.2 (owner.symm.trans mine.1) (.inl content)
        exact ⟨_, rfl, mine.1.symm.trans owner, same.1.symm.trans content⟩
    next => rw [became]
  have stamp : (db.upserted agentId records).isStamp characters other fingerprint =
      db.isStamp characters other fingerprint := isStamp_of_carries rfl carried
  intro id row found owner content available
  rw [stamp]
  rcases @get?_upserted _ _ db agentId id records with ⟨record, listed, became⟩ | ⟨-, became⟩
  next =>
    obtain rfl := Option.some.inj (became.symm.trans found)
    obtain ⟨before, early, owner', content'⟩ := (carried id).mp ⟨_, found, owner, content⟩
    obtain ⟨same, -, class_⟩ := (unchanged listed early).2 owner.symm (.inl content')
    have held := settled id before early owner' content' available
    rw [stored, early, Option.any_some]
    simp only [same, decide_true, Bool.and_true, ← class_, held]
    exact effectiveJunkClass_kept _ _
  next => exact settled id row (became.symm.trans found) owner content available

theorem store_lawful (lawful : db.Lawful) : (db.storeCompanionFeatures characters agentId records).1.Lawful :=
  store_cases lawful (refreshKnownStamps_decided.lawful (upserted_lawful lawful))

theorem store_settled (lawful : db.Lawful) (settled : Settled characters db other fingerprint) :
    Settled characters (db.storeCompanionFeatures characters agentId records).1 other fingerprint := by
  refine @store_cases _ _ _ _ _ _ (Settled characters · other fingerprint) settled ?_
  by_cases touched : other = agentId ∧ ∃ id record, (id, record) ∈ db.valuesOf agentId records ∧
      fingerprint ∈ db.touchedBy id record
  next =>
    obtain ⟨rfl, id, record, listed, content⟩ := touched
    exact refreshKnownStamps_decided.settled (List.mem_toFinset.mpr (List.mem_flatMap.mpr ⟨_, listed, content⟩))
  next =>
    refine refreshKnownStamps_decided.keeps_settled (upserted_settled lawful ?_ settled)
    exact fun same id record listed content => touched ⟨same, id, record, listed, content⟩

end Database

/-! ## Whole runs -/

open Database

-- A step that moves no media of the agent, and none of its stored companions.
def Quiet (agentId : Text) (db : Database Hash) : Action Hash → Prop
  | .store _ _ | .associate _ | .invalidate _ => True
  | .delete scope =>
      ∀ id file, db.files.get? id = some file → file.agentId = agentId → file.isMedia = true → scope id = false
  | .write id file =>
      file.agentId = agentId →
        (db.files.get? id).bind FileRecord.mediaPlace = file.mediaPlace ∧
          ∀ row before, db.features.get? id = some row → db.files.get? id = some before →
            before.folder = file.folder ∧ before.available = file.available

section Runs

variable {db next final : Database Hash} {action : Action Hash} {actions : List (Action Hash)} {agentId : Text}
variable {fingerprint : Hash}

omit [LinearOrder Hash] in
theorem same_owner {id : FileId} {file : FileRecord}
    (guard : (db.files.get? id).all (fun before => before.agentId = file.agentId) = true) :
    ∀ before, db.files.get? id = some before → before.agentId = file.agentId := by
  intro before there
  rw [there, Option.all_some] at guard
  exact of_decide_eq_true guard

theorem step_lawful (lawful : db.Lawful) (stepped : step characters db action = some next) : next.Lawful := by
  cases action with
  | store agentId records => exact Option.some.inj stepped ▸ store_lawful lawful
  | associate agentId =>
    exact Option.some.inj stepped ▸ refreshAgentStamps_keeps (fun _ _ _ decided => decided.lawful) lawful
  | delete scope => exact Option.some.inj stepped ▸ deleteFiles_lawful lawful
  | invalidate id => exact Option.some.inj stepped ▸ invalidate_lawful lawful
  | write id file =>
    rw [step, Option.ite_none_right_eq_some] at stepped
    obtain ⟨guard, stepped⟩ := stepped
    exact Option.some.inj stepped ▸ write_lawful lawful (same_owner guard)

theorem step_settled (lawful : db.Lawful) (quiet : Quiet agentId db action)
    (settled : Settled characters db agentId fingerprint) (stepped : step characters db action = some next) :
    Settled characters next agentId fingerprint := by
  cases action with
  | store owner records => exact Option.some.inj stepped ▸ store_settled lawful settled
  | associate owner =>
    exact Option.some.inj stepped ▸ refreshAgentStamps_keeps (fun _ _ _ decided => decided.keeps_settled) settled
  | delete scope => exact Option.some.inj stepped ▸ deleteFiles_settled quiet settled
  | invalidate id => exact Option.some.inj stepped ▸ invalidate_settled settled
  | write id file =>
    rw [step, Option.ite_none_right_eq_some] at stepped
    obtain ⟨guard, stepped⟩ := stepped
    exact Option.some.inj stepped ▸ write_settled lawful (same_owner guard) (fun owner => (quiet owner).1)
      (fun owner => (quiet owner).2) settled

-- From the association on, the class of each available copy is the verdict on its content as `files` stands.
theorem verdicts_stay_exact {earlier later : List (Action Hash)}
    (ran : Runs.run (step characters) .new earlier = some db)
    (last : Runs.run (step characters) db (.associate agentId :: later) = some final)
    (quiet : Runs.Along (step characters) (Quiet agentId) db (.associate agentId :: later)) :
    ∀ id file row, final.files.get? id = some file → final.features.get? id = some row → row.agentId = agentId →
      file.available = true →
        (KnownStamp characters (final.members agentId row.fingerprint).toFinset →
          row.junkClass = effectiveJunkClass row.contentJunkClass.val true) ∧
        (¬KnownStamp characters (final.members agentId row.fingerprint).toFinset →
          row.junkClass = effectiveJunkClass row.contentJunkClass.val false) := by
  intro id file row there stored owner available
  have lawful : db.Lawful := Runs.run_invariant (fun _ _ _ => step_lawful) earlier .new ran
  obtain ⟨associated, stepped, last⟩ := Runs.run_cons.mp last
  have start : associated.Lawful ∧ Settled characters associated agentId row.fingerprint :=
    ⟨step_lawful lawful stepped, Option.some.inj stepped ▸ refreshAgentStamps_settled lawful row.fingerprint⟩
  have settled := @Runs.run_keeps (Database Hash) (Action Hash) (step characters) (Quiet agentId)
    (fun db => db.Lawful ∧ Settled characters db agentId row.fingerprint)
    (fun _ _ _ held quiet stepped => ⟨step_lawful held.1 stepped, step_settled held.1 quiet held.2 stepped⟩)
    _ _ later (quiet.tail stepped) start last
  have exact_ := settled.2 id row stored owner rfl (by rw [availableAt, there, Option.any_some, available])
  rw [isStamp] at exact_
  refine ⟨fun stamp => ?_, fun plain => ?_⟩
  next => rwa [isKnownStamp_iff.mpr stamp] at exact_
  next => rwa [Bool.eq_false_iff.mpr fun stamp => plain (isKnownStamp_iff.mp stamp)] at exact_

end Runs

section Copies

def ascii : Characters := ⟨List.map Char.toLower, Char.isAlphanum⟩

def copyIn (folder : Char) : FileRecord where
  agentId := ['a']
  originalPath := ['/', folder, '/', 'x']
  fileType := "nfo".toList
  missing := false
  ambiguous := false
  rooted := List.mem_cons_self

def folders : Database Nat :=
  ⟨((Dict.empty.set 0 (copyIn 'k')).set 1 (copyIn 'l')).set 2 (copyIn 'm'), .empty⟩

def reports : List (CompanionFeaturesRecord Nat) :=
  ['k', 'l', 'm'].map fun folder => ⟨(copyIn folder).originalPath, 7, ⟨none, rfl⟩, []⟩

def Held (db : Database Nat) : Prop :=
  db.files = folders.files ∧ db.isStamp ascii ['a'] 7 = true ∧
    ∃ row, db.features.get? 0 = some row ∧ row.agentId = ['a'] ∧ row.fingerprint = 7 ∧ row.contentJunkClass.val = none

theorem Held.decided {agentId : Text} {fingerprints : Finset Nat} {db after : Database Nat} (held : Held db)
    (decided : Decided ascii agentId fingerprints db after) : Held after := by
  obtain ⟨files, stamp, row, stored, rest⟩ := held
  refine ⟨decided.files.trans files, decided.isStamp.trans stamp, _, by rw [decided.rows, stored]; rfl, ?_⟩
  rwa [judge_agentId, judge_fingerprint, judge_contentJunkClass]

-- One content in three folders without media.
theorem three_copies_are_stamped :
    ∃ row, ((folders.storeCompanionFeatures ascii ['a'] reports).1.refreshAgentStamps ascii ['a'] true).db.features.get? 0 =
      some row ∧ row.junkClass = some .knownStamp := by
  have reported : Held (folders.storeCompanionFeatures ascii ['a'] reports).1 := by
    have before : Held (folders.upserted ['a'] reports) :=
      ⟨rfl, by decide, ⟨['a'], 7, ⟨none, rfl⟩, none, []⟩, by decide, rfl, rfl, rfl⟩
    rw [storeCompanionFeatures]
    dsimp only
    rw [if_neg (by decide)]
    exact before.decided refreshKnownStamps_decided
  obtain ⟨files, stamp, row, stored, owner, content, plain⟩ :=
    refreshAgentStamps_keeps (fun _ _ _ decided held => Held.decided held decided) reported
  have ran : Runs.run (step ascii) .new
      [.write 0 (copyIn 'k'), .write 1 (copyIn 'l'), .write 2 (copyIn 'm'), .store ['a'] reports] =
        some (folders.storeCompanionFeatures ascii ['a'] reports).1 := rfl
  have last : Runs.run (step ascii) (folders.storeCompanionFeatures ascii ['a'] reports).1 [.associate ['a']] =
      some ((folders.storeCompanionFeatures ascii ['a'] reports).1.refreshAgentStamps ascii ['a'] true).db := rfl
  have exact_ := (verdicts_stay_exact ran last ⟨trivial, trivial⟩ 0 (copyIn 'k') row
    (by rw [files]; decide) stored owner rfl).1
  rw [plain, content] at exact_
  exact ⟨row, stored, exact_ (isKnownStamp_iff.mp stamp)⟩

end Copies

end Phaze.Companion.Stamps
