import Mathlib.Logic.Basic
import Phaze.Recovery.Policy

set_option autoImplicit false

/-!
# Who owns a ledger row

A row that nothing is running should be the recovery's or the reaper's, never both and never
neither. The two halves decide with the same clauses but for one: recovery lets a force-skip win
over a failed extraction, the clause the reaper uses does not.
-/

namespace Phaze.Recovery

/-! ## Keys -/

theorem eq_of_append_mark {α : Type} {mark : α} {one two rest other : List α} (first : mark ∉ one)
    (second : mark ∉ two) (same : one ++ mark :: rest = two ++ mark :: other) : one = two ∧ rest = other := by
  rcases List.append_eq_append_iff.mp same with ⟨middle, long, tail⟩ | ⟨middle, long, tail⟩
  · cases middle with
    | nil => exact ⟨by simpa using long.symm, (List.cons.inj tail).2⟩
    | cons head middle =>
        obtain rfl : mark = head := (List.cons.inj tail).1
        exact absurd (long ▸ by simp) second
  · cases middle with
    | nil => exact ⟨by simpa using long, (List.cons.inj tail).2.symm⟩
    | cons head middle =>
        obtain rfl : mark = head := (List.cons.inj tail).1
        exact absurd (long ▸ by simp) first

theorem ledgerKey_inj {one two : Function} {file other : String} (first : ':' ∉ one.name.toList)
    (second : ':' ∉ two.name.toList) (same : ledgerKeyForFunction one file = ledgerKeyForFunction two other) :
    one.name = two.name ∧ file = other := by
  have letters := congrArg String.toList same
  have colon : ":".toList = [':'] := rfl
  simp only [ledgerKeyForFunction, String.toList_append, List.append_assoc, colon, List.singleton_append] at letters
  have parts := eq_of_append_mark first second letters
  exact ⟨String.ext parts.1, String.ext parts.2⟩

theorem colon_notMem_of_lane {function : Function} (lane : function ∈ reapLanes) : ':' ∉ function.name.toList := by
  simp only [reapLanes, List.mem_cons, List.not_mem_nil, or_false] at lane
  rcases lane with rfl | rfl | rfl | rfl <;> decide

theorem name_injective_of_lane {one two : Function} (first : one ∈ reapLanes) (second : two ∈ reapLanes)
    (same : one.name = two.name) : one = two := by
  simp only [reapLanes, List.mem_cons, List.not_mem_nil, or_false] at first second
  rcases first with rfl | rfl | rfl | rfl <;> rcases second with rfl | rfl | rfl | rfl <;> first
    | rfl
    | exact absurd same (by decide)

theorem ledgerKey_injective {one two : Function} {file other : String} (first : one ∈ reapLanes)
    (second : two ∈ reapLanes) (same : ledgerKeyForFunction one file = ledgerKeyForFunction two other) :
    one = two ∧ file = other := by
  obtain ⟨name, file⟩ := ledgerKey_inj (colon_notMem_of_lane first) (colon_notMem_of_lane second) same
  exact ⟨name_injective_of_lane first second name, file⟩

/-! ## What the reaper deletes -/

section Reaper

variable {db : Database} {function other : Function} {file : String} {row : SchedulingLedger}

theorem mem_resolvedKeys (known : file ∈ db.files) (lane : function ∈ reapLanes) :
    ledgerKeyForFunction function file ∈ resolvedKeys db function ↔ resolvedClause db function file = true := by
  simp only [resolvedKeys, List.mem_map, List.mem_filter]
  constructor
  · rintro ⟨found, ⟨-, resolved⟩, same⟩
    obtain ⟨-, rfl⟩ := ledgerKey_injective lane lane same
    exact resolved
  · intro resolved
    exact ⟨file, ⟨known, resolved⟩, rfl⟩

theorem notMem_resolvedKeys (lane : function ∈ reapLanes) (elsewhere : other ∈ reapLanes)
    (different : function ≠ other) : ledgerKeyForFunction function file ∉ resolvedKeys db other := by
  intro member
  obtain ⟨found, -, same⟩ := List.mem_map.mp member
  exact different (ledgerKey_injective elsewhere lane same).1.symm

-- Only the row on the key itself is ever looked at.
theorem any_reapKeys {keys : List String} (kept : ledgerKeyForFunction function file ∉ keys)
    (test : SchedulingLedger → Bool) :
    ((reapKeys db keys).ledger.any fun row => row.key = ledgerKeyForFunction function file && test row) =
      db.ledger.any fun row => row.key = ledgerKeyForFunction function file && test row := by
  rw [Bool.eq_iff_iff]
  simp only [reapKeys, List.any_eq_true, List.mem_filter, Bool.and_eq_true, decide_eq_true_eq]
  constructor
  · rintro ⟨row, ⟨member, -⟩, key, passes⟩
    exact ⟨row, member, key, passes⟩
  · rintro ⟨row, member, key, passes⟩
    exact ⟨row, ⟨member, key ▸ kept⟩, key, passes⟩

theorem resolvedClause_reapKeys {keys : List String} (kept : ledgerKeyForFunction function file ∉ keys) :
    resolvedClause (reapKeys db keys) function file = resolvedClause db function file := by
  have inflight : inflightForFunction (reapKeys db keys) function file = inflightForFunction db function file := by
    simpa [inflightForFunction] using any_reapKeys kept fun _ => true
  have cloud : resolvedCloudLedgerClause (reapKeys db keys) function file =
      resolvedCloudLedgerClause db function file := by
    rw [resolvedCloudLedgerClause, inflight]
    rfl
  cases function with
  | processFile =>
      have backfill : analyzeOrphanedBackfillClause (reapKeys db keys) file =
          analyzeOrphanedBackfillClause db file := by
        simp only [analyzeOrphanedBackfillClause, Bool.and_assoc]
        exact any_reapKeys kept _
      simp only [resolvedClause, resolvedLedgerClause, inflightClause, stageToFunction, inflight,
        recoveryDomainCompletedClause, backfill]
      rfl
  | extractFileMetadata =>
      have retry : metadataOrphanedRetryClause (reapKeys db keys) file = metadataOrphanedRetryClause db file :=
        any_reapKeys kept _
      simp only [resolvedClause, resolvedLedgerClause, inflightClause, stageToFunction, inflight,
        recoveryDomainCompletedClause, retry]
      rfl
  | _ => exact cloud

-- One pass over some of the lanes, each seeing what the lanes before it left.
theorem mem_ledger_foldl {lanes : List Function} (distinct : lanes.Nodup) (sound : lanes ⊆ reapLanes)
    (lane : function ∈ reapLanes) (known : file ∈ db.files) (key : row.key = ledgerKeyForFunction function file) :
    row ∈ (lanes.foldl (fun db each => reapKeys db (resolvedKeys db each)) db).ledger ↔
      row ∈ db.ledger ∧ (function ∈ lanes → resolvedClause db function file = false) := by
  induction lanes generalizing db with
  | nil => simp
  | cons head rest ih =>
      obtain ⟨fresh, later⟩ := List.nodup_cons.mp distinct
      obtain ⟨here, below⟩ := List.cons_subset.mp sound
      have onward := @ih (reapKeys db (resolvedKeys db head)) later below known
      rw [List.foldl_cons, onward]
      by_cases mine : function = head
      · subst mine
        have keys := mem_resolvedKeys known lane
        rw [← key] at keys
        simp [reapKeys, fresh, keys]
      · have away : row.key ∉ resolvedKeys db head := key ▸ notMem_resolvedKeys lane here mine
        rw [resolvedClause_reapKeys (key ▸ away)]
        simp [reapKeys, away, mine]

theorem reaped_iff (lane : function ∈ reapLanes) (known : file ∈ db.files) (member : row ∈ db.ledger)
    (key : row.key = ledgerKeyForFunction function file) :
    row ∉ (reapResolvedLedgerRows db).ledger ↔ resolvedClause db function file = true := by
  rw [reapResolvedLedgerRows, mem_ledger_foldl (by decide) (List.Subset.refl _) lane known key]
  simp [member, lane]

end Reaper

/-! ## What recovery claims -/

-- The row is one of the four functions', on the key of an existing file that its payload names.
structure Covered (db : Database) (row : SchedulingLedger) (file : String) : Prop where
  member : row ∈ db.ledger
  known : file ∈ db.files
  function : row.function.domainCompletedStage = true
  key : row.key = ledgerKeyForFunction row.function file
  payload : row.fileId = some file

-- Nothing is running the row.
structure Idle (db : Database) (row : SchedulingLedger) (file : String) : Prop where
  queue : ∀ job ∈ db.saqJobs, job.key = row.key → job.status.live = false
  cloud : row.function.cloudOwned = true → ∀ job ∈ db.cloudJobs, job.fileId = file → job.status.busy = false

section Rows

variable {db : Database} {row : SchedulingLedger} {file : String}

theorem Covered.lane (covered : Covered db row file) : row.function ∈ reapLanes := by
  have function := covered.function
  cases named : row.function <;> rw [named] at function <;> first
    | decide
    | cases function

theorem Covered.inflight (covered : Covered db row file) : inflightForFunction db row.function file = true :=
  List.any_eq_true.mpr ⟨row, covered.member, decide_eq_true covered.key⟩

theorem Covered.notLive (covered : Covered db row file) (idle : Idle db row file) :
    liveJobForFunction db row.function file = false := by
  rw [liveJobForFunction, List.any_eq_false]
  intro job member both
  simp only [Bool.and_eq_true, decide_eq_true_eq] at both
  rw [idle.queue job member (both.1.trans covered.key.symm)] at both
  cases both.2

theorem Idle.notBusy (idle : Idle db row file) (owned : row.function.cloudOwned = true) :
    cloudBusyClause db file = false := by
  rw [cloudBusyClause, List.any_eq_false]
  intro job member both
  simp only [Bool.and_eq_true, decide_eq_true_eq] at both
  rw [idle.cloud owned job member both.1] at both
  cases both.2

-- The completion the reaper goes by.
def completedClause (db : Database) (function : Function) (file : String) : Bool :=
  match function with
  | .processFile => recoveryDomainCompletedClause db .analyze file
  | .extractFileMetadata => recoveryDomainCompletedClause db .metadata file
  | _ => cloudLaneCompletedClause db file

theorem resolvedClause_eq (covered : Covered db row file) (idle : Idle db row file) :
    resolvedClause db row.function file = completedClause db row.function file := by
  have inflight := covered.inflight
  have notLive := covered.notLive idle
  have notBusy := idle.notBusy
  have function := covered.function
  cases named : row.function <;> rw [named] at inflight notLive notBusy function
  case extractFileMetadata =>
    simp [resolvedClause, completedClause, resolvedLedgerClause, inflightClause, notRunningClause, liveJobClause,
      stageToFunction, inflight, notLive]
  case processFile =>
    simp [resolvedClause, completedClause, resolvedLedgerClause, inflightClause, notRunningClause, liveJobClause,
      stageToFunction, inflight, notLive, notBusy rfl]
  case pushFile | s3Upload =>
    simp [resolvedClause, completedClause, resolvedCloudLedgerClause, inflight, notLive, notBusy rfl]
  all_goals cases function

theorem orphanedClause_eq (covered : Covered db row file) (idle : Idle db row file) {stage : Stage}
    (enrich : stageToFunction stage = row.function) :
    orphanedClause db stage file = !completedClause db row.function file := by
  have inflight := covered.inflight
  have notLive := covered.notLive idle
  have notBusy := idle.notBusy
  rw [← enrich] at inflight notLive notBusy ⊢
  cases stage with
  | analyze =>
      simp [completedClause, orphanedClause, inflightClause, notRunningClause, liveJobClause, stageToFunction,
        show inflightForFunction db .processFile file = true from inflight,
        show liveJobForFunction db .processFile file = false from notLive, notBusy rfl]
  | metadata =>
      simp [completedClause, orphanedClause, inflightClause, notRunningClause, liveJobClause, stageToFunction,
        show inflightForFunction db .extractFileMetadata file = true from inflight,
        show liveJobForFunction db .extractFileMetadata file = false from notLive]

variable {uuid : String → Option String}

theorem Idle.notOwned (covered : Covered db row file) (idle : Idle db row file) :
    isOwnedByTheCloudLane row (inFlightCloudJobIds db) (awaitingCloudJobIds db) = false := by
  rw [isOwnedByTheCloudLane, covered.payload]
  cases owned : row.function.cloudOwned with
  | false => rfl
  | true =>
      have quiet : ∀ job ∈ db.cloudJobs, job.fileId = file → job.status.busy = false := idle.cloud owned
      have notInFlight : file ∉ inFlightCloudJobIds db := by
        intro member
        obtain ⟨job, found, same⟩ := List.mem_map.mp member
        obtain ⟨there, status⟩ := List.mem_filter.mp found
        have still := quiet job there same
        revert status still
        cases job.status <;> decide
      have notAwaiting : file ∉ awaitingCloudJobIds db := by
        intro member
        obtain ⟨job, found, same⟩ := List.mem_map.mp member
        obtain ⟨there, status⟩ := List.mem_filter.mp found
        have still := quiet job there same
        rw [of_decide_eq_true status] at still
        cases still
      simp [notInFlight, notAwaiting]

theorem recovers_eq (covered : Covered db row file) (idle : Idle db row file) :
    recovers uuid db row = !isDomainCompleted row (buildDoneSets db (ledgerFids uuid db.ledger)) := by
  have live : row.key ∉ liveJobKeys db := by
    intro member
    obtain ⟨job, found, same⟩ := List.mem_map.mp member
    obtain ⟨there, status⟩ := List.mem_filter.mp found
    rw [idle.queue job there same] at status
    cases status
  rw [recovers, isOrphaned, idle.notOwned covered]
  simp [live]

/-! ## The sets and the clauses -/

theorem Covered.mem_ledgerFids (covered : Covered db row file) (canonical : uuid file = some file) :
    file ∈ ledgerFids uuid db.ledger := by
  rw [ledgerFids, List.mem_eraseDups, List.mem_filterMap]
  exact ⟨row, covered.member, by simp [covered.payload, canonical]⟩

theorem lookup_eq_some_iff_mem {entries : List (String × Int)} (distinct : (entries.map Prod.fst).Nodup)
    (time : Int) : entries.lookup file = some time ↔ (file, time) ∈ entries := by
  induction entries with
  | nil => simp
  | cons entry rest ih =>
      obtain ⟨name, first⟩ := entry
      obtain ⟨fresh, later⟩ := List.nodup_cons.mp distinct
      by_cases mine : file = name
      · subst mine
        have absent : (file, time) ∉ rest := fun found => fresh (List.mem_map.mpr ⟨_, found, rfl⟩)
        simp [absent, eq_comm]
      · have different : (file == name) = false := by simpa using mine
        simp [List.lookup_cons, different, ih later, mine]

-- The dictionary of failure times, read back.
theorem lookup_metadataFailedAt {fids : List String} (named : file ∈ fids) (time : Int) :
    (buildDoneSets db fids).metadataFailedAt.lookup file = some time ↔
      ∃ record ∈ db.metadata, record.fileId = file ∧ record.failedAt = some time := by
  have distinct : ((buildDoneSets db fids).metadataFailedAt.map Prod.fst).Nodup := by
    refine db.metadataUnique.sublist ?_
    refine List.Sublist.trans ?_ (List.filter_sublist (p := fun record => decide (record.fileId ∈ fids)).map _)
    simp only [buildDoneSets]
    induction db.metadata.filter fun record => decide (record.fileId ∈ fids) with
    | nil => exact .slnil
    | cons record rest ih =>
        cases failed : record.failedAt with
        | none => simpa [failed] using ih.cons record.fileId
        | some time => simpa [failed] using ih.cons_cons record.fileId
  rw [lookup_eq_some_iff_mem distinct]
  simp only [buildDoneSets, List.mem_filterMap, List.mem_filter, Option.map_eq_some_iff, Prod.mk.injEq,
    decide_eq_true_eq]
  constructor
  · rintro ⟨record, ⟨member, -⟩, time, failed, rfl, rfl⟩
    exact ⟨record, member, rfl, failed⟩
  · rintro ⟨record, member, rfl, failed⟩
    exact ⟨record, ⟨member, named⟩, time, failed, rfl, rfl⟩

-- The key is the ledger's primary key, so the clause looks at the row itself.
theorem metadataOrphanedRetryClause_iff (covered : Covered db row file)
    (function : row.function = .extractFileMetadata) :
    metadataOrphanedRetryClause db file = true ↔
      ∃ record ∈ db.metadata, record.fileId = file ∧ ∃ failedAt, record.failedAt = some failedAt ∧
        failedAt < row.enqueuedAt := by
  have key := covered.key
  rw [function] at key
  have itself : ∀ other ∈ db.ledger, other.key = ledgerKeyForFunction .extractFileMetadata file → other = row :=
    fun other member same => List.inj_on_of_nodup_map db.ledgerKeys member covered.member (same.trans key.symm)
  simp only [metadataOrphanedRetryClause, List.any_eq_true, Bool.and_eq_true, decide_eq_true_eq,
    Option.any_eq_true]
  constructor
  · rintro ⟨other, member, same, late⟩
    obtain rfl := itself other member same
    exact late
  · intro late
    exact ⟨row, covered.member, key, late⟩

-- The metadata stage was force-skipped, and the row was enqueued after a failure on record.
def SkippedRetry (db : Database) (row : SchedulingLedger) (file : String) : Prop :=
  row.function = .extractFileMetadata ∧ skippedClause db .metadata file = true ∧
    ∃ record ∈ db.metadata, record.fileId = file ∧ ∃ failedAt, record.failedAt = some failedAt ∧
      failedAt < row.enqueuedAt

theorem mem_named {fids : List String} (known : file ∈ db.files) (named : file ∈ fids) (test : String → Bool) :
    file ∈ (db.files.filter fun each => decide (each ∈ fids)).filter test ↔ test file = true := by
  simp [List.mem_filter, known, named]

-- Without a skip the two halves put the failure and the enqueue in the same order.
theorem isMetadataDomainCompleted_eq (covered : Covered db row file)
    (function : row.function = .extractFileMetadata) {fids : List String} (named : file ∈ fids) :
    isMetadataDomainCompleted file row.enqueuedAt (buildDoneSets db fids) =
      (skippedClause db .metadata file || recoveryDomainCompletedClause db .metadata file) := by
  have skipped : file ∈ (buildDoneSets db fids).metadataSkipped ↔ skippedClause db .metadata file = true :=
    mem_named covered.known named _
  have domain : file ∈ (buildDoneSets db fids).metadataDomainCompleted ↔
      domainCompletedClause db .metadata file = true := mem_named covered.known named _
  have retry := metadataOrphanedRetryClause_iff covered function
  have failure := @lookup_metadataFailedAt db file fids named
  rw [isMetadataDomainCompleted, recoveryDomainCompletedClause]
  simp only [skipped, domain]
  by_cases skip : skippedClause db .metadata file = true
  · simp [skip]
  · rw [if_neg skip]
    by_cases complete : domainCompletedClause db .metadata file = true
    · rw [if_neg (not_not.mpr complete)]
      cases found : (buildDoneSets db fids).metadataFailedAt.lookup file with
      | none =>
          have timely : metadataOrphanedRetryClause db file = false := by
            rw [Bool.eq_false_iff, ne_eq, retry]
            rintro ⟨record, member, same, failedAt, failed, -⟩
            have there := (failure failedAt).mpr ⟨record, member, same, failed⟩
            rw [found] at there
            cases there
          simp [complete, timely]
      | some failedAt =>
          obtain ⟨record, member, same, failed⟩ := (failure failedAt).mp found
          have order : metadataOrphanedRetryClause db file = decide (failedAt < row.enqueuedAt) := by
            rw [Bool.eq_iff_iff, retry, decide_eq_true_eq]
            constructor
            · rintro ⟨other, there, also, time, known, late⟩
              have this := (failure time).mpr ⟨other, there, also, known⟩
              obtain rfl : failedAt = time := Option.some.inj (found.symm.trans this)
              exact late
            · exact fun late => ⟨record, member, same, failedAt, failed, late⟩
          simp only [skip, complete, order, Bool.false_or, Bool.true_and]
          by_cases late : failedAt < row.enqueuedAt
          · simp [late]
          · simp [late, Int.not_lt.mp late]
    · simp [skip, complete]

theorem isDomainCompleted_eq_iff (covered : Covered db row file) (canonical : uuid file = some file) :
    isDomainCompleted row (buildDoneSets db (ledgerFids uuid db.ledger)) = completedClause db row.function file ↔
      ¬ SkippedRetry db row file := by
  have named := covered.mem_ledgerFids canonical
  have function := covered.function
  cases kind : row.function
  case extractFileMetadata =>
    have metadata := isMetadataDomainCompleted_eq covered kind named
    have retry := metadataOrphanedRetryClause_iff covered kind
    rw [isDomainCompleted, covered.payload, SkippedRetry, ← retry]
    simp only [kind, Function.domainCompletedStage, Function.cloudLane, completedClause, metadata,
      recoveryDomainCompletedClause, domainCompletedClause]
    cases skippedClause db .metadata file <;> cases metadataOrphanedRetryClause db file <;> simp
  case processFile =>
    have done := @mem_named db file _ covered.known named fun each => recoveryDomainCompletedClause db .analyze each
    have same : isDomainCompleted row (buildDoneSets db (ledgerFids uuid db.ledger)) =
        recoveryDomainCompletedClause db .analyze file := by
      rw [isDomainCompleted, covered.payload, kind, Bool.eq_iff_iff, ← done]
      simp [Function.domainCompletedStage, buildDoneSets]
    simp [same, completedClause, SkippedRetry, kind]
  case pushFile | s3Upload =>
    have done := @mem_named db file _ covered.known named fun each => cloudLaneCompletedClause db each
    have same : isDomainCompleted row (buildDoneSets db (ledgerFids uuid db.ledger)) =
        cloudLaneCompletedClause db file := by
      rw [isDomainCompleted, covered.payload, kind, Bool.eq_iff_iff, ← done]
      simp [Function.domainCompletedStage, Function.cloudLane, buildDoneSets]
    simp [same, completedClause, SkippedRetry, kind]
  all_goals
    rw [kind] at function
    cases function

-- Recovery claims the row or the reaper deletes it, not both, and the reports agree with recovery.
def Owned (uuid : String → Option String) (db : Database) (row : SchedulingLedger) (file : String) : Prop :=
  Xor (recovers uuid db row = true) (row ∉ (reapResolvedLedgerRows db).ledger) ∧
    ∀ stage, stageToFunction stage = row.function → recovers uuid db row = orphanedClause db stage file

theorem owned_iff (canonical : ∀ file ∈ db.files, uuid file = some file) (covered : Covered db row file)
    (idle : Idle db row file) : Owned uuid db row file ↔ ¬ SkippedRetry db row file := by
  have halves := isDomainCompleted_eq_iff covered (canonical file covered.known)
  have claims := @recovers_eq db row file uuid covered idle
  have reaps : row ∉ (reapResolvedLedgerRows db).ledger ↔ completedClause db row.function file = true := by
    rw [reaped_iff covered.lane covered.known covered.member covered.key, resolvedClause_eq covered idle]
  rw [Owned, reaps, ← halves, claims]
  constructor
  · rintro ⟨one, -⟩
    revert one
    cases isDomainCompleted row (buildDoneSets db (ledgerFids uuid db.ledger)) <;>
      cases completedClause db row.function file <;> simp [Xor]
  · intro same
    rw [same]
    refine ⟨?_, fun stage enrich => (orphanedClause_eq covered idle enrich).symm⟩
    cases completedClause db row.function file <;> simp [Xor]

end Rows

/-! ## A skipped retry -/

namespace Skipped

def file : String := "1c8f6a52-7d3e-4b0a-9c61-2f5d8e4b7a90"

-- The parser on the only id there is.
def uuid (text : String) : Option String := if text = file then some file else none

def row (enqueuedAt : Int) : SchedulingLedger :=
  ⟨"extract_file_metadata:1c8f6a52-7d3e-4b0a-9c61-2f5d8e4b7a90", .extractFileMetadata, some file, enqueuedAt, none⟩

-- The extraction failed at 100, the retry was enqueued at 200 and its job is gone.
def db (skips : List StageSkip) : Database where
  files := [file]
  analysis := []
  metadata := [⟨file, some 100⟩]
  cloudJobs := []
  stageSkips := skips
  ledger := [row 200]
  saqJobs := []
  metadataUnique := by decide
  ledgerKeys := by decide

theorem canonical (skips : List StageSkip) : ∀ each ∈ (db skips).files, uuid each = some each := by
  intro each member
  obtain rfl : each = file := by simpa [db] using member
  exact if_pos rfl

theorem covered (skips : List StageSkip) : Covered (db skips) (row 200) file :=
  ⟨by simp [db], by simp [db], rfl, by decide, rfl⟩

theorem idle (skips : List StageSkip) : Idle (db skips) (row 200) file :=
  ⟨by simp [db], fun owned => by cases owned⟩

end Skipped

theorem skipped_retry_unowned : ¬ ∀ (uuid : String → Option String) (db : Database) (row : SchedulingLedger)
    (file : String), (∀ each ∈ db.files, uuid each = some each) → Covered db row file → Idle db row file →
      Owned uuid db row file := by
  intro owned
  have one := (owned Skipped.uuid _ _ _ (Skipped.canonical [⟨Skipped.file, .metadata⟩]) (Skipped.covered _)
    (Skipped.idle _)).1
  have unclaimed : recovers Skipped.uuid (Skipped.db [⟨Skipped.file, .metadata⟩]) (Skipped.row 200) = false := by
    decide
  have kept : Skipped.row 200 ∈ (reapResolvedLedgerRows (Skipped.db [⟨Skipped.file, .metadata⟩])).ledger := by
    decide
  simp [Xor, unclaimed, kept] at one

theorem owned_retry : Owned Skipped.uuid (Skipped.db []) (Skipped.row 200) Skipped.file := by
  refine (owned_iff (Skipped.canonical []) (Skipped.covered []) (Skipped.idle [])).mpr ?_
  rintro ⟨-, skipped, -⟩
  cases skipped

end Phaze.Recovery
