import Phaze.Submit.Steps
import Phaze.Shared.Runs

set_option autoImplicit false

/-!
# The telemetry slots

A Job keeps the slot it was created with, while the slot in the row is freed by a status and moved by the next
submit. The two agree as long as a row comes back in flight only with a slot that its Job, if it has one, holds
alone, and as long as a submit that refreshes a Job finds the slot of the row free.
-/

namespace Phaze.Submit

open Phaze.Cloud
open Phaze.Runs
open Phaze.Drain (Backend BackendKind)
open Phaze.Drain.Caps (Write)
open Phaze.Staging (CloudJobStatus)

section Slots

variable {File : Type} [DecidableEq File] (settings : Settings)

def Settings.runsKueue (row : CloudJob) : Bool :=
  row.backendId.any fun backend => settings.kind backend = some .kueue

def kueueInFlight (table : Table File CloudJob) : Finset File :=
  table.matching fun _ row => settings.runsKueue row && inFlight row.status

structure SlotsHeld (state : State File) : Prop where
  apart : ∀ file other backend cluster row row' slot, (file, backend) ≠ (other, cluster) →
    state.table.lookup file = some row → inFlight row.status = true → state.jobs file backend = some (some slot) →
    state.table.lookup other = some row' → inFlight row'.status = true → state.jobs other cluster ≠ some (some slot)
  bounded : ∀ process file backend slot, state.runs process = .allocated file backend (some slot) →
    slot < settings.burstSlotBound
  rowBounded : ∀ file row slot, state.table.lookup file = some row → row.telemetrySlot = some slot →
    slot < settings.burstSlotBound
  jobBounded : ∀ file backend slot, state.jobs file backend = some (some slot) → slot < settings.burstSlotBound
  matched : ∀ file row backend slot, state.table.lookup file = some row → inFlight row.status = true →
    state.jobs file backend = some slot → slot = row.telemetrySlot

-- `allocate_slot` gives up on the run's file only where the clusters are full.
def FullWhereNone (state : State File) : Action File → Prop
  | .allocate process now => ∀ file backend, state.runs process = .resolved file backend →
      (allocateSlot state.table file settings.burstSlotBound now).1 = none →
        settings.burstSlotBound ≤ (kueueInFlight settings state.table).card
  | _ => True

/-! ## The condition -/

-- The slots the file is issued: those of its Jobs, and of the runs that have not POSTed yet.
def Claims (state : State File) (file : File) (slot : Option Nat) : Prop :=
  (∃ backend, state.jobs file backend = some slot) ∨
    ∃ process backend, state.runs process = .allocated file backend slot

-- They are the slot in the row, and no other row in flight has it.
def Stands (state : State File) (file : File) (column : Option Nat) : Prop :=
  ∀ slot, Claims state file slot → slot = column ∧ ∀ held ∈ slot, holders state.table file held = ∅

-- A row comes back in flight only with a slot that stands; a submit that finds the file issued a slot
-- finds it free; where the pool is full the row has none; a Job is on one cluster, a slot on no agent.
def SlotAdmitted (state : State File) : Action File → Prop
  | .dispatch file _ placement _ => ∀ row, state.table.lookup file = some row →
      (placement = .compute → row.telemetrySlot = none) ∧ Stands state file row.telemetrySlot
  | .write file applied => applied.enters = true → ∀ row, state.table.lookup file = some row →
      inFlight row.status = true ∨ Stands state file row.telemetrySlot
  | .commit seen => ∀ file read row, state.reading = some (file, some read) → state.table.lookup file = some row →
      inFlight (commitReconcile settings.cloud read row seen).status = true →
        inFlight row.status = true ∨ Stands state file row.telemetrySlot
  | .allocate process _ => ∀ file backend, state.runs process = .resolved file backend →
      ∃ row, state.table.lookup file = some row ∧ settings.runsKueue row = true ∧
        (inFlight row.status = true →
          (∀ slot, Claims state file slot → ∃ held ∈ slot, holders state.table file held = ∅) ∧
            (lowestFree state.table file settings.burstSlotBound = none → row.telemetrySlot = none))
  | .post process => ∀ file backend slot, state.runs process = .allocated file backend slot →
      ∀ cluster, state.jobs file cluster ≠ none → cluster = backend
  | .upsert process _ => ∀ file backend, state.runs process = .posted file backend →
      state.table.lookup file = none → Stands state file none
  | _ => True

/-! ## The invariant -/

def Placed (state : State File) (file : File) (column : Option Nat) : Prop :=
  ∀ slot, Claims state file slot → slot = column ∧
    ∀ held ∈ slot, ∀ other row, other ≠ file → state.table.lookup other = some row → inFlight row.status = true →
      ¬ Claims state other (some held)

structure Held (state : State File) : Prop where
  placed : ∀ file row, state.table.lookup file = some row → inFlight row.status = true →
    Placed state file row.telemetrySlot
  bounded : ∀ file slot, Claims state file (some slot) → slot < settings.burstSlotBound
  rows : ∀ file row slot, state.table.lookup file = some row → row.telemetrySlot = some slot →
    slot < settings.burstSlotBound ∧ settings.runsKueue row = true
  single : ∀ file backend cluster, state.jobs file backend ≠ none → state.jobs file cluster ≠ none →
    backend = cluster

end Slots

/-! ## The allocation -/

section Allocation

variable {File : Type} [DecidableEq File] {settings : Settings} {table : Table File CloudJob} {file : File}
  {bound slot : Nat} {current : Option Nat}

theorem mem_holders {other : File} : other ∈ holders table file slot ↔ other ≠ file ∧
    ∃ row, table.lookup other = some row ∧ row.telemetrySlot = some slot ∧ inFlight row.status = true := by
  simp only [holders, Table.mem_matching, Bool.and_eq_true, decide_eq_true_eq, and_assoc]
  constructor
  · rintro ⟨row, found, apart, held, flying⟩
    exact ⟨apart, row, found, held, flying⟩
  · rintro ⟨apart, row, found, held, flying⟩
    exact ⟨row, found, apart, held, flying⟩

theorem lowestFree_some (free : lowestFree table file bound = some slot) :
    slot < bound ∧ holders table file slot = ∅ := by
  have member := List.mem_of_find?_eq_some free
  have unheld := List.find?_some free
  exact ⟨List.mem_range.mp member, by simpa using unheld⟩

theorem lowestFree_none (full : lowestFree table file bound = none) (below : slot < bound) :
    (holders table file slot).Nonempty := by
  have all := List.find?_eq_none.mp full slot (List.mem_range.mpr below)
  rw [Finset.nonempty_iff_ne_empty]
  simpa using all

theorem chooseSlot_some (chosen : chooseSlot table file bound current = some slot) :
    slot < bound ∧ holders table file slot = ∅ := by
  unfold chooseSlot at chosen
  split at chosen
  · split at chosen
    · rename_i kept
      cases chosen
      exact kept
    · exact lowestFree_some chosen
  · exact lowestFree_some chosen

theorem chooseSlot_none (gaveUp : chooseSlot table file bound current = none) :
    lowestFree table file bound = none := by
  unfold chooseSlot at gaveUp
  split at gaveUp
  · split at gaveUp
    · cases gaveUp
    · exact gaveUp
  · exact gaveUp

-- A slot that is still free stays.
theorem chooseSlot_keeps (below : slot < bound) (free : holders table file slot = ∅) :
    chooseSlot table file bound (some slot) = some slot := by
  simp [chooseSlot, below, free]

/-- Every slot below the bound is in a row of its own. -/
theorem bound_le_of_full (full : lowestFree table file bound = none)
    (kueue : ∀ other row slot, table.lookup other = some row → row.telemetrySlot = some slot →
      settings.runsKueue row = true) :
    bound ≤ (kueueInFlight settings table).card := by
  have covered : (Finset.range bound).image some ⊆
      (kueueInFlight settings table).image fun other => (table.lookup other).bind CloudJob.telemetrySlot := by
    intro value member
    obtain ⟨slot, below, rfl⟩ := Finset.mem_image.mp member
    obtain ⟨other, holder⟩ := lowestFree_none full (Finset.mem_range.mp below)
    obtain ⟨-, row, found, held, flying⟩ := mem_holders.mp holder
    refine Finset.mem_image.mpr ⟨other, ?_, by simp [found, held]⟩
    exact Table.mem_matching.mpr ⟨row, found, by simp [kueue other row slot found held, flying]⟩
  calc bound = ((Finset.range bound).image some).card := by
        rw [Finset.card_image_of_injective _ (Option.some_injective _), Finset.card_range]
    _ ≤ _ := Finset.card_le_card covered
    _ ≤ (kueueInFlight settings table).card := Finset.card_image_le

end Allocation

section Steps

variable {File : Type} [DecidableEq File] {settings : Settings} {jobName stagedObjectKey : File → String}
  {state next : State File} {file : File} {row written : CloudJob} {column : Option Nat}

theorem held_initial : Held settings (State.initial : State File) where
  placed := by simp [State.initial]
  bounded := by simp [State.initial, Claims]
  rows := by simp [State.initial]
  single := by simp [State.initial]

-- A file in flight is issued what its row has, so a slot that no other row has is issued to no other file.
theorem Held.unclaimed (held : Held settings state) {index : Nat} (free : holders state.table file index = ∅)
    (other : File) (row : CloudJob) (apart : other ≠ file) (found : state.table.lookup other = some row)
    (flying : inFlight row.status = true) : ¬ Claims state other (some index) := by
  intro claims
  have theirs := (held.placed other row found flying _ claims).1
  have holder : other ∈ holders state.table file index := mem_holders.mpr ⟨apart, row, found, theirs.symm, flying⟩
  rw [free] at holder
  exact absurd holder (Finset.notMem_empty other)

theorem Held.placed_of_stands (held : Held settings state) (stands : Stands state file column) :
    Placed state file column := by
  intro slot claimed
  obtain ⟨same, free⟩ := stands slot claimed
  exact ⟨same, fun index issued => held.unclaimed (free index issued)⟩

-- A step that leaves the table and issues nothing.
theorem held_claims (held : Held settings state) (table : next.table = state.table)
    (claims : ∀ file slot, Claims next file slot → Claims state file slot)
    (single : ∀ file backend cluster, next.jobs file backend ≠ none → next.jobs file cluster ≠ none →
      backend = cluster) : Held settings next := by
  refine ⟨fun file row found flying slot claimed => ?_, fun file slot claimed => ?_, ?_, single⟩
  · rw [table] at found
    obtain ⟨same, others⟩ := held.placed file row found flying slot (claims file slot claimed)
    refine ⟨same, fun index issued other row' apart there going claimed' => ?_⟩
    rw [table] at there
    exact others index issued other row' apart there going (claims other _ claimed')
  · exact held.bounded file slot (claims file _ claimed)
  · rw [table]
    exact held.rows

-- A step that writes one row, and may issue its file a slot.
theorem held_update (held : Held settings state) (mine : next.table.lookup file = some written)
    (elsewhere : ∀ other, other ≠ file → next.table.lookup other = state.table.lookup other)
    (claims : ∀ other, other ≠ file → ∀ slot, Claims next other slot → Claims state other slot)
    (single : ∀ file backend cluster, next.jobs file backend ≠ none → next.jobs file cluster ≠ none →
      backend = cluster)
    (bounded : ∀ slot, Claims next file (some slot) → slot < settings.burstSlotBound)
    (slots : ∀ slot, written.telemetrySlot = some slot → slot < settings.burstSlotBound ∧ settings.runsKueue written = true)
    (placed : inFlight written.status = true → ∀ slot, Claims next file slot → slot = written.telemetrySlot ∧
      ∀ index ∈ slot, ∀ other row, other ≠ file → state.table.lookup other = some row → inFlight row.status = true →
        ¬ Claims state other (some index)) :
    Held settings next := by
  refine ⟨fun other row found flying slot claimed => ?_, fun other slot claimed => ?_, fun other row slot found => ?_,
    single⟩
  · by_cases same : other = file
    · subst same
      rw [mine, Option.some.injEq] at found
      subst found
      obtain ⟨equal, others⟩ := placed flying slot claimed
      refine ⟨equal, fun index issued third row' apart there going claimed' => ?_⟩
      rw [elsewhere third apart] at there
      exact others index issued third row' apart there going (claims third apart _ claimed')
    · rw [elsewhere other same] at found
      have before := claims other same slot claimed
      obtain ⟨equal, others⟩ := held.placed other row found flying slot before
      refine ⟨equal, fun index issued third row' apart there going claimed' => ?_⟩
      by_cases written : third = file
      · -- The row that was written: what its file is issued, no other file in flight is.
        subst written
        rw [mine, Option.some.injEq] at there
        subst there
        rw [Option.mem_def] at issued
        subst issued
        exact (placed going _ claimed').2 index rfl other row same found flying before
      · rw [elsewhere third written] at there
        exact others index issued third row' apart there going (claims third written _ claimed')
  · by_cases same : other = file
    · subst same
      exact bounded slot claimed
    · exact held.bounded other slot (claims other same _ claimed)
  · by_cases same : other = file
    · subst same
      rw [mine, Option.some.injEq] at found
      exact found ▸ slots slot
    · rw [elsewhere other same] at found
      exact held.rows other row slot found

theorem held_insert (held : Held settings state)
    (slots : ∀ slot, written.telemetrySlot = some slot → slot < settings.burstSlotBound ∧ settings.runsKueue written = true)
    (placed : inFlight written.status = true → Placed state file written.telemetrySlot) :
    Held settings { state with table := state.table.insert file written } :=
  held_update held (Finmap.lookup_insert _) (fun _ apart => Finmap.lookup_insert_of_ne _ apart)
    (fun _ _ _ claimed => claimed) held.single (held.bounded file) slots placed

theorem runsKueue_leaves (same : written.backendId = row.backendId) :
    settings.runsKueue written = settings.runsKueue row := by
  simp [Settings.runsKueue, same]

theorem held_leaves (held : Held settings state) (found : state.table.lookup file = some row)
    (backendId : written.backendId = row.backendId) (telemetrySlot : written.telemetrySlot = row.telemetrySlot)
    (enters : inFlight written.status = true → inFlight row.status = true ∨ Stands state file row.telemetrySlot) :
    Held settings { state with table := state.table.insert file written } := by
  refine held_insert held (fun slot column => ?_) fun flying => ?_
  · rw [runsKueue_leaves backendId]
    exact held.rows file row slot found (telemetrySlot ▸ column)
  · rw [telemetrySlot]
    rcases enters flying with already | stands
    · exact held.placed file row found already
    · exact held.placed_of_stands stands

-- A run that has no slot of its own issues none.
omit [DecidableEq File] in
theorem claims_setRun {process : ProcessId} {stage : Stage File}
    (quiet : ∀ file backend slot, stage ≠ .allocated file backend slot) (file : File) (slot : Option Nat)
    (claimed : Claims (state.setRun process stage) file slot) : Claims state file slot := by
  rcases claimed with job | ⟨other, backend, running⟩
  · exact .inl job
  · rw [setRun_runs] at running
    split at running
    · exact absurd running (quiet file backend slot)
    · exact .inr ⟨other, backend, running⟩

theorem held_setRun (held : Held settings state) (process : ProcessId) {stage : Stage File}
    (quiet : ∀ file backend slot, stage ≠ .allocated file backend slot) :
    Held settings (state.setRun process stage) :=
  held_claims held rfl (claims_setRun quiet) held.single

theorem held_jobGone (held : Held settings state) (file : File) (backend : BackendId) :
    Held settings (state.setJob file backend none) := by
  have kept (other : File) (cluster : BackendId) (job : Option Nat)
      (there : (state.setJob file backend none).jobs other cluster = some job) :
      state.jobs other cluster = some job := by
    by_cases same : other = file
    · subst same
      by_cases here : cluster = backend
      · simp [State.setJob, here] at there
      · simpa [State.setJob, here] using there
    · simpa [State.setJob, same] using there
  refine held_claims held rfl (fun other slot claimed => ?_) fun other cluster third one two => ?_
  · rcases claimed with ⟨cluster, job⟩ | running
    · exact .inl ⟨cluster, kept other cluster slot job⟩
    · exact .inr running
  · obtain ⟨job, there⟩ := Option.ne_none_iff_exists'.mp one
    obtain ⟨job', there'⟩ := Option.ne_none_iff_exists'.mp two
    exact held.single other cluster third (by simp [kept other cluster job there]) (by simp [kept other third job' there'])

/-! ## The writers outside the submit -/

theorem held_dispatch (held : Held settings state) {backend : BackendId} {placement : Placement} {now : Int}
    (admitted : SlotAdmitted settings state (.dispatch file backend placement now))
    (stepped : dispatch settings state file backend placement now = some next) : Held settings next := by
  obtain ⟨-, kind, row, found, -, rfl⟩ := dispatch_eq_some stepped
  obtain ⟨unslotted, stands⟩ := admitted row found
  refine held_insert held (fun slot column => ?_) fun _ => ?_
  · rw [dispatchRow_telemetrySlot] at column
    refine ⟨(held.rows file row slot found column).1, ?_⟩
    cases placement with
    | kueue s3Key upload bucket => simpa [Settings.runsKueue, Placement.kind] using kind
    | compute =>
      rw [unslotted rfl] at column
      cases column
  · rw [dispatchRow_telemetrySlot]
    exact held.placed_of_stands stands

theorem held_hold (held : Held settings state) (attempts : Nat) (now : Int) :
    Held settings
      { state with table := state.table.insert file (holdAwaiting (state.table.lookup file) attempts now) } := by
  cases found : state.table.lookup file with
  | none => exact held_insert held (by simp [holdAwaiting, CloudJob.fresh]) (by simp [holdAwaiting, inFlight])
  | some row => exact held_leaves held found rfl rfl (by simp [holdAwaiting, inFlight])

theorem held_delete (held : Held settings state) (stepped : delete state file = some next) :
    Held settings next := by
  rw [delete_eq_some stepped]
  have kept (other : File) (row : CloudJob) (found : (state.table.erase file).lookup other = some row) :
      state.table.lookup other = some row := (Table.lookup_erase_some.mp found).2
  refine ⟨fun other row found flying slot claimed => ?_, held.bounded, fun other row slot found => ?_, held.single⟩
  · obtain ⟨same, others⟩ := held.placed other row (kept other row found) flying slot claimed
    exact ⟨same, fun index issued third row' apart there => others index issued third row' apart (kept third row' there)⟩
  · exact held.rows other row slot (kept other row found)

theorem held_commit (held : Held settings state) {seen : Observation}
    (admitted : SlotAdmitted settings state (.commit seen)) (stepped : commit settings state seen = some next) :
    Held settings next := by
  rcases commit_eq_some stepped with rfl | ⟨file, read, row, reading, found, rfl⟩
  · exact ⟨held.placed, held.bounded, held.rows, held.single⟩
  · have leaves := commitReconcile_leaves settings.cloud read row seen
    have wrote := held_leaves held found leaves.backendId leaves.telemetrySlot (admitted file read row reading found)
    exact ⟨wrote.placed, wrote.bounded, wrote.rows, wrote.single⟩

theorem held_write (held : Held settings state) {applied : Write}
    (admitted : SlotAdmitted settings state (.write file applied))
    (stepped : write settings state file applied = some next) : Held settings next := by
  obtain ⟨row, written, found, wrote, leaves, -, rfl⟩ := write_eq_some stepped
  refine held_leaves held found leaves.backendId leaves.telemetrySlot fun flying => ?_
  cases enters : applied.enters with
  | true => exact admitted enters row found
  | false => exact .inl (Drain.Caps.apply_inFlight wrote enters flying)

/-! ## The submit -/

variable {process : ProcessId} {now : Int}

-- What the run is issued is in the row, and in no other row in flight.
theorem placed_allocated (held : Held settings state) (found : state.table.lookup file = some row)
    (flying : inFlight row.status = true)
    (issued : ∀ slot, Claims state file slot → ∃ index ∈ slot, holders state.table file index = ∅)
    (full : lowestFree state.table file settings.burstSlotBound = none → row.telemetrySlot = none)
    (slot : Option Nat)
    (claimed : Claims state file slot ∨
      slot = chooseSlot state.table file settings.burstSlotBound row.telemetrySlot) :
    slot = (chooseSlot state.table file settings.burstSlotBound row.telemetrySlot).or row.telemetrySlot ∧
      ∀ index ∈ slot, ∀ other row, other ≠ file → state.table.lookup other = some row → inFlight row.status = true →
        ¬ Claims state other (some index) := by
  rcases claimed with claimed | rfl
  · -- An earlier run, or the Job: the slot is kept.
    obtain ⟨index, rfl, unheld⟩ := issued slot claimed
    have column := (held.placed file row found flying _ claimed).1
    have below := held.bounded file index claimed
    rw [← column, chooseSlot_keeps below unheld]
    refine ⟨rfl, ?_⟩
    rintro _ ⟨⟩
    exact held.unclaimed unheld
  · cases chosen : chooseSlot state.table file settings.burstSlotBound row.telemetrySlot with
    | none => exact ⟨by simp [full (chooseSlot_none chosen)], by simp⟩
    | some index =>
      refine ⟨rfl, ?_⟩
      rintro _ ⟨⟩
      exact held.unclaimed (chooseSlot_some chosen).2

theorem held_allocate (held : Held settings state) (admitted : SlotAdmitted settings state (.allocate process now))
    (stepped : allocate settings state process now = some next) : Held settings next := by
  obtain ⟨file, backend, running, rfl⟩ := allocate_eq_some stepped
  obtain ⟨row, found, kueue, issued⟩ := admitted file backend running
  have slot : (allocateSlot state.table file settings.burstSlotBound now).1 =
      chooseSlot state.table file settings.burstSlotBound row.telemetrySlot := by
    simp only [allocateSlot, found]
    split <;> simp_all
  -- The row after the allocation, whether or not there was a slot to write.
  obtain ⟨written, mine, elsewhere, column, status, backendId⟩ :
      ∃ written, (allocateSlot state.table file settings.burstSlotBound now).2.lookup file = some written ∧
        (∀ other, other ≠ file → (allocateSlot state.table file settings.burstSlotBound now).2.lookup other =
          state.table.lookup other) ∧
        written.telemetrySlot =
          (chooseSlot state.table file settings.burstSlotBound row.telemetrySlot).or row.telemetrySlot ∧
        written.status = row.status ∧ written.backendId = row.backendId := by
    simp only [allocateSlot, found]
    split
    · rename_i gaveUp
      exact ⟨row, found, fun _ _ => rfl, by simp [gaveUp], rfl, rfl⟩
    · rename_i index chosen
      exact ⟨{ row with telemetrySlot := some index, updatedAt := now }, Finmap.lookup_insert _,
        fun _ apart => Finmap.lookup_insert_of_ne _ apart, by simp [chosen], rfl, rfl⟩
  have claims (other : File) (index : Option Nat)
      (claimed : Claims (State.setRun { state with table := (allocateSlot state.table file settings.burstSlotBound now).2 }
        process (.allocated file backend (allocateSlot state.table file settings.burstSlotBound now).1)) other index) :
      Claims state other index ∨
        other = file ∧ index = chooseSlot state.table file settings.burstSlotBound row.telemetrySlot := by
    rcases claimed with job | ⟨third, cluster, there⟩
    · exact .inl (.inl job)
    · rw [setRun_runs] at there
      split at there
      · rw [Stage.allocated.injEq] at there
        exact .inr ⟨there.1.symm, there.2.2 ▸ slot⟩
      · exact .inl (.inr ⟨third, cluster, there⟩)
  refine held_update held mine elsewhere (fun other apart index claimed => ?_) held.single (fun index claimed => ?_)
    (fun index has => ?_) fun flying index claimed => ?_
  · exact (claims other index claimed).resolve_right fun new => apart new.1
  · rcases claims file _ claimed with before | ⟨-, chosen⟩
    · exact held.bounded file index before
    · exact (chooseSlot_some chosen.symm).1
  · rw [runsKueue_leaves backendId]
    refine ⟨?_, kueue⟩
    rw [column] at has
    rcases Option.or_eq_some_iff.mp has with chosen | ⟨-, kept⟩
    · exact (chooseSlot_some chosen).1
    · exact (held.rows file row index found kept).1
  · rw [status] at flying
    rw [column]
    obtain ⟨refreshes, full⟩ := issued flying
    exact placed_allocated held found flying refreshes full index
      ((claims file index claimed).imp_right And.right)

theorem held_setJob (held : Held settings state) {backend : BackendId} {job : Option Nat}
    (issued : Claims state file job) (onlyHere : ∀ cluster, state.jobs file cluster ≠ none → cluster = backend) :
    Held settings (state.setJob file backend (some job)) := by
  have jobs (other : File) (cluster : BackendId) (apart : ¬ (other = file ∧ cluster = backend)) :
      (state.setJob file backend (some job)).jobs other cluster = state.jobs other cluster := by
    by_cases same : other = file
    · subst same
      have there : cluster ≠ backend := fun here => apart ⟨rfl, here⟩
      simp [State.setJob, there]
    · simp [State.setJob, same]
  have here (cluster : BackendId) (there : (state.setJob file backend (some job)).jobs file cluster ≠ none) :
      cluster = backend := by
    by_contra apart
    rw [jobs file cluster fun same => apart same.2] at there
    exact apart (onlyHere cluster there)
  refine held_claims held rfl (fun other slot claimed => ?_) fun other cluster third one two => ?_
  · rcases claimed with ⟨cluster, there⟩ | running
    · by_cases same : other = file ∧ cluster = backend
      · obtain ⟨rfl, rfl⟩ := same
        simp only [State.setJob, Function.update_self, Option.some.injEq] at there
        exact there ▸ issued
      · rw [jobs other cluster same] at there
        exact .inl ⟨cluster, there⟩
    · exact .inr running
  · by_cases same : other = file
    · subst same
      exact (here cluster one).trans (here third two).symm
    · rw [jobs other cluster fun both => same both.1] at one
      rw [jobs other third fun both => same both.1] at two
      exact held.single other cluster third one two

-- A POST creates the Job with the slot the run was issued, and a 409 leaves it with its own.
theorem held_post (held : Held settings state) (admitted : SlotAdmitted settings state (.post process))
    (stepped : post state process = some next) : Held settings next := by
  obtain ⟨file, backend, slot, running, rfl⟩ := post_eq_some stepped
  have issued : Claims state file ((state.jobs file backend).getD slot) := by
    cases job : state.jobs file backend with
    | none => exact .inr ⟨process, backend, running⟩
    | some created => exact .inl ⟨backend, job⟩
  have created := held_setJob held issued (admitted file backend slot running)
  apply held_setRun _ process
  · simp
  · exact ⟨created.placed, created.bounded, created.rows, created.single⟩

theorem held_upsert (held : Held settings state) (admitted : SlotAdmitted settings state (.upsert process now))
    (stepped : upsert jobName stagedObjectKey state process now = some next) : Held settings next := by
  obtain ⟨file, backend, running, did⟩ := upsert_eq_some stepped
  rcases did with ⟨absent, rfl⟩ | ⟨row, written, found, upserted, rfl⟩ | ⟨row, found, -, rfl⟩
  · refine held_setRun (held_insert held ?_ fun _ => ?_) process (by simp)
    · simp [insertedRow, CloudJob.fresh]
    · exact held.placed_of_stands (admitted file backend running absent)
  · obtain ⟨guarded, rfl⟩ := submitUpsert_eq_some.mp upserted
    have already : inFlight row.status = true := by
      rcases guarded with uploaded | submitted
      · simp [uploaded, inFlight]
      · simp [submitted, inFlight]
    apply held_setRun _ process
    · simp
    · exact held_leaves held found rfl rfl fun _ => .inl already
  · exact held_setRun held process (by simp)

theorem step_held {action : Action File} (held : Held settings state) (admitted : SlotAdmitted settings state action)
    (stepped : step settings jobName stagedObjectKey state action = some next) : Held settings next := by
  cases action with
  | hold file attempts now =>
    cases stepped
    exact held_hold held attempts now
  | delete file => exact held_delete held stepped
  | dispatch file backend placement now => exact held_dispatch held admitted stepped
  | uploadFailed file | select file =>
    simp only [step, Option.ite_none_right_eq_some, Option.some.injEq] at stepped
    obtain ⟨-, rfl⟩ := stepped
    exact ⟨held.placed, held.bounded, held.rows, held.single⟩
  | read file =>
    obtain ⟨-, row, -, rfl⟩ := read_eq_some stepped
    exact ⟨held.placed, held.bounded, held.rows, held.single⟩
  | commit seen => exact held_commit held admitted stepped
  | rollback =>
    cases stepped
    exact ⟨held.placed, held.bounded, held.rows, held.single⟩
  | write file applied => exact held_write held admitted stepped
  | jobGone file backend =>
    cases stepped
    exact held_jobGone held file backend
  | resolve process file =>
    obtain ⟨backend, row, -, -, -, rfl⟩ := resolve_eq_some stepped
    exact held_setRun held process (by simp)
  | allocate process now => exact held_allocate held admitted stepped
  | post process => exact held_post held admitted stepped
  | upsert process now => exact held_upsert held admitted stepped
  | deleteJob process =>
    obtain ⟨file, backend, status, -, ⟨-, rfl⟩ | rfl⟩ := deleteJob_eq_some stepped
    · exact held_setRun (held_jobGone held file backend) process (by simp)
    · exact held_setRun held process (by simp)
  | giveUp process =>
    cases stepped
    exact held_setRun held process (by simp)

theorem Held.slotsHeld (held : Held settings state) : SlotsHeld settings state where
  apart := by
    intro file other backend cluster row row' slot distinct found flying job there going job'
    by_cases same : file = other
    · subst same
      have here := held.single file backend cluster (by simp [job]) (by simp [job'])
      exact distinct (by rw [here])
    · exact (held.placed file row found flying _ (.inl ⟨backend, job⟩)).2 slot rfl other row' (Ne.symm same) there going
        (.inl ⟨cluster, job'⟩)
  bounded := fun process file backend slot running => held.bounded file slot (.inr ⟨process, backend, running⟩)
  rowBounded := fun file row slot found column => (held.rows file row slot found column).1
  jobBounded := fun file backend slot job => held.bounded file slot (.inl ⟨backend, job⟩)
  matched := fun file row backend slot found flying job =>
    (held.placed file row found flying slot (.inl ⟨backend, job⟩)).1

theorem fullWhereNone_of_admitted {action : Action File} (held : Held settings state)
    (admitted : SlotAdmitted settings state action) : FullWhereNone settings state action := by
  cases action with
  | allocate process now =>
    intro file backend running none
    obtain ⟨row, found, -⟩ := admitted file backend running
    simp only [allocateSlot, found] at none
    split at none
    · rename_i gaveUp
      exact bound_le_of_full (chooseSlot_none gaveUp) fun other row slot found column =>
        (held.rows other row slot found column).2
    · cases none
  | _ => trivial

/-- In every run whose steps meet the condition: Jobs of files in flight have distinct slots, below the bound,
which are those in their rows, and the next allocation fails only where the clusters are full. -/
theorem slots_follow_their_jobs (actions : List (Action File))
    (along : Along (step settings jobName stagedObjectKey) (SlotAdmitted settings) .initial actions)
    (ran : run (step settings jobName stagedObjectKey) .initial actions = some state) :
    SlotsHeld settings state ∧
      ∀ action, SlotAdmitted settings state action → FullWhereNone settings state action := by
  have held : Held settings state := run_keeps (fun _ _ _ => step_held) actions along held_initial ran
  exact ⟨held.slotsHeld, fun _ => fullWhereNone_of_admitted held⟩

end Steps

/-! ## Two files on one cluster -/

-- One process submits, and all Jobs are on one cluster.
structure Lone (state : State Nat) : Prop where
  jobs : ∀ file backend, backend ≠ "cluster" → state.jobs file backend = none
  runs : ∀ process, process ≠ 0 → state.runs process = .idle

def issued (state : State Nat) (file : Nat) : List (Option Nat) :=
  (state.jobs file "cluster").toList ++
    match state.runs 0 with
    | .allocated other _ slot => if other = file then [slot] else []
    | _ => []

theorem Lone.claims {state : State Nat} (lone : Lone state) {file : Nat} {slot : Option Nat} (claimed : Claims state file slot) :
    slot ∈ issued state file := by
  rw [issued, List.mem_append]
  obtain ⟨backend, job⟩ | ⟨process, backend, running⟩ := claimed
  · by_cases there : backend = "cluster"
    · subst there
      exact .inl (by simp [job])
    · rw [lone.jobs file backend there] at job
      cases job
  · by_cases alone : process = 0
    · subst alone
      exact .inr (by simp [running])
    · rw [lone.runs process alone] at running
      cases running

def free (state : State Nat) (file : Nat) (slot : Option Nat) : Bool :=
  slot.all fun held => decide (holders state.table file held = ∅)

def stands (state : State Nat) (file : Nat) (column : Option Nat) : Bool :=
  (issued state file).all fun slot => slot = column && free state file slot

-- The condition of a run of one process, as a check.
def admits (state : State Nat) : Action Nat → Bool
  | .dispatch file backend placement _ => backend = "cluster" && (state.table.lookup file).all fun row =>
      Placement.kind placement = .kueue && stands state file row.telemetrySlot
  | .write _ applied => !applied.enters
  | .allocate process _ => process = 0 &&
      match state.runs 0 with
      | .resolved file _ => (state.table.lookup file).any fun row =>
          twoLanes.runsKueue row && (issued state file).all (fun slot => slot.isSome && free state file slot) &&
            (lowestFree state.table file twoLanes.burstSlotBound).isSome
      | _ => true
  | .post process => process = 0 &&
      match state.runs 0 with
      | .allocated _ backend _ => backend = "cluster"
      | _ => true
  | .upsert process _ => process = 0 &&
      match state.runs 0 with
      | .posted file _ => (state.table.lookup file).isSome
      | _ => true
  | .hold .. => true
  | .resolve process _ => process = 0
  | _ => false

theorem Lone.stands {state : State Nat} (lone : Lone state) {file : Nat} {column : Option Nat}
    (all : stands state file column = true) : Stands state file column := by
  intro slot claimed
  have checked := List.all_eq_true.mp all slot (lone.claims claimed)
  rw [Bool.and_eq_true, decide_eq_true_eq, free, Option.all_eq_true] at checked
  exact ⟨checked.1, fun held member => of_decide_eq_true (checked.2 held member)⟩

theorem Lone.admitted {state : State Nat} (lone : Lone state) {action : Action Nat} (checked : admits state action = true) :
    SlotAdmitted twoLanes state action := by
  cases action with
  | dispatch file backend placement now =>
    intro row found
    simp only [admits, Bool.and_eq_true, found, Option.all_some, decide_eq_true_eq] at checked
    refine ⟨?_, lone.stands checked.2.2⟩
    rintro rfl
    cases checked.2.1
  | write file applied =>
    intro enters
    simp only [admits, enters, Bool.not_true, Bool.false_eq_true] at checked
  | allocate process now =>
    intro file backend running
    simp only [admits, Bool.and_eq_true, decide_eq_true_eq] at checked
    obtain ⟨rfl, checked⟩ := checked
    simp only [running, Option.any_eq_true, Bool.and_eq_true] at checked
    obtain ⟨row, found, ⟨kueue, all⟩, room⟩ := checked
    refine ⟨row, found, kueue, fun _ => ⟨fun slot claimed => ?_, fun full => ?_⟩⟩
    · have held := List.all_eq_true.mp all slot (lone.claims claimed)
      rw [Bool.and_eq_true, free, Option.all_eq_true] at held
      obtain ⟨index, rfl⟩ := Option.isSome_iff_exists.mp held.1
      exact ⟨index, rfl, of_decide_eq_true (held.2 index rfl)⟩
    · rw [full] at room
      cases room
  | post process =>
    intro file backend slot running cluster job
    simp only [admits, Bool.and_eq_true, decide_eq_true_eq] at checked
    obtain ⟨rfl, checked⟩ := checked
    simp only [running, decide_eq_true_eq] at checked
    by_contra other
    exact job (lone.jobs file cluster (checked ▸ other))
  | upsert process now =>
    intro file backend running absent
    simp only [admits, Bool.and_eq_true, decide_eq_true_eq] at checked
    obtain ⟨rfl, checked⟩ := checked
    simp only [running, absent] at checked
    cases checked
  | commit | read | rollback | jobGone | deleteJob | giveUp | uploadFailed | select | delete => cases checked
  | hold | resolve => trivial

theorem Lone.setRun {state : State Nat} (lone : Lone state) {process : ProcessId} (alone : process = 0) (stage : Stage Nat) :
    Lone (state.setRun process stage) := by
  refine ⟨lone.jobs, fun other apart => ?_⟩
  subst alone
  simp [State.setRun, apart, lone.runs other apart]

theorem Lone.step {state next : State Nat} (lone : Lone state) {action : Action Nat} (checked : admits state action = true)
    (stepped : step twoLanes analyzeJob stagedKey state action = some next) : Lone next := by
  cases action with
  | hold file attempts now =>
    cases stepped
    exact ⟨lone.jobs, lone.runs⟩
  | dispatch file backend placement now =>
    obtain ⟨-, -, row, -, -, rfl⟩ := dispatch_eq_some stepped
    exact ⟨lone.jobs, lone.runs⟩
  | write file applied =>
    obtain ⟨row, written, -, -, -, -, rfl⟩ := write_eq_some stepped
    exact ⟨lone.jobs, lone.runs⟩
  | resolve process file =>
    obtain ⟨backend, row, -, -, -, rfl⟩ := resolve_eq_some stepped
    exact lone.setRun (of_decide_eq_true checked) _
  | allocate process now =>
    obtain ⟨file, backend, -, rfl⟩ := allocate_eq_some stepped
    simp only [admits, Bool.and_eq_true, decide_eq_true_eq] at checked
    have kept : Lone { state with table := (allocateSlot state.table file twoLanes.burstSlotBound now).2 } := ⟨lone.jobs, lone.runs⟩
    exact kept.setRun checked.1 _
  | post process =>
    obtain ⟨file, backend, slot, running, rfl⟩ := post_eq_some stepped
    simp only [admits, Bool.and_eq_true, decide_eq_true_eq] at checked
    obtain ⟨rfl, checked⟩ := checked
    simp only [running, decide_eq_true_eq] at checked
    subst checked
    have kept : Lone (State.setJob { state with
          posted := Function.update state.posted file (Function.update (state.posted file) "cluster" true) }
        file "cluster" (some ((state.jobs file "cluster").getD slot))) := by
      refine ⟨fun other cluster elsewhere => ?_, lone.runs⟩
      by_cases same : other = file
      · subst same
        simp [State.setJob, elsewhere, lone.jobs other cluster elsewhere]
      · simp [State.setJob, same, lone.jobs other cluster elsewhere]
    exact kept.setRun rfl _
  | upsert process now =>
    simp only [admits, Bool.and_eq_true, decide_eq_true_eq] at checked
    obtain ⟨file, backend, -, ⟨-, rfl⟩ | ⟨row, written, -, -, rfl⟩ | ⟨row, -, -, rfl⟩⟩ := upsert_eq_some stepped
    · have kept : Lone { state with table := state.table.insert file (insertedRow (stagedKey file) (analyzeJob file) now) } :=
        ⟨lone.jobs, lone.runs⟩
      exact kept.setRun checked.1 _
    · have kept : Lone { state with table := state.table.insert file written } := ⟨lone.jobs, lone.runs⟩
      exact kept.setRun checked.1 _
    · exact lone.setRun checked.1 _
  | commit | read | rollback | jobGone | deleteJob | giveUp | uploadFailed | select | delete => cases checked

-- Two files are submitted, the first once more onto the Job it has; then the first is reaped, dispatched again
-- and submitted onto the Job that is still there.
def handled : List (Action Nat) :=
  [.hold 1 0 0, .hold 2 0 0] ++ staged 1 ++ submitted 0 1 ++ staged 2 ++ submitted 0 2 ++ submitted 0 1 ++
    [.write 1 (.reapSubmitted 0)] ++ staged 1 ++ submitted 0 1

theorem handled_admitted : Along (step twoLanes analyzeJob stagedKey) (SlotAdmitted twoLanes) .initial handled := by
  have checked : Along (step twoLanes analyzeJob stagedKey) (fun state action => admits state action = true) .initial handled := by
    decide +kernel
  have start : Lone .initial := ⟨fun _ _ _ => rfl, fun _ _ => rfl⟩
  exact checked.gives Lone (fun _ _ _ lone => lone.step) (fun _ _ lone => lone.admitted) start

theorem submitted_file_holds_slot_zero : ∃ state,
    run (step twoLanes analyzeJob stagedKey) .initial handled = some state ∧
      state.jobs 1 "cluster" = some (some 0) ∧ state.jobs 2 "cluster" = some (some 1) ∧ SlotsHeld twoLanes state :=
  ⟨_, rfl, by decide +kernel, by decide +kernel, (slots_follow_their_jobs _ handled_admitted rfl).1⟩

-- The first file is spilled before its POST and dispatched again, with its old slot, when the second
-- file has that slot and a Job; then the submit of the second is retried, and the first is submitted.
def reissued : List (Action Nat) :=
  .hold 1 0 0 :: staged 1 ++ [.resolve 0 1, .allocate 0 0, .giveUp 0, .write 1 (.reapStaging 0)] ++
    .hold 2 0 0 :: staged 2 ++ submitted 0 2 ++ staged 1 ++ submitted 0 2 ++ submitted 0 1

/-- The retry moves the row of the second file off the slot its Job has, and the first file gets a Job with it. -/
theorem retry_reissues_slot : ∃ state,
    run (step twoLanes analyzeJob stagedKey) .initial reissued = some state ∧
      state.jobs 1 "cluster" = some (some 0) ∧ state.jobs 2 "cluster" = some (some 0) ∧
      (state.table.lookup 2).map CloudJob.telemetrySlot = some (some 1) ∧ ¬ SlotsHeld twoLanes state := by
  refine ⟨_, rfl, rfl, rfl, rfl, fun held => ?_⟩
  exact held.apart 1 2 "cluster" "cluster" _ _ 0 (by decide) rfl rfl rfl rfl rfl rfl

end Phaze.Submit
