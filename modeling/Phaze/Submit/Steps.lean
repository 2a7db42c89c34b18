import Phaze.Submit.Protocol

set_option autoImplicit false

/-!
# What a step of the submit machine does

No writer but the submit and the dispatch names a backend, a Job or a slot: the others leave these three
columns, apart from the re-drive, which clears the Job.
-/

namespace Phaze.Submit

open Phaze.Cloud
open Phaze.Drain (Backend BackendKind)
open Phaze.Drain.Caps (Write)
open Phaze.Staging (CloudJobStatus UploadId)

/-! ## The rows -/

structure Leaves (row written : CloudJob) : Prop where
  backendId : written.backendId = row.backendId
  telemetrySlot : written.telemetrySlot = row.telemetrySlot
  kueueWorkload : written.kueueWorkload = row.kueueWorkload ∨ written.kueueWorkload = none

-- The statuses of a row since its dispatch to a compute backend, or its submit.
def afterSubmit : CloudJobStatus → Bool
  | .submitted | .running | .succeeded => true
  | .awaiting | .uploading | .uploaded | .failed => false

theorem Leaves.of_eq {row written : CloudJob} (backendId : written.backendId = row.backendId)
    (telemetrySlot : written.telemetrySlot = row.telemetrySlot)
    (kueueWorkload : written.kueueWorkload = row.kueueWorkload) : Leaves row written :=
  ⟨backendId, telemetrySlot, .inl kueueWorkload⟩

section Rows

variable {cloud : Cloud.Settings} {row written : CloudJob}

theorem spillAwaiting_some {attempts : Nat} {expect : List CloudJobStatus} {upload : Option UploadId}
    {clears : Bool} {now : Int} (spilled : spillAwaiting row attempts expect upload clears now = some written) :
    Leaves row written ∧ written.status = .awaiting := by
  simp only [spillAwaiting, Option.ite_none_right_eq_some, Option.some.injEq] at spilled
  obtain ⟨-, rfl⟩ := spilled
  exact ⟨.of_eq rfl rfl rfl, rfl⟩

/-- A write outside the submit and the reconcile leaves the columns, and advances no row past the submit. -/
theorem apply_leaves {write : Write} (applied : write.apply cloud row = some written)
    (outside : ∀ seen, write ≠ .reconcile seen) (other : ∀ name now, write ≠ .submit name now) :
    Leaves row written ∧ (afterSubmit written.status = true → afterSubmit row.status = true) := by
  cases write with
  | submit name now => exact absurd rfl (other name now)
  | reconcile seen => exact absurd rfl (outside seen)
  | uploaded upload now =>
    simp only [Write.apply, uploadedFlip, Option.ite_none_right_eq_some, Option.some.injEq] at applied
    obtain ⟨-, rfl⟩ := applied
    exact ⟨.of_eq rfl rfl rfl, by simp [afterSubmit]⟩
  | restage s3Key upload bucket now =>
    cases applied
    exact ⟨.of_eq rfl rfl rfl, by simp [afterSubmit, uploadingUpsert]⟩
  | spill expectStatus expectUploadId clears now =>
    obtain ⟨leaves, awaiting⟩ := spillAwaiting_some applied
    exact ⟨leaves, by simp [afterSubmit, awaiting]⟩
  | reapStaging now =>
    obtain ⟨-, rfl⟩ := reapStaging_eq_some.mp applied
    exact ⟨.of_eq rfl rfl rfl, by simp [afterSubmit]⟩
  | reapSubmitted now =>
    obtain ⟨leaves, awaiting⟩ := spillAwaiting_some applied
    exact ⟨leaves, by simp [afterSubmit, awaiting]⟩
  | pushed now =>
    simp only [Write.apply, Push.pushedFlip, Option.ite_none_right_eq_some, Option.some.injEq] at applied
    obtain ⟨submitted, rfl⟩ := applied
    exact ⟨.of_eq rfl rfl rfl, by simp [afterSubmit, submitted]⟩
  | rearm now =>
    simp only [Write.apply, Push.rearm, Option.ite_none_right_eq_some, Option.some.injEq] at applied
    obtain ⟨submitted | succeeded, rfl⟩ := applied
    · exact ⟨.of_eq rfl rfl rfl, by simp [afterSubmit, submitted]⟩
    · exact ⟨.of_eq rfl rfl rfl, by simp [afterSubmit, succeeded]⟩

theorem flushColumn_of_eq {Column : Type} [DecidableEq Column] {read written current : Column}
    (same : written = read) : flushColumn read written current = current := by
  simp [flushColumn, same]

theorem reconcileOne_workload (cloud : Cloud.Settings) (row : CloudJob) (seen : Observation) :
    (reconcileOne cloud row seen).row.kueueWorkload = row.kueueWorkload ∨
      (reconcileOne cloud row seen).row.kueueWorkload = none := by
  cases reconcileOne_move cloud row seen with
  | held _ _ _ workload | resumed _ _ _ workload | finished _ _ _ workload | deferred _ _ _ _ workload =>
    exact .inl workload
  | charged _ _ _ _ workload | uncharged _ _ _ _ _ _ workload => exact .inr workload
  | spilt _ _ _ _ _ _ _ workload => exact .inl workload

theorem flush_leaves {read : CloudJob} (backendId : written.backendId = read.backendId)
    (telemetrySlot : written.telemetrySlot = read.telemetrySlot)
    (kueueWorkload : written.kueueWorkload = read.kueueWorkload ∨ written.kueueWorkload = none) :
    Leaves row (flush read written row) := by
  refine ⟨flushColumn_of_eq backendId, flushColumn_of_eq telemetrySlot, ?_⟩
  rcases kueueWorkload with same | cleared
  · exact .inl (flushColumn_of_eq same)
  · show flushColumn _ _ _ = _ ∨ flushColumn _ _ _ = none
    rw [cleared, flushColumn]
    split
    · exact .inl rfl
    · exact .inr rfl

theorem commitReconcile_leaves (cloud : Cloud.Settings) (read row : CloudJob) (seen : Observation) :
    Leaves row (commitReconcile cloud read row seen) := by
  have kept := reconcileOne_keeps cloud { read with status := row.status } seen
  have workload := reconcileOne_workload cloud { read with status := row.status } seen
  have leaves : Leaves row (flush read (reconcileOne cloud { read with status := row.status } seen).row row) :=
    flush_leaves kept.backendId kept.telemetrySlot workload
  unfold commitReconcile
  dsimp only
  split
  · exact ⟨leaves.backendId, leaves.telemetrySlot, leaves.kueueWorkload⟩
  · exact leaves

theorem holdAwaiting_leaves (row : CloudJob) (attempts : Nat) (now : Int) :
    Leaves row (holdAwaiting (some row) attempts now) :=
  .of_eq rfl rfl rfl

theorem submitUpsert_eq_some {name : String} {now : Int} :
    submitUpsert row name now = some written ↔ (row.status = .uploaded ∨ row.status = .submitted) ∧
      written = { row with
        status := .submitted
        kueueWorkload := some name
        cloudPhase := some .queuedBehindQuota
        startedAt := none
        updatedAt := now } := by
  simp only [submitUpsert, Option.ite_none_right_eq_some, Option.some.injEq]
  exact and_congr_right fun _ => eq_comm

@[simp]
theorem dispatchRow_kueueWorkload (backend : BackendId) (placement : Placement) (now : Int) :
    (dispatchRow (some row) backend placement now).kueueWorkload = row.kueueWorkload := by
  cases placement <;> rfl

@[simp]
theorem dispatchRow_telemetrySlot (backend : BackendId) (placement : Placement) (now : Int) :
    (dispatchRow (some row) backend placement now).telemetrySlot = row.telemetrySlot := by
  cases placement <;> rfl

end Rows

/-! ## The steps -/

section Steps

variable {File : Type} [DecidableEq File] {settings : Settings} {jobName stagedObjectKey : File → String}
  {state next : State File} {file : File}

omit [DecidableEq File] in
theorem setRun_runs (process other : ProcessId) (stage : Stage File) :
    (state.setRun process stage).runs other = if other = process then stage else state.runs other := by
  simp [State.setRun, Function.update_apply]

theorem dispatch_eq_some {backend : BackendId} {placement : Placement} {now : Int}
    (stepped : dispatch settings state file backend placement now = some next) :
    state.reading = none ∧ settings.kind backend = some (Placement.kind placement) ∧
      ∃ row, state.table.lookup file = some row ∧ row.status = .awaiting ∧
        next = { state with table := state.table.insert file (dispatchRow (some row) backend placement now) } := by
  simp only [dispatch, Option.ite_none_right_eq_some, Option.bind_eq_some_iff, Option.some.injEq,
    Option.isNone_iff_eq_none] at stepped
  obtain ⟨⟨idle, kind⟩, row, found, awaiting, rfl⟩ := stepped
  exact ⟨idle, kind, row, found, awaiting, rfl⟩

theorem delete_eq_some (stepped : delete state file = some next) :
    next = { state with
      table := state.table.erase file
      reading := state.reading.map fun (other, row) => (other, if other = file then none else row) } := by
  simp only [delete, Option.ite_none_right_eq_some, Option.some.injEq] at stepped
  exact stepped.2.symm

theorem read_eq_some (stepped : read state file = some next) :
    state.reading = none ∧ ∃ row, state.table.lookup file = some row ∧
      next = { state with reading := some (file, some row) } := by
  simp only [read, Option.ite_none_right_eq_some, Option.map_eq_some_iff, Option.isNone_iff_eq_none] at stepped
  obtain ⟨⟨idle, -⟩, row, found, rfl⟩ := stepped
  exact ⟨idle, row, found, rfl⟩

theorem commit_eq_some {seen : Observation} (stepped : commit settings state seen = some next) :
    next = { state with reading := none } ∨
      ∃ file read row, state.reading = some (file, some read) ∧ state.table.lookup file = some row ∧
        next = { state with
          table := state.table.insert file (commitReconcile settings.cloud read row seen), reading := none } := by
  unfold commit at stepped
  split at stepped
  · cases stepped
  · rename_i file held reading
    split at stepped
    · rename_i read row found
      cases stepped
      exact .inr ⟨file, read, row, reading, found, rfl⟩
    · cases stepped
      exact .inl rfl

theorem write_eq_some {applied : Write} (stepped : write settings state file applied = some next) :
    ∃ row written, state.table.lookup file = some row ∧ applied.apply settings.cloud row = some written ∧
      Leaves row written ∧ (afterSubmit written.status = true → afterSubmit row.status = true) ∧
      next = { state with table := state.table.insert file written } := by
  simp only [write, Option.ite_none_right_eq_some, Option.map_eq_some_iff, Option.bind_eq_some_iff] at stepped
  obtain ⟨ready, written, ⟨row, found, wrote⟩, rfl⟩ := stepped
  have outside (seen : Observation) : applied ≠ .reconcile seen := by
    rintro rfl
    cases ready
  have other (name : String) (now : Int) : applied ≠ .submit name now := by
    rintro rfl
    cases ready
  obtain ⟨leaves, advances⟩ := apply_leaves wrote outside other
  exact ⟨row, written, found, wrote, leaves, advances, rfl⟩

variable {process : ProcessId}

theorem resolve_eq_some (stepped : resolve settings state process file = some next) :
    ∃ backend row, state.table.lookup file = some row ∧ row.backendId = some backend ∧
      settings.kind backend = some .kueue ∧ next = state.setRun process (.resolved file backend) := by
  simp only [resolve, Option.ite_none_right_eq_some] at stepped
  obtain ⟨-, stepped⟩ := stepped
  split at stepped
  · rename_i backend owned
    simp only [Option.ite_none_right_eq_some, Option.some.injEq] at stepped
    obtain ⟨kind, rfl⟩ := stepped
    obtain ⟨row, found, named⟩ := Option.bind_eq_some_iff.mp owned
    exact ⟨backend, row, found, named, kind, rfl⟩
  · cases stepped

theorem allocate_eq_some {now : Int} (stepped : allocate settings state process now = some next) :
    ∃ file backend, state.runs process = .resolved file backend ∧
      next = State.setRun { state with table := (allocateSlot state.table file settings.burstSlotBound now).2 }
        process (.allocated file backend (allocateSlot state.table file settings.burstSlotBound now).1) := by
  unfold allocate at stepped
  split at stepped
  · rename_i file backend running
    cases stepped
    exact ⟨file, backend, running, rfl⟩
  · cases stepped

theorem post_eq_some (stepped : post state process = some next) :
    ∃ file backend slot, state.runs process = .allocated file backend slot ∧
      next = State.setRun (State.setJob { state with
          posted := Function.update state.posted file (Function.update (state.posted file) backend true) }
        file backend (some ((state.jobs file backend).getD slot))) process (.posted file backend) := by
  unfold post at stepped
  split at stepped
  · rename_i file backend slot running
    cases stepped
    exact ⟨file, backend, slot, running, rfl⟩
  · cases stepped

theorem upsert_eq_some {now : Int} (stepped : upsert jobName stagedObjectKey state process now = some next) :
    ∃ file backend, state.runs process = .posted file backend ∧
      (state.table.lookup file = none ∧ next = State.setRun { state with
          table := state.table.insert file (insertedRow (stagedObjectKey file) (jobName file) now) } process .idle ∨
        (∃ row written, state.table.lookup file = some row ∧ submitUpsert row (jobName file) now = some written ∧
          next = State.setRun { state with table := state.table.insert file written } process .idle) ∨
        ∃ row, state.table.lookup file = some row ∧ submitUpsert row (jobName file) now = none ∧
          next = state.setRun process (.missed file backend (some row.status))) := by
  unfold upsert at stepped
  split at stepped
  · rename_i file backend running
    refine ⟨file, backend, running, ?_⟩
    split at stepped
    · rename_i absent
      cases stepped
      exact .inl ⟨absent, rfl⟩
    · rename_i row found
      split at stepped
      · rename_i written upserted
        cases stepped
        exact .inr (.inl ⟨row, written, found, upserted, rfl⟩)
      · rename_i missed
        cases stepped
        exact .inr (.inr ⟨row, found, missed, rfl⟩)
  · cases stepped

-- The Job of a spilled or finished row goes, and of no other.
def deletes (status : Option CloudJobStatus) : Prop :=
  status = some .awaiting ∨ status = some .succeeded ∨ status = some .failed

theorem deleteJob_eq_some (stepped : deleteJob state process = some next) :
    ∃ file backend status, state.runs process = .missed file backend status ∧
      (deletes status ∧ next = State.setRun (state.setJob file backend none) process .idle ∨
        next = state.setRun process .idle) := by
  unfold deleteJob at stepped
  split at stepped
  · rename_i file backend status running
    refine ⟨file, backend, status, running, ?_⟩
    split at stepped
    · rename_i gone
      cases stepped
      exact .inl ⟨gone, rfl⟩
    · cases stepped
      exact .inr rfl
  · cases stepped

end Steps

end Phaze.Submit
