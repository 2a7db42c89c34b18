import Phaze.Submit.Steps
import Phaze.Shared.Runs

set_option autoImplicit false

/-!
# Who owns a Job

A submitted row names its Job and the backend whose cluster has it. The submit reads the backend, POSTs and
upserts in three transactions, and guards the last on the status alone: what it needs besides is that the
row is still on the backend it read.
-/

namespace Phaze.Submit

open Phaze.Cloud
open Phaze.Runs
open Phaze.Drain (Backend BackendKind)
open Phaze.Drain.Caps (Write)
open Phaze.Staging (CloudJobStatus)

section Ownership

variable {File : Type} [DecidableEq File] (settings : Settings) (jobName stagedObjectKey : File → String)

-- The Job the row names was POSTed on the cluster of its backend.
def Owned (posted : File → BackendId → Bool) (file : File) (row : CloudJob) : Prop :=
  ∀ name, row.kueueWorkload = some name → ∃ backend, row.backendId = some backend ∧
    settings.kind backend = some .kueue ∧ name = jobName file ∧ posted file backend = true

def JobsOwned (state : State File) : Prop :=
  ∀ file row, state.table.lookup file = some row → row.status = .submitted ∨ row.status = .running →
    Owned settings jobName state.posted file row

def Action.ofSubmit : Action File → Bool
  | .resolve .. | .allocate .. | .post _ | .upsert .. | .deleteJob _ | .giveUp _ => true
  | _ => false

def KeepsComputeRows (state next : State File) : Prop :=
  ∀ file row backend, state.table.lookup file = some row → row.backendId = some backend →
    settings.kind backend = some .compute → next.table.lookup file = some row

-- Where the run deletes a Job, no row that is submitted or running is on that cluster.
def DeletesUnowned (state : State File) : Action File → Prop
  | .deleteJob process => ∀ file backend status, state.runs process = .missed file backend status →
      deletes status → ∀ row, state.table.lookup file = some row → row.backendId = some backend →
        row.status ≠ .submitted ∧ row.status ≠ .running
  | _ => True

-- Of the backend and the status that a run or a pass has read, what it relies on is still so; and a row
-- that names a Job goes to no compute backend.
def Admitted (state : State File) : Action File → Prop
  | .dispatch file _ .compute _ => ∀ row ∈ state.table.lookup file, row.kueueWorkload = none
  | .read file => ∀ row ∈ state.table.lookup file, row.status = .submitted ∨ row.status = .running
  | .allocate process _ =>
      match state.runs process with
      | .resolved file _ => ∀ row ∈ state.table.lookup file, ∀ backend ∈ row.backendId,
          settings.kind backend ≠ some .compute
      | _ => True
  | .upsert process _ =>
      match state.runs process with
      | .posted file backend => state.table.lookup file ≠ none ∧ ∀ row ∈ state.table.lookup file,
          row.status = .uploaded ∨ row.status = .submitted → row.backendId = some backend
      | _ => True
  | .deleteJob process =>
      match state.runs process with
      | .missed file _ status => ∀ row ∈ state.table.lookup file, status = some row.status
      | _ => True
  | _ => True

instance (state : State File) (action : Action File) : Decidable (Admitted settings state action) := by
  unfold Admitted
  split
  · infer_instance
  · infer_instance
  · split <;> infer_instance
  · split <;> infer_instance
  · split <;> infer_instance
  · infer_instance

/-! ## The invariant -/

-- What a run has read and done.
def RunSound (posted : File → BackendId → Bool) : Stage File → Prop
  | .idle => True
  | .resolved _ backend | .allocated _ backend _ | .missed _ backend _ => settings.kind backend = some .kueue
  | .posted file backend => settings.kind backend = some .kueue ∧ posted file backend = true

structure Sound (state : State File) : Prop where
  rows : ∀ file row, state.table.lookup file = some row → afterSubmit row.status = true →
    Owned settings jobName state.posted file row
  -- No dispatch moves the row while a pass reads it, whatever its status becomes.
  reading : ∀ file read row, state.reading = some (file, some read) → state.table.lookup file = some row →
    Owned settings jobName state.posted file row
  runs : ∀ process, RunSound settings state.posted (state.runs process)

end Ownership

section Steps

variable {File : Type} [DecidableEq File] {settings : Settings} {jobName stagedObjectKey : File → String}
  {state next : State File} {file : File} {row written : CloudJob} {posted : File → BackendId → Bool}

omit [DecidableEq File] in
theorem Owned.leaves (owned : Owned settings jobName posted file row) (leaves : Leaves row written) :
    Owned settings jobName posted file written := by
  intro name named
  rcases leaves.kueueWorkload with same | cleared
  · obtain ⟨backend, stamped, rest⟩ := owned name (same ▸ named)
    exact ⟨backend, leaves.backendId ▸ stamped, rest⟩
  · rw [cleared] at named
    cases named

omit [DecidableEq File] in
theorem owned_of_nameless (nameless : row.kueueWorkload = none) : Owned settings jobName posted file row := by
  intro name named
  rw [nameless] at named
  cases named

theorem sound_initial : Sound settings jobName (State.initial : State File) where
  rows := by simp [State.initial]
  reading := by simp [State.initial]
  runs := by simp [State.initial, RunSound]

theorem sound_insert (sound : Sound settings jobName state)
    (advanced : afterSubmit written.status = true → Owned settings jobName state.posted file written)
    (held : ∀ read, state.reading = some (file, some read) → Owned settings jobName state.posted file written) :
    Sound settings jobName { state with table := state.table.insert file written } := by
  refine ⟨fun other row found => ?_, fun other read row reading found => ?_, sound.runs⟩
  · rcases Table.lookup_insert_some.mp found with ⟨rfl, rfl⟩ | ⟨-, before⟩
    · exact advanced
    · exact sound.rows other row before
  · rcases Table.lookup_insert_some.mp found with ⟨rfl, rfl⟩ | ⟨-, before⟩
    · exact held read reading
    · exact sound.reading other read row reading before

-- A writer that leaves the columns keeps what held of the row.
theorem sound_leaves (sound : Sound settings jobName state) (found : state.table.lookup file = some row)
    (leaves : Leaves row written)
    (advances : afterSubmit written.status = true → afterSubmit row.status = true) :
    Sound settings jobName { state with table := state.table.insert file written } :=
  sound_insert sound
    (fun advanced => (sound.rows file row found (advances advanced)).leaves leaves)
    fun read reading => (sound.reading file read row reading found).leaves leaves

theorem sound_setRun (sound : Sound settings jobName state) (process : ProcessId) {stage : Stage File}
    (fits : RunSound settings state.posted stage) : Sound settings jobName (state.setRun process stage) := by
  refine ⟨sound.rows, sound.reading, fun other => ?_⟩
  rw [setRun_runs]
  split
  · exact fits
  · exact sound.runs other

theorem sound_release (sound : Sound settings jobName state) :
    Sound settings jobName { state with reading := none } :=
  ⟨sound.rows, by simp, sound.runs⟩

theorem sound_setJob (sound : Sound settings jobName state) (backend : BackendId) (job : Option (Option Nat)) :
    Sound settings jobName (state.setJob file backend job) :=
  ⟨sound.rows, sound.reading, sound.runs⟩

/-! ## The writers outside the submit -/

theorem sound_hold (sound : Sound settings jobName state) (attempts : Nat) (now : Int) :
    Sound settings jobName
      { state with table := state.table.insert file (holdAwaiting (state.table.lookup file) attempts now) } := by
  cases found : state.table.lookup file with
  | none => exact sound_insert sound (fun _ => owned_of_nameless rfl) fun _ _ => owned_of_nameless rfl
  | some row =>
    exact sound_leaves sound found (holdAwaiting_leaves row attempts now) (by simp [holdAwaiting, afterSubmit])

theorem sound_delete (sound : Sound settings jobName state) (stepped : delete state file = some next) :
    Sound settings jobName next := by
  rw [delete_eq_some stepped]
  refine ⟨fun other row found => ?_, fun other read row reading found => ?_, sound.runs⟩
  · exact sound.rows other row (Table.lookup_erase_some.mp found).2
  · obtain ⟨apart, before⟩ := Table.lookup_erase_some.mp found
    obtain ⟨⟨reader, held⟩, was, now⟩ := Option.map_eq_some_iff.mp reading
    obtain ⟨rfl, kept⟩ := Prod.mk.injEq .. ▸ now
    rw [if_neg apart] at kept
    exact sound.reading reader read row (kept ▸ was) before

theorem sound_dispatch (sound : Sound settings jobName state) {backend : BackendId} {placement : Placement} {now : Int}
    (admitted : Admitted settings state (.dispatch file backend placement now))
    (stepped : dispatch settings state file backend placement now = some next) : Sound settings jobName next := by
  obtain ⟨idle, -, row, found, -, rfl⟩ := dispatch_eq_some stepped
  refine sound_insert sound (fun advanced => ?_) (by simp [idle])
  cases placement with
  | kueue s3Key upload bucket => simp [dispatchRow, stampBackend, uploadingUpsert, afterSubmit] at advanced
  | compute =>
    refine owned_of_nameless ?_
    rw [dispatchRow_kueueWorkload]
    exact admitted row found

theorem sound_read (sound : Sound settings jobName state) (admitted : Admitted settings state (.read file))
    (stepped : read state file = some next) : Sound settings jobName next := by
  obtain ⟨-, row, found, rfl⟩ := read_eq_some stepped
  have advanced : afterSubmit row.status = true := by
    rcases admitted row found with submitted | running
    · simp [submitted, afterSubmit]
    · simp [running, afterSubmit]
  refine ⟨sound.rows, ?_, sound.runs⟩
  rintro _ read other ⟨⟩ again
  rw [found, Option.some.injEq] at again
  exact again ▸ sound.rows file row found advanced

theorem sound_commit (sound : Sound settings jobName state) {seen : Observation}
    (stepped : commit settings state seen = some next) : Sound settings jobName next := by
  rcases commit_eq_some stepped with rfl | ⟨file, read, row, reading, found, rfl⟩
  · exact sound_release sound
  · have owned := (sound.reading file read row reading found).leaves (commitReconcile_leaves settings.cloud read row seen)
    exact sound_release (sound_insert sound (fun _ => owned) fun _ _ => owned)

/-! ## The submit -/

variable {process : ProcessId} {now : Int}

theorem allocateSlot_rows (table : Table File CloudJob) (file : File) (bound : Nat) (now : Int) :
    (allocateSlot table file bound now).2 = table ∨
      ∃ row slot, table.lookup file = some row ∧ chooseSlot table file bound row.telemetrySlot = some slot ∧
        (allocateSlot table file bound now).2 =
          table.insert file { row with telemetrySlot := some slot, updatedAt := now } := by
  unfold allocateSlot
  split
  · exact .inl rfl
  · rename_i row found
    split
    · exact .inl rfl
    · rename_i slot chosen
      exact .inr ⟨row, slot, found, chosen, rfl⟩

-- The slot is none of the columns that name a Job.
theorem sound_allocate (sound : Sound settings jobName state)
    (stepped : allocate settings state process now = some next) : Sound settings jobName next := by
  obtain ⟨file, backend, running, rfl⟩ := allocate_eq_some stepped
  have kind : settings.kind backend = some .kueue := by simpa [running, RunSound] using sound.runs process
  refine sound_setRun ?_ process kind
  rcases allocateSlot_rows state.table file settings.burstSlotBound now with
    same | ⟨row, slot, found, -, wrote⟩
  · rw [same]
    exact sound
  · rw [wrote]
    refine sound_insert sound (fun advanced => ?_) fun read reading => ?_
    · exact sound.rows file row found advanced
    · exact sound.reading file read row reading found

theorem sound_post (sound : Sound settings jobName state) (stepped : post state process = some next) :
    Sound settings jobName next := by
  obtain ⟨file, backend, slot, running, rfl⟩ := post_eq_some stepped
  have kind : settings.kind backend = some .kueue := by simpa [running, RunSound] using sound.runs process
  -- Nothing that was POSTed is forgotten.
  have grows (other : File) (cluster : BackendId) (was : state.posted other cluster = true) :
      Function.update state.posted file (Function.update (state.posted file) backend true) other cluster = true := by
    by_cases same : other = file
    · subst same
      by_cases here : cluster = backend
      · simp [here]
      · simpa [here] using was
    · simpa [same] using was
  have owned (other : File) (row : CloudJob) (was : Owned settings jobName state.posted other row) :
      Owned settings jobName
        (Function.update state.posted file (Function.update (state.posted file) backend true)) other row := by
    intro name named
    obtain ⟨cluster, stamped, kind, same, posted⟩ := was name named
    exact ⟨cluster, stamped, kind, same, grows other cluster posted⟩
  refine sound_setRun (sound_setJob ⟨?_, ?_, fun other => ?_⟩ backend _) process ⟨kind, ?_⟩
  · exact fun other row found advanced => owned other row (sound.rows other row found advanced)
  · exact fun other read row reading found => owned other row (sound.reading other read row reading found)
  · have fits := sound.runs other
    cases stage : state.runs other with
    | idle => trivial
    | resolved | allocated | missed => simpa [stage, RunSound] using fits
    | posted file backend =>
      rw [stage] at fits
      exact ⟨fits.1, grows _ _ fits.2⟩
  · show Function.update state.posted file (Function.update (state.posted file) backend true) file backend = true
    simp

theorem sound_upsert (sound : Sound settings jobName state)
    (admitted : Admitted settings state (.upsert process now))
    (stepped : upsert jobName stagedObjectKey state process now = some next) : Sound settings jobName next := by
  obtain ⟨file, backend, running, did⟩ := upsert_eq_some stepped
  have fits := sound.runs process
  simp only [Admitted, running] at admitted
  simp only [running, RunSound] at fits
  rcases did with ⟨absent, rfl⟩ | ⟨row, written, found, upserted, rfl⟩ | ⟨row, found, -, rfl⟩
  · exact absurd absent admitted.1
  · obtain ⟨guarded, rfl⟩ := submitUpsert_eq_some.mp upserted
    have owned : Owned settings jobName state.posted file { row with
        status := .submitted
        kueueWorkload := some (jobName file)
        cloudPhase := some .queuedBehindQuota
        startedAt := none
        updatedAt := now } := by
      rintro _ ⟨⟩
      exact ⟨backend, admitted.2 row found guarded, fits.1, rfl, fits.2⟩
    exact sound_setRun (sound_insert sound (fun _ => owned) fun _ _ => owned) process trivial
  · exact sound_setRun sound process fits.1

theorem step_sound {action : Action File} (sound : Sound settings jobName state)
    (admitted : Admitted settings state action)
    (stepped : step settings jobName stagedObjectKey state action = some next) : Sound settings jobName next := by
  cases action with
  | hold file attempts now =>
    cases stepped
    exact sound_hold sound attempts now
  | delete file => exact sound_delete sound stepped
  | dispatch file backend placement now => exact sound_dispatch sound admitted stepped
  | uploadFailed file | select file =>
    simp only [step, Option.ite_none_right_eq_some, Option.some.injEq] at stepped
    obtain ⟨-, rfl⟩ := stepped
    exact ⟨sound.rows, sound.reading, sound.runs⟩
  | read file => exact sound_read sound admitted stepped
  | commit seen => exact sound_commit sound stepped
  | rollback =>
    cases stepped
    exact sound_release sound
  | write file applied =>
    obtain ⟨row, written, found, -, leaves, advances, rfl⟩ := write_eq_some stepped
    exact sound_leaves sound found leaves advances
  | jobGone file backend =>
    cases stepped
    exact sound_setJob sound backend none
  | resolve process file =>
    obtain ⟨backend, row, -, -, kind, rfl⟩ := resolve_eq_some stepped
    exact sound_setRun sound process kind
  | allocate process now => exact sound_allocate sound stepped
  | post process => exact sound_post sound stepped
  | upsert process now => exact sound_upsert sound admitted stepped
  | deleteJob process =>
    obtain ⟨file, backend, status, -, ⟨-, rfl⟩ | rfl⟩ := deleteJob_eq_some stepped
    · exact sound_setRun (sound_setJob sound backend none) process trivial
    · exact sound_setRun sound process trivial
  | giveUp process =>
    cases stepped
    exact sound_setRun sound process trivial

/-! ## What the submit leaves alone -/

theorem keepsComputeRows_setRun (state : State File) (process : ProcessId) (stage : Stage File) :
    KeepsComputeRows settings state (state.setRun process stage) :=
  fun _ _ _ found _ _ => found

theorem keepsComputeRows_insert (elsewhere : ∀ row ∈ state.table.lookup file, ∀ backend ∈ row.backendId,
      settings.kind backend ≠ some .compute) :
    KeepsComputeRows settings state { state with table := state.table.insert file written } := by
  intro other row backend found stamped kind
  refine Table.lookup_insert_some.mpr (.inr ⟨?_, found⟩)
  rintro rfl
  exact elsewhere row found backend stamped kind

theorem keepsComputeRows_allocate (admitted : Admitted settings state (.allocate process now))
    (stepped : allocate settings state process now = some next) : KeepsComputeRows settings state next := by
  obtain ⟨file, backend, running, rfl⟩ := allocate_eq_some stepped
  simp only [Admitted, running] at admitted
  rcases allocateSlot_rows state.table file settings.burstSlotBound now with same | ⟨row, slot, -, -, wrote⟩
  · rw [same]
    exact keepsComputeRows_setRun state process _
  · rw [wrote]
    exact keepsComputeRows_insert admitted

theorem keepsComputeRows_upsert (sound : Sound settings jobName state)
    (admitted : Admitted settings state (.upsert process now))
    (stepped : upsert jobName stagedObjectKey state process now = some next) :
    KeepsComputeRows settings state next := by
  obtain ⟨file, backend, running, did⟩ := upsert_eq_some stepped
  have fits := sound.runs process
  simp only [Admitted, running] at admitted
  simp only [running, RunSound] at fits
  rcases did with ⟨absent, rfl⟩ | ⟨row, written, found, upserted, rfl⟩ | ⟨row, -, -, rfl⟩
  · exact absurd absent admitted.1
  · refine keepsComputeRows_insert fun again here cluster stamped => ?_
    -- The row is on the backend the run read, and that is a kueue backend.
    have named := admitted.2 row found (submitUpsert_eq_some.mp upserted).1
    rw [found, Option.mem_some_iff] at here
    rw [← here, named, Option.mem_some_iff] at stamped
    rw [← stamped, fits.1]
    simp
  · exact keepsComputeRows_setRun state process _

theorem step_keepsComputeRows {action : Action File} (sound : Sound settings jobName state)
    (admitted : Admitted settings state action) (ours : action.ofSubmit = true)
    (stepped : step settings jobName stagedObjectKey state action = some next) :
    KeepsComputeRows settings state next := by
  cases action with
  | hold | delete | dispatch | uploadFailed | select | read | commit | rollback | write | jobGone => cases ours
  | resolve process file =>
    obtain ⟨backend, row, -, -, -, rfl⟩ := resolve_eq_some stepped
    exact keepsComputeRows_setRun state process _
  | allocate process now => exact keepsComputeRows_allocate admitted stepped
  | post process =>
    obtain ⟨file, backend, slot, -, rfl⟩ := post_eq_some stepped
    exact fun _ _ _ found _ _ => found
  | upsert process now => exact keepsComputeRows_upsert sound admitted stepped
  | deleteJob process =>
    obtain ⟨file, backend, status, -, ⟨-, rfl⟩ | rfl⟩ := deleteJob_eq_some stepped
    · exact fun _ _ _ found _ _ => found
    · exact keepsComputeRows_setRun state process _
  | giveUp process =>
    cases stepped
    exact keepsComputeRows_setRun state process _

theorem deletesUnowned_of_admitted {action : Action File} (admitted : Admitted settings state action) :
    DeletesUnowned state action := by
  cases action with
  | deleteJob process =>
    intro file backend status running gone row found _
    simp only [Admitted, running] at admitted
    have unchanged := admitted row found
    rcases gone with rfl | rfl | rfl <;>
      · rw [← Option.some.inj unchanged]
        decide
  | _ => trivial

/-- In every run in which what a submit or a reconcile has read still holds when it relies on it, and in
which no row that names a Job goes to a compute backend: every submitted or running row owns the Job it
names, and the next step of a submit modifies no row of a compute backend and deletes no Job of such a row. -/
theorem submits_keep_ownership (actions : List (Action File))
    (along : Along (step settings jobName stagedObjectKey) (Admitted settings) .initial actions)
    (ran : run (step settings jobName stagedObjectKey) .initial actions = some state) :
    JobsOwned settings jobName state ∧
      ∀ action, Admitted settings state action → action.ofSubmit = true →
        DeletesUnowned state action ∧
          ∀ next, step settings jobName stagedObjectKey state action = some next →
            KeepsComputeRows settings state next := by
  have sound : Sound settings jobName state := run_keeps (fun _ _ _ => step_sound) actions along sound_initial ran
  refine ⟨fun file row found live => sound.rows file row found ?_, fun action admitted ours => ⟨?_, ?_⟩⟩
  · rcases live with submitted | running
    · simp [submitted, afterSubmit]
    · simp [running, afterSubmit]
  · exact deletesUnowned_of_admitted admitted
  · exact fun next stepped => step_keepsComputeRows sound admitted ours stepped

end Steps

theorem submitted_file_owns_its_job : ∃ state,
    run (step twoLanes analyzeJob stagedKey) .initial (.hold 1 0 0 :: staged 1 ++ submitted 0 1) = some state ∧
      (state.table.lookup 1).map (fun row => (row.status, row.kueueWorkload)) =
        some (.submitted, some "phaze-analyze-1") ∧
      JobsOwned twoLanes analyzeJob state := by
  have along : Along (step twoLanes analyzeJob stagedKey) (Admitted twoLanes) .initial
      (.hold 1 0 0 :: staged 1 ++ submitted 0 1) := by decide
  exact ⟨_, rfl, rfl, (submits_keep_ownership _ along rfl).1⟩

-- A submit has read the backend when the reaper spills the row and a tick sends it to the agent.
def overtaken : List (Action Nat) :=
  .hold 1 0 0 :: staged 1 ++
    [.resolve 0 1, .write 1 (.reapStaging 0), .dispatch 1 "agent" .compute 0, .allocate 0 0, .post 0]

/-- The overtaken submit upserts the row of the compute agent, which then names a Job of the cluster. -/
theorem overtaken_submit_takes_compute_row : ∃ state next,
    run (step twoLanes analyzeJob stagedKey) .initial overtaken = some state ∧
      step twoLanes analyzeJob stagedKey state (.upsert 0 0) = some next ∧
      ¬ KeepsComputeRows twoLanes state next ∧ ¬ JobsOwned twoLanes analyzeJob next := by
  refine ⟨_, _, rfl, rfl, fun keeps => ?_, fun owned => ?_⟩
  · have kept := keeps 1 _ "agent" rfl rfl rfl
    exact absurd kept (by decide)
  · obtain ⟨backend, stamped, kind, -⟩ := owned 1 _ rfl (.inl rfl) _ rfl
    cases stamped
    exact absurd kind (by decide)

end Phaze.Submit
