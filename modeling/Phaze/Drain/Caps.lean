import Phaze.Drain.Writes
import Phaze.Push.Protocol
import Phaze.Shared.Runs

set_option autoImplicit false

/-!
# The caps of the backends

The `cloud_job` table under the drain and every other writer of its rows. A tick counts the free slots
of each backend once, and the cap holds as long as nobody else puts a row back in flight: `granted` is
what an open tick may still add.
-/

namespace Phaze.Drain.Caps

open Phaze.Cloud
open Phaze.Staging (CloudJobStatus UploadId)
open Phaze.Runs

structure Settings where
  backends : List Backend
  drain : Drain.Settings
  cloud : Cloud.Settings
  distinct : (backends.map Backend.id).Nodup

/-! ## The writers outside the tick -/

inductive Write where
  | uploaded (upload : UploadId) (now : Int)
  -- The upsert of a re-drive, after `process_upload_failed` has read the row.
  | restage (s3Key : String) (upload : UploadId) (bucket : String) (now : Int)
  -- The spills of the callbacks: upload-failed, an empty parts list, push-failed, push-mismatch.
  | spill (expectStatus : List CloudJobStatus) (expectUploadId : Option UploadId) (clears : Bool) (now : Int)
  | submit (name : String) (now : Int)
  | reconcile (seen : Observation)
  | reapStaging (now : Int)
  | reapSubmitted (now : Int)
  | pushed (now : Int)
  | rearm (now : Int)
deriving DecidableEq

def Write.apply (cloud : Cloud.Settings) (row : CloudJob) : Write → Option CloudJob
  | .uploaded upload now => uploadedFlip row upload now
  | .restage s3Key upload bucket now => some (uploadingUpsert (some row) s3Key upload bucket now)
  | .spill expectStatus expectUploadId clears now =>
      spillAwaiting row cloud.cloudSubmitMaxAttempts expectStatus expectUploadId clears now
  | .submit name now => submitUpsert row name now
  | .reconcile seen => some (reconcileOne cloud row seen).row
  | .reapStaging now => Cloud.reapStaging row cloud.cloudSubmitMaxAttempts now
  | .reapSubmitted now => Cloud.reapSubmitted row cloud.cloudSubmitMaxAttempts now
  | .pushed now => Push.pushedFlip row now
  | .rearm now => Push.rearm row now

-- Whether the writer holds the drain's advisory lock while it reads and writes the row.
def Write.locksDrain : Write → Bool
  | .reconcile _ | .reapStaging _ | .reapSubmitted _ => true
  | _ => false

-- The writers that may put a row in flight that was not.
def Write.enters : Write → Bool
  | .restage .. | .reconcile _ | .rearm _ => true
  | _ => false

/-! ## The table -/

variable {File : Type}

-- What a tick learns of a backend beside its count. A probe that raises leaves no slot.
structure Probe where
  raises : Bool
  available : Bool
  -- `gate_remaining`: whether the probe of an open breaker is due.
  breaker : Option Bool
  -- The running local analyses, which have no row here.
  localCount : Nat

structure State (File : Type) where
  table : Table File CloudJob
  tick : Option (Walk File)
  -- Files whose failed upload is being re-driven, and rows that a reconcile pass has selected.
  restaging : List File
  selected : List File

variable [DecidableEq File]

def State.initial (table : Table File CloudJob) : State File :=
  { table := table, tick := none, restaging := [], selected := [] }

def occupies (backend : BackendId) (row : CloudJob) : Bool :=
  row.backendId = some backend && inFlight row.status

def inFlightCount (table : Table File CloudJob) (backend : BackendId) : Nat :=
  (table.matching fun _ row => occupies backend row).card

-- `_snapshot_backend_slots` for one backend.
def snapshotSlot (table : Table File CloudJob) (probe : Probe) (backend : Backend) : BackendSlot :=
  if probe.raises then { backend := backend, available := false, remaining := 0 }
  else
    let count := if backend.kind = .localLane then probe.localCount else inFlightCount table backend.id
    let remaining := backend.cap - count
    { backend := backend
      available := probe.available
      remaining := match probe.breaker with
        | none => remaining
        | some due => if due then min remaining 1 else 0 }

inductive Action (File : Type) where
  | openTick (probes : BackendId → Probe)
  | stage (candidate : Candidate File) (held : Nat)
  | commit
  | rollback
  | hold (file : File) (attempts : Nat) (now : Int)
  | delete (file : File)
  | uploadFailed (file : File)
  | select (file : File)
  | write (file : File) (write : Write)
  -- The re-drive and the submit whose row is gone by the time they write it.
  | restageInsert (file : File) (s3Key : String) (upload : UploadId) (bucket : String) (now : Int)
  | submitInsert (file : File) (s3Key name : String) (now : Int)

section Steps

variable (settings : Settings) (state : State File)

-- The tick has written the row, and holds its lock.
def State.locked (file : File) : Bool :=
  state.tick.any fun walk => walk.writes.any fun write => write.1 = file

def stage (candidate : Candidate File) (held : Nat) : Option (State File) :=
  match state.tick with
  | none => none
  | some walk =>
      if state.table.lookup candidate.file = some candidate.row ∧ candidate.row.status = .awaiting ∧
          ¬ state.locked candidate.file then
        let staged := stageCandidate settings.drain walk candidate held
        match staged.2 with
        | .poisoned | .aborted => some { state with tick := none }
        | .held _ | .dispatched _ | .raised .. | .vanished => some { state with tick := some staged.1 }
      else none

-- The row that a write finds, and whether its handler has come that far.
def State.ready (file : File) (write : Write) : Bool :=
  !state.locked file && (!write.locksDrain || state.tick.isNone) &&
    match write with
    | .restage .. => file ∈ state.restaging
    | .reconcile _ => file ∈ state.selected
    | _ => true

-- An upsert that finds no row to conflict with.
def State.insertRow (file : File) (row : CloudJob) : Option (State File) :=
  if (state.table.lookup file).isNone && !state.locked file then some { state with table := state.table.insert file row } else none

def step : Action File → Option (State File)
  | .openTick probes =>
      if state.tick.isNone then
        some { state with
          tick := some (.start (settings.backends.map fun backend =>
            snapshotSlot state.table (probes backend.id) backend)) }
      else none
  | .stage candidate held => stage settings state candidate held
  | .commit => state.tick.map fun walk => { state with table := commitWrites state.table walk.writes, tick := none }
  | .rollback => state.tick.map fun _ => { state with tick := none }
  | .hold file attempts now =>
      if state.locked file then none
      else some { state with table := state.table.insert file (holdAwaiting (state.table.lookup file) attempts now) }
  | .delete file => if state.locked file then none else some { state with table := state.table.erase file }
  | .uploadFailed file =>
      if (state.table.lookup file).any fun row => row.status = .uploading then
        some { state with restaging := file :: state.restaging }
      else none
  | .select file =>
      if (state.table.lookup file).any fun row => row.status = .submitted || row.status = .running then
        some { state with selected := file :: state.selected }
      else none
  | .write file write =>
      if state.ready file write then
        ((state.table.lookup file).bind (write.apply settings.cloud)).map fun row =>
          { state with table := state.table.insert file row }
      else none
  | .restageInsert file s3Key upload bucket now =>
      if file ∈ state.restaging then state.insertRow file (uploadingUpsert none s3Key upload bucket now) else none
  | .submitInsert file s3Key name now => state.insertRow file (insertedRow s3Key name now)

end Steps

/-! ## What an open tick may still add -/

def remaining (slots : List BackendSlot) (backend : BackendId) : Nat :=
  ((slots.find? fun slot => slot.backend.id = backend).map BackendSlot.remaining).getD 0

def written (writes : List (File × CloudJob)) (backend : BackendId) : Nat :=
  writes.countP fun write => occupies backend write.2

def granted (tick : Option (Walk File)) (backend : BackendId) : Nat :=
  match tick with
  | none => 0
  | some walk => remaining walk.slots backend + written walk.writes backend

-- The row is in flight already, or its backend has a slot that no tick has granted.
def Room (settings : Settings) (state : State File) (file : File) : Prop :=
  match state.table.lookup file with
  | none => True
  | some row => inFlight row.status = true ∨ ∀ backend ∈ settings.backends, row.backendId = some backend.id →
      inFlightCount state.table backend.id + granted state.tick backend.id < backend.cap

instance (settings : Settings) (state : State File) (file : File) : Decidable (Room settings state file) := by
  unfold Room
  split <;> infer_instance

-- No dispatch raises after its upsert, and a writer outside the tick puts a row in flight only where there is room.
def Admitted (settings : Settings) (state : State File) : Action File → Prop
  | .stage candidate held =>
      match state.tick with
      | none => True
      | some walk => (stageCandidate settings.drain walk candidate held).2 ≠ .raised candidate.file true
  | .write file write => write.enters = true → Room settings state file
  | _ => True

instance (settings : Settings) (state : State File) (action : Action File) :
    Decidable (Admitted settings state action) := by
  unfold Admitted
  split
  · split <;> infer_instance
  · infer_instance
  · infer_instance

structure Within (settings : Settings) (state : State File) : Prop where
  capped : ∀ backend ∈ settings.backends, backend.kind ≠ .localLane →
    inFlightCount state.table backend.id + granted state.tick backend.id ≤ backend.cap
  slots : ∀ walk, state.tick = some walk → walk.slots.map BackendSlot.backend = settings.backends

section Slots

variable {settings : Settings}

-- Of two with one id there is one.
theorem find_eq_some {slots : List BackendSlot} (distinct : (slots.map fun slot => slot.backend.id).Nodup)
    {slot : BackendSlot} (member : slot ∈ slots) :
    (slots.find? fun other => other.backend.id = slot.backend.id) = some slot := by
  induction slots with
  | nil => cases member
  | cons head rest ih =>
    rw [List.map_cons, List.nodup_cons] at distinct
    rcases List.mem_cons.mp member with rfl | below
    · simp
    · have apart : head.backend.id ≠ slot.backend.id := by
        intro same
        exact distinct.1 (same ▸ List.mem_map_of_mem below)
      simp [apart, ih distinct.2 below]

theorem remaining_claimSlot (slots : List BackendSlot) (claimed backend : BackendId) :
    remaining (claimSlot slots claimed) backend =
      if backend = claimed then remaining slots backend - 1 else remaining slots backend := by
  unfold remaining claimSlot
  rw [List.find?_map]
  have keeps : ((fun slot : BackendSlot => decide (slot.backend.id = backend)) ∘ fun slot =>
      if slot.backend.id = claimed then { slot with remaining := slot.remaining - 1 } else slot) =
        fun slot => decide (slot.backend.id = backend) := by
    funext slot
    simp only [Function.comp_apply]
    split <;> rfl
  rw [keeps]
  cases found : slots.find? fun slot => slot.backend.id = backend with
  | none => simp
  | some slot =>
    have named : slot.backend.id = backend := by simpa using List.find?_some found
    by_cases same : backend = claimed
    · simp [named, same]
    · simp [named, same]

theorem remaining_snapshot (table : Table File CloudJob) (probes : BackendId → Probe) {backend : Backend}
    (member : backend ∈ settings.backends) (cloud : backend.kind ≠ .localLane) :
    remaining (settings.backends.map fun backend => snapshotSlot table (probes backend.id) backend) backend.id ≤
      backend.cap - inFlightCount table backend.id := by
  have names : (settings.backends.map fun backend => snapshotSlot table (probes backend.id) backend).map
      (fun slot => slot.backend.id) = settings.backends.map Backend.id := by
    rw [List.map_map]
    refine List.map_congr_left fun other _ => ?_
    simp only [Function.comp_apply, snapshotSlot]
    split <;> rfl
  have mine := List.mem_map_of_mem (f := fun backend => snapshotSlot table (probes backend.id) backend) member
  have found := find_eq_some (names ▸ settings.distinct) mine
  have named : (snapshotSlot table (probes backend.id) backend).backend.id = backend.id := by
    simp only [snapshotSlot]
    split <;> rfl
  rw [named] at found
  rw [remaining, found]
  simp only [Option.map_some, Option.getD_some, snapshotSlot, cloud, if_false]
  split
  · exact Nat.zero_le _
  · dsimp only
    split
    · exact Nat.le_refl _
    · split
      · exact Nat.min_le_left _ _
      · exact Nat.zero_le _

end Slots

/-! ## The tick -/

section Tick

variable {settings : Settings} {state next : State File} {walk : Walk File}

theorem remaining_pos {slots : List BackendSlot} (distinct : (slots.map fun slot => slot.backend.id).Nodup)
    {slot : BackendSlot} (member : slot ∈ slots) (eligible : slot.eligible = true) :
    0 < remaining slots slot.backend.id := by
  rw [remaining, find_eq_some distinct member]
  simp only [BackendSlot.eligible, Bool.and_eq_true, decide_eq_true_eq] at eligible
  exact eligible.2

theorem claimSlot_backends (slots : List BackendSlot) (backend : BackendId) :
    (claimSlot slots backend).map BackendSlot.backend = slots.map BackendSlot.backend := by
  rw [claimSlot, List.map_map]
  refine List.map_congr_left fun slot _ => ?_
  simp only [Function.comp_apply]
  split <;> rfl

omit [DecidableEq File] in
theorem granted_claim_le (walk : Walk File) (claimed backend : BackendId) :
    granted (some (walk.claim claimed)) backend ≤ granted (some walk) backend := by
  simp only [granted, Walk.claim, remaining_claimSlot]
  split <;> omega

-- A dispatch that goes through turns a slot it was granted into a row of that backend.
omit [DecidableEq File] in
theorem granted_dispatched {candidate : Candidate File} {chosen : Backend} (cloud : chosen.kind ≠ .localLane)
    (sound : candidate.failure = none) (free : 0 < remaining walk.slots chosen.id) (backend : BackendId) :
    granted (some ((walk.write candidate.file chosen.kind (dispatchDraft candidate chosen)).claim chosen.id)) backend ≤
      granted (some walk) backend := by
  have wrote := dispatchDraft_of_sound cloud sound
  have stamped := dispatchDraft_backendId cloud sound
  simp only [granted, Walk.claim, Walk.write, wrote, if_true, remaining_claimSlot, written, List.countP_append,
    List.countP_singleton]
  by_cases same : backend = chosen.id
  · subst same
    simp only [if_true]
    split <;> omega
  · have elsewhere : occupies backend (dispatchDraft candidate chosen).row = false := by
      simp [occupies, stamped, Ne.symm same]
    simp [same, elsewhere]

omit [DecidableEq File] in
theorem stageCloud_granted {candidate : Candidate File} {chosen : Backend} {held : Nat}
    (cloud : chosen.kind ≠ .localLane) (free : 0 < remaining walk.slots chosen.id)
    (early : (stageCloud walk candidate chosen held).2 ≠ .raised candidate.file true)
    (sound : (stageCloud walk candidate chosen held).2 ≠ .poisoned) (backend : BackendId) :
    granted (some (stageCloud walk candidate chosen held).1) backend ≤ granted (some walk) backend := by
  cases failed : candidate.failure with
  | none =>
    simp only [stageCloud, failed]
    exact granted_dispatched cloud failed free backend
  | some failure =>
    cases failure with
    | noActiveAgent =>
      obtain ⟨unwritten, unparked⟩ := dispatchDraft_of_noActiveAgent cloud failed
      simp only [stageCloud, failed, write_unwritten walk candidate.file chosen.kind unwritten unparked]
      exact Nat.le_refl _
    | raises step =>
      rw [stageCloud_of_raises walk held cloud failed early]
      exact Nat.le_refl _
    | poisons step => simp [stageCloud, failed] at sound

omit [DecidableEq File] in
theorem stageCandidate_granted {candidate : Candidate File} {held : Nat}
    (distinct : (walk.slots.map fun slot => slot.backend.id).Nodup)
    (early : (stageCandidate settings.drain walk candidate held).2 ≠ .raised candidate.file true)
    (sound : (stageCandidate settings.drain walk candidate held).2 ≠ .poisoned) (backend : BackendId) :
    granted (some (stageCandidate settings.drain walk candidate held).1) backend ≤ granted (some walk) backend := by
  unfold stageCandidate at early sound ⊢
  split
  · exact Nat.le_refl _
  split
  · exact Nat.le_refl _
  rename_i reads _ chosen selected
  obtain ⟨slot, member, eligible, rfl⟩ := select_eligible selected
  split
  · unfold stageLocal
    split
    · exact granted_claim_le walk slot.backend.id backend
    · exact granted_claim_le walk slot.backend.id backend
    · exact Nat.le_refl _
    · exact Nat.le_refl _
  rename_i cloud
  split
  · rename_i ready
    simp only [reads, selected, cloud, ready, Bool.false_eq_true, if_false, if_true] at early sound
    exact stageCloud_granted cloud (remaining_pos distinct member eligible) early sound backend
  · exact Nat.le_refl _

omit [DecidableEq File] in
theorem stageCandidate_backends (candidate : Candidate File) (held : Nat) :
    (stageCandidate settings.drain walk candidate held).1.slots.map BackendSlot.backend =
      walk.slots.map BackendSlot.backend := by
  unfold stageCandidate stageLocal stageCloud
  grind [Walk.claim, Walk.skip, Walk.write, claimSlot_backends]

theorem inFlightCount_commitWrites (writes : List (File × CloudJob)) (table : Table File CloudJob)
    (backend : BackendId) :
    inFlightCount (commitWrites table writes) backend ≤ inFlightCount table backend + written writes backend := by
  induction writes generalizing table with
  | nil => exact Nat.le_refl _
  | cons write rest ih =>
    have later := ih (table.insert write.1 write.2)
    have first : inFlightCount (table.insert write.1 write.2) backend ≤
        inFlightCount table backend + if occupies backend write.2 then 1 else 0 :=
      Table.card_matching_insert_le
    rw [written] at later ⊢
    rw [List.countP_cons]
    calc inFlightCount (commitWrites table (write :: rest)) backend
        ≤ inFlightCount (table.insert write.1 write.2) backend + rest.countP fun write => occupies backend write.2 :=
          later
      _ ≤ _ := by omega

end Tick

/-! ## The other writers -/

section Writers

variable {cloud : Cloud.Settings} {row next : CloudJob}

theorem spillAwaiting_leaves {attempts : Nat} {expect : List CloudJobStatus} {upload : Option UploadId}
    {clears : Bool} {now : Int} (spilled : spillAwaiting row attempts expect upload clears now = some next) :
    next.backendId = row.backendId ∧ inFlight next.status = false := by
  simp only [spillAwaiting, Option.ite_none_right_eq_some, Option.some.injEq] at spilled
  obtain ⟨-, rfl⟩ := spilled
  exact ⟨rfl, rfl⟩

-- No writer outside the tick moves a row to another backend.
theorem apply_backendId {write : Write} (applied : write.apply cloud row = some next) :
    next.backendId = row.backendId := by
  cases write with
  | uploaded upload now =>
    simp only [Write.apply, uploadedFlip, Option.ite_none_right_eq_some, Option.some.injEq] at applied
    obtain ⟨-, rfl⟩ := applied
    rfl
  | restage s3Key upload bucket now =>
    cases applied
    rfl
  | spill expectStatus expectUploadId clears now => exact (spillAwaiting_leaves applied).1
  | submit name now =>
    simp only [Write.apply, submitUpsert, Option.ite_none_right_eq_some, Option.some.injEq] at applied
    obtain ⟨-, rfl⟩ := applied
    rfl
  | reconcile seen =>
    cases applied
    exact (reconcileOne_keeps cloud row seen).backendId
  | reapStaging now =>
    obtain ⟨-, rfl⟩ := reapStaging_eq_some.mp applied
    rfl
  | reapSubmitted now => exact (spillAwaiting_leaves applied).1
  | pushed now =>
    simp only [Write.apply, Push.pushedFlip, Option.ite_none_right_eq_some, Option.some.injEq] at applied
    obtain ⟨-, rfl⟩ := applied
    rfl
  | rearm now =>
    simp only [Write.apply, Push.rearm, Option.ite_none_right_eq_some, Option.some.injEq] at applied
    obtain ⟨-, rfl⟩ := applied
    rfl

-- Only three of them may put a row in flight that was not.
theorem apply_inFlight {write : Write} (applied : write.apply cloud row = some next)
    (leaves : write.enters = false) (flying : inFlight next.status = true) : inFlight row.status = true := by
  cases write with
  | restage | reconcile | rearm => cases leaves
  | uploaded upload now =>
    simp only [Write.apply, uploadedFlip, Option.ite_none_right_eq_some, Option.some.injEq] at applied
    rw [applied.1.1]
    rfl
  | spill expectStatus expectUploadId clears now =>
    rw [(spillAwaiting_leaves applied).2] at flying
    cases flying
  | submit name now =>
    simp only [Write.apply, submitUpsert, Option.ite_none_right_eq_some, Option.some.injEq] at applied
    rcases applied.1 with uploaded | submitted
    · rw [uploaded]
      rfl
    · rw [submitted]
      rfl
  | reapStaging now =>
    obtain ⟨-, rfl⟩ := reapStaging_eq_some.mp applied
    cases flying
  | reapSubmitted now =>
    rw [(spillAwaiting_leaves applied).2] at flying
    cases flying
  | pushed now =>
    simp only [Write.apply, Push.pushedFlip, Option.ite_none_right_eq_some, Option.some.injEq] at applied
    obtain ⟨-, rfl⟩ := applied
    cases flying

end Writers

section Caps

variable {settings : Settings} {state next : State File}

theorem within_of_count {table : Table File CloudJob} (within : Within settings state)
    (fewer : ∀ backend, inFlightCount table backend ≤ inFlightCount state.table backend) :
    Within settings { state with table := table } := by
  refine ⟨fun backend member cloud => ?_, within.slots⟩
  have capped := within.capped backend member cloud
  have count := fewer backend.id
  show inFlightCount table backend.id + granted state.tick backend.id ≤ backend.cap
  omega

theorem within_write {file : File} {write : Write} {row written : CloudJob} (within : Within settings state)
    (found : state.table.lookup file = some row) (applied : write.apply settings.cloud row = some written)
    (room : write.enters = true → Room settings state file) :
    Within settings { state with table := state.table.insert file written } := by
  have sameBackend := apply_backendId applied
  by_cases flying : inFlight row.status = true
  · refine within_of_count within fun backend => Table.card_matching_insert_of_selected fun occupied => ?_
    refine Table.mem_matching.mpr ⟨row, found, ?_⟩
    simp only [occupies, sameBackend, Bool.and_eq_true] at occupied ⊢
    exact ⟨occupied.1, flying⟩
  · refine ⟨fun backend member cloud => ?_, within.slots⟩
    have capped := within.capped backend member cloud
    have count : inFlightCount (state.table.insert file written) backend.id ≤
        inFlightCount state.table backend.id + if occupies backend.id written then 1 else 0 :=
      Table.card_matching_insert_le
    show inFlightCount (state.table.insert file written) backend.id + granted state.tick backend.id ≤ backend.cap
    cases occupied : occupies backend.id written with
    | false =>
      simp only [occupied, Bool.false_eq_true, if_false] at count
      omega
    | true =>
      simp only [occupied, if_true] at count
      simp only [occupies, Bool.and_eq_true, decide_eq_true_eq] at occupied
      have enters : write.enters = true := by
        by_contra leaves
        exact flying (apply_inFlight applied (by simpa using leaves) occupied.2)
      have free := room enters
      simp only [Room, found] at free
      have slot := free.resolve_left flying backend member (sameBackend ▸ occupied.1)
      omega

-- A row that an upsert inserts belongs to no backend.
theorem within_insertRow {file : File} {row : CloudJob} (within : Within settings state) (unplaced : row.backendId = none)
    (stepped : state.insertRow file row = some next) : Within settings next := by
  rw [State.insertRow, Option.ite_none_right_eq_some, Option.some.injEq] at stepped
  obtain ⟨-, rfl⟩ := stepped
  refine within_of_count within fun backend => Table.card_matching_insert_of_selected fun occupied => ?_
  simp [occupies, unplaced] at occupied

theorem within_open (within : Within settings state) (idle : state.tick = none) (probes : BackendId → Probe) :
    Within settings { state with
      tick := some (.start (settings.backends.map fun backend =>
        snapshotSlot state.table (probes backend.id) backend)) } := by
  refine ⟨fun backend member cloud => ?_, ?_⟩
  · have capped := within.capped backend member cloud
    have counted := remaining_snapshot state.table probes member cloud
    simp only [idle, granted] at capped
    simp only [granted, Walk.start, written, List.countP_nil]
    omega
  · rintro walk ⟨⟩
    simp only [Walk.start, List.map_map]
    calc settings.backends.map (BackendSlot.backend ∘ fun backend =>
          snapshotSlot state.table (probes backend.id) backend)
        = settings.backends.map id := by
          refine List.map_congr_left fun backend _ => ?_
          simp only [Function.comp_apply, snapshotSlot, id_eq]
          split <;> rfl
      _ = settings.backends := List.map_id _

theorem within_close (within : Within settings state) : Within settings { state with tick := none } := by
  refine ⟨fun backend member cloud => ?_, by simp⟩
  have capped := within.capped backend member cloud
  show inFlightCount state.table backend.id + 0 ≤ backend.cap
  omega

theorem within_stage {candidate : Candidate File} {held : Nat} (within : Within settings state)
    (admitted : Admitted settings state (.stage candidate held))
    (stepped : stage settings state candidate held = some next) : Within settings next := by
  cases opened : state.tick with
  | none => simp [stage, opened] at stepped
  | some walk =>
    simp only [Admitted, opened] at admitted
    simp only [stage, opened, Option.ite_none_right_eq_some] at stepped
    obtain ⟨-, stepped⟩ := stepped
    have registry := within.slots walk opened
    have distinct : (walk.slots.map fun slot => slot.backend.id).Nodup := by
      have names := settings.distinct
      rwa [← registry, List.map_map] at names
    -- The walk goes on with no more granted than it had.
    have goes (sound : (stageCandidate settings.drain walk candidate held).2 ≠ .poisoned) :
        Within settings { state with tick := some (stageCandidate settings.drain walk candidate held).1 } := by
      refine ⟨fun backend member cloud => ?_, ?_⟩
      · have capped := within.capped backend member cloud
        have kept := stageCandidate_granted distinct admitted sound backend.id
        rw [opened] at capped
        show inFlightCount state.table backend.id + granted (some _) backend.id ≤ backend.cap
        omega
      · rintro _ ⟨⟩
        rw [stageCandidate_backends, registry]
    cases event : (stageCandidate settings.drain walk candidate held).2 with
    | poisoned | aborted =>
      simp only [event, Option.some.injEq] at stepped
      subst stepped
      exact within_close within
    | held | dispatched | raised | vanished =>
      simp only [event, Option.some.injEq] at stepped
      subst stepped
      exact goes (by simp [event])

theorem within_commit (within : Within settings state)
    (stepped : step settings state .commit = some next) : Within settings next := by
  simp only [step, Option.map_eq_some_iff] at stepped
  obtain ⟨walk, opened, rfl⟩ := stepped
  refine ⟨fun backend member cloud => ?_, by simp⟩
  have capped := within.capped backend member cloud
  have counted := inFlightCount_commitWrites walk.writes state.table backend.id
  simp only [opened, granted] at capped ⊢
  omega

theorem step_within {action : Action File} (within : Within settings state)
    (admitted : Admitted settings state action) (stepped : step settings state action = some next) :
    Within settings next := by
  cases action with
  | openTick probes =>
    simp only [step, Option.ite_none_right_eq_some, Option.some.injEq, Option.isNone_iff_eq_none] at stepped
    obtain ⟨idle, rfl⟩ := stepped
    exact within_open within idle probes
  | stage candidate held => exact within_stage within admitted stepped
  | commit => exact within_commit within stepped
  | rollback =>
    simp only [step, Option.map_eq_some_iff] at stepped
    obtain ⟨walk, -, rfl⟩ := stepped
    exact within_close within
  | hold file attempts now =>
    simp only [step, Option.ite_none_left_eq_some, Option.some.injEq] at stepped
    obtain ⟨-, rfl⟩ := stepped
    refine within_of_count within fun backend => Table.card_matching_insert_of_selected fun occupied => ?_
    simp [occupies, holdAwaiting, inFlight] at occupied
  | delete file =>
    simp only [step, Option.ite_none_left_eq_some, Option.some.injEq] at stepped
    obtain ⟨-, rfl⟩ := stepped
    exact within_of_count within fun backend => Table.card_matching_erase_le
  | uploadFailed file | select file =>
    simp only [step, Option.ite_none_right_eq_some, Option.some.injEq] at stepped
    obtain ⟨-, rfl⟩ := stepped
    exact ⟨within.capped, within.slots⟩
  | write file write =>
    simp only [step, Option.ite_none_right_eq_some, Option.map_eq_some_iff, Option.bind_eq_some_iff] at stepped
    obtain ⟨-, written, ⟨row, found, applied⟩, rfl⟩ := stepped
    exact within_write within found applied admitted
  | restageInsert file s3Key upload bucket now =>
    simp only [step, Option.ite_none_right_eq_some] at stepped
    exact within_insertRow within rfl stepped.2
  | submitInsert file s3Key name now => exact within_insertRow within rfl stepped

/-- From a table with nothing in flight: in every run in which no dispatch raises after its upsert and
no writer outside the ticks puts a row in flight where there is no room, no backend exceeds its cap. -/
theorem caps_hold (table : Table File CloudJob) (actions : List (Action File))
    (empty : ∀ backend, inFlightCount table backend = 0)
    (along : Along (step settings) (Admitted settings) (.initial table) actions)
    (ran : run (step settings) (.initial table) actions = some state) :
    ∀ backend ∈ settings.backends, backend.kind ≠ .localLane →
      inFlightCount state.table backend.id ≤ backend.cap := by
  have initial : Within settings (.initial table) := by
    refine ⟨fun backend _ _ => ?_, by simp [State.initial]⟩
    simp [State.initial, granted, empty]
  have within : Within settings state :=
    run_keeps (fun _ _ _ => step_within) actions along initial ran
  intro backend member cloud
  have capped := within.capped backend member cloud
  omega

end Caps

/-! ## A backend of one slot -/

def oneSlot : Settings :=
  { backends := [{ id := "compute", kind := .compute, rank := 1, cap := 1 }]
    drain :=
      { cloudSubmitMaxAttempts := 3
        cloudSpillToLocalAfterSeconds := 3600
        cloudBudgetMaxChains := 0
        cloudBudgetMaxNodeLoss := 0
        cloudBudgetCooldownDays := 0 }
    cloud := { cloudSubmitMaxAttempts := 3, cloudNodeLossMaxRedrives := 3, cloudRedriveBackoffSec := [60] }
    distinct := by simp }

-- A file is held, and a tick dispatches it to the backend.
def dispatched (file : Nat) : List (Action Nat) :=
  [.hold file 0 0,
    .openTick fun _ => { raises := false, available := true, breaker := none, localCount := 0 },
    .stage
      { file := file
        row := .fresh .awaiting 0
        budget := none
        now := 0
        readsRaise := false
        eligible := true
        s3Key := ""
        upload := ""
        bucket := ""
        writtenAt := 0
        failure := none
        localOutcome := .staged } 1,
    .commit]

-- The first file is pushed, and the slot it frees goes to the second.
def handedOn : List (Action Nat) :=
  dispatched 1 ++ [.write 1 (.pushed 0)] ++ dispatched 2

theorem handedOn_within_cap : ∃ state,
    run (step oneSlot) (.initial ∅) handedOn = some state ∧
      inFlightCount state.table "compute" = 1 ∧
      ∀ backend ∈ oneSlot.backends, backend.kind ≠ .localLane →
        inFlightCount state.table backend.id ≤ backend.cap :=
  ⟨_, rfl, rfl, caps_hold ∅ handedOn (fun _ => rfl) (by decide) rfl⟩

/-- A mismatch of the first file re-arms its row: two rows in flight on a backend of one slot. -/
theorem rearm_exceeds_cap : ∃ state,
    run (step oneSlot) (.initial ∅) (handedOn ++ [.write 1 (.rearm 0)]) = some state ∧
      inFlightCount state.table "compute" = 2 ∧
      ¬ ∀ backend ∈ oneSlot.backends, backend.kind ≠ .localLane →
        inFlightCount state.table backend.id ≤ backend.cap := by
  refine ⟨_, rfl, rfl, fun within => ?_⟩
  have capped := within _ List.mem_cons_self (by decide)
  exact absurd capped (by decide)

end Phaze.Drain.Caps
