import Phaze.Quarantine.Detector

set_option autoImplicit false

/-!
# The copies of a content

A row goes from one status to another along the edges only, so an identity has one live row. A duplicate that is
approved leaves a copy as long as the linked copy it is judged by is not on its own way out.
-/

namespace Phaze.Quarantine.Detector

open Shared

section Rows

variable {Hash : Type}

/-- The row takes its file away as a copy of another one. -/
def CompanionJunkReview.covers (row : CompanionJunkReview Hash) : Bool :=
  row.reason = .duplicate && (row.status = .approved || row.status = .executing || row.status = .quarantined)

structure CompanionJunkReview.SameIdentity (row other : CompanionJunkReview Hash) : Prop where
  agentId : row.agentId = other.agentId
  originalPath : row.originalPath = other.originalPath
  sha256Hash : row.sha256Hash = other.sha256Hash

/-- What a step does to a row that it keeps: the identity stays, and no row comes back to life. -/
structure Evolves (row after : CompanionJunkReview Hash) : Prop where
  id : after.id = row.id
  agentId : after.agentId = row.agentId
  originalPath : after.originalPath = row.originalPath
  sha256Hash : after.sha256Hash = row.sha256Hash
  live : after.live = true → row.live = true

variable {row after : CompanionJunkReview Hash} {target : JunkReviewStatus}

theorem live_iff : row.live = true ↔ row.status.terminal = false := by
  simp [CompanionJunkReview.live]

theorem covers_iff : row.covers = true ↔ row.reason = .duplicate ∧
    (row.status = .approved ∨ row.status = .executing ∨ row.status = .quarantined) := by
  simp [CompanionJunkReview.covers, or_assoc]

theorem Evolves.same : Evolves row row :=
  ⟨rfl, rfl, rfl, rfl, fun live => live⟩

theorem Evolves.sameIdentity {other later : CompanionJunkReview Hash} (first : Evolves row after)
    (second : Evolves other later) (same : after.SameIdentity later) : row.SameIdentity other where
  agentId := first.agentId.symm.trans (same.agentId.trans second.agentId)
  originalPath := first.originalPath.symm.trans (same.originalPath.trans second.originalPath)
  sha256Hash := first.sha256Hash.symm.trans (same.sha256Hash.trans second.sha256Hash)

theorem moved_terminal (terminal : row.status.terminal = true) : row.moved target = row := by
  simp [CompanionJunkReview.moved, allowedFrom_terminal terminal]

theorem moved_evolves (row : CompanionJunkReview Hash) (target : JunkReviewStatus) : Evolves row (row.moved target) := by
  by_cases terminal : row.status.terminal = true
  · rw [moved_terminal terminal]
    exact Evolves.same
  · unfold CompanionJunkReview.moved
    split
    · exact ⟨rfl, rfl, rfl, rfl, fun _ => live_iff.mpr (by simpa using terminal)⟩
    · exact Evolves.same

@[simp]
theorem moved_fileId : (row.moved target).fileId = row.fileId := by
  unfold CompanionJunkReview.moved
  split <;> rfl

@[simp]
theorem moved_reason : (row.moved target).reason = row.reason := by
  unfold CompanionJunkReview.moved
  split <;> rfl

/-- Only an approval makes a row cover its file. -/
theorem covers_of_moved (covers : (row.moved target).covers = true) :
    row.covers = true ∨ target = .approved ∧ row.status = .pending ∧ row.reason = .duplicate := by
  unfold CompanionJunkReview.moved at covers
  split at covers
  case isFalse => exact .inl covers
  next allowed =>
    rw [covers_iff] at covers ⊢
    obtain ⟨duplicate, status⟩ := covers
    rcases status with rfl | rfl | rfl <;> cases stands : row.status <;>
      simp_all [allowedFrom, JunkReviewStatus.transitions]

theorem filterMap_keys {α β κ : Type} {key : α → κ} {key' : β → κ} {change : α → Option β} {rows : List α}
    (same : ∀ row ∈ rows, ∀ after, change row = some after → key' after = key row) :
    ((rows.filterMap change).map key').Sublist (rows.map key) := by
  induction rows with
  | nil => exact List.Sublist.refl _
  | cons row rest ih =>
      have later := ih fun other member => same other (List.mem_cons_of_mem _ member)
      cases changed : change row with
      | none =>
          rw [List.filterMap_cons_none changed]
          exact later.cons _
      | some after =>
          rw [List.filterMap_cons_some changed, List.map_cons, List.map_cons, same row List.mem_cons_self after changed]
          exact later.cons_cons _

end Rows

section Copies

variable {Hash : Type} [DecidableEq Hash]

/-! ## The invariant -/

structure Inventory (state : State Hash) : Prop where
  ids : (state.files.map FileRecord.id).Nodup
  paths : ∀ one ∈ state.files, ∀ two ∈ state.files, one.agentId = two.agentId →
    one.originalPath = two.originalPath → one = two
  existed : state.files ⊆ state.existed
  known : ∀ one ∈ state.existed, ∀ two ∈ state.existed, one.id = two.id → one = two

structure Queue (state : State Hash) : Prop where
  ids : (state.reviews.map CompanionJunkReview.id).Nodup
  below : ∀ row ∈ state.reviews, row.id < state.nextReview
  single : ∀ one ∈ state.reviews, ∀ two ∈ state.reviews, one.live = true → two.live = true →
    one.SameIdentity two → one.id = two.id
  current : ∀ row ∈ state.reviews, row.live = true → ∃ file ∈ state.files, row.names file = true ∧ file.id = row.fileId
  existed : ∀ row ∈ state.reviews, ∃ file ∈ state.existed, row.names file = true ∧ file.id = row.fileId

def Uncovered (state : State Hash) (file : FileId) : Prop :=
  ∀ row ∈ state.reviews, row.covers = true → row.fileId ≠ file

/-- Where duplicates of a content go, a copy that existed stays. -/
def Survives (state : State Hash) : Prop :=
  ∀ row ∈ state.reviews, row.covers = true →
    ∃ file ∈ state.existed, file.agentId = row.agentId ∧ file.sha256Hash = row.sha256Hash ∧ Uncovered state file.id

instance (state : State Hash) (file : FileId) : Decidable (Uncovered state file) := by
  unfold Uncovered
  infer_instance

instance (state : State Hash) : Decidable (Survives state) := by
  unfold Survives
  infer_instance

variable {state next : State Hash}

/-! ## Rows and files -/

theorem names_iff {row : CompanionJunkReview Hash} {file : FileRecord Hash} : row.names file = true ↔
    row.agentId = file.agentId ∧ row.originalPath = file.originalPath ∧ row.sha256Hash = file.sha256Hash := by
  simp [CompanionJunkReview.names, and_assoc]

theorem Evolves.names {row after : CompanionJunkReview Hash} (evolves : Evolves row after) (file : FileRecord Hash) :
    after.names file = row.names file := by
  simp only [CompanionJunkReview.names, evolves.agentId, evolves.originalPath, evolves.sha256Hash]

theorem Queue.eq_of_id (queue : Queue state) {one two : CompanionJunkReview Hash} (here : one ∈ state.reviews)
    (there : two ∈ state.reviews) (same : one.id = two.id) : one = two :=
  List.inj_on_of_nodup_map queue.ids here there same

theorem Inventory.eq_of_names (inventory : Inventory state) {row : CompanionJunkReview Hash} {one two : FileRecord Hash}
    (here : one ∈ state.files) (there : two ∈ state.files) (first : row.names one = true)
    (second : row.names two = true) : one = two := by
  obtain ⟨agent, path, -⟩ := names_iff.mp first
  obtain ⟨agent', path', -⟩ := names_iff.mp second
  exact inventory.paths one here two there (agent.symm.trans agent') (path.symm.trans path')

/-! ## Changed rows -/

structure Changes (state : State Hash) (change : CompanionJunkReview Hash → Option (CompanionJunkReview Hash)) : Prop where
  evolves : ∀ row ∈ state.reviews, ∀ after, change row = some after → Evolves row after
  placed : ∀ row ∈ state.reviews, ∀ after, change row = some after → after.fileId = row.fileId ∨
    row.live = true ∧ ∃ file ∈ state.files, row.names file = true ∧ file.id = after.fileId

theorem Queue.changed (queue : Queue state) (inventory : Inventory state)
    {change : CompanionJunkReview Hash → Option (CompanionJunkReview Hash)} (changes : Changes state change) :
    Queue { state with reviews := state.reviews.filterMap change } where
  ids := queue.ids.sublist (filterMap_keys fun row member after changed => (changes.evolves row member after changed).id)
  below := by
    intro after member
    obtain ⟨row, here, changed⟩ := List.mem_filterMap.mp member
    rw [(changes.evolves row here after changed).id]
    exact queue.below row here
  single := by
    intro one first two second live live' same
    obtain ⟨row, here, changed⟩ := List.mem_filterMap.mp first
    obtain ⟨other, there, changed'⟩ := List.mem_filterMap.mp second
    have evolves := changes.evolves row here one changed
    have evolves' := changes.evolves other there two changed'
    rw [evolves.id, evolves'.id]
    exact queue.single row here other there (evolves.live live) (evolves'.live live') (evolves.sameIdentity evolves' same)
  current := by
    intro after member live
    obtain ⟨row, here, changed⟩ := List.mem_filterMap.mp member
    have evolves := changes.evolves row here after changed
    rcases changes.placed row here after changed with same | ⟨-, file, present, names, same⟩
    · obtain ⟨file, present, names, id⟩ := queue.current row here (evolves.live live)
      exact ⟨file, present, (evolves.names file).trans names, id.trans same.symm⟩
    · exact ⟨file, present, (evolves.names file).trans names, same⟩
  existed := by
    intro after member
    obtain ⟨row, here, changed⟩ := List.mem_filterMap.mp member
    have evolves := changes.evolves row here after changed
    rcases changes.placed row here after changed with same | ⟨-, file, present, names, same⟩
    · obtain ⟨file, present, names, id⟩ := queue.existed row here
      exact ⟨file, present, (evolves.names file).trans names, id.trans same.symm⟩
    · exact ⟨file, inventory.existed present, (evolves.names file).trans names, same⟩

-- A change that makes no row cover its file.
theorem Survives.changed (survives : Survives state)
    {change : CompanionJunkReview Hash → Option (CompanionJunkReview Hash)} (changes : Changes state change)
    (covers : ∀ row ∈ state.reviews, ∀ after, change row = some after → after.covers = true →
      row.covers = true ∧ after.fileId = row.fileId) :
    Survives { state with reviews := state.reviews.filterMap change } := by
  intro after member covered
  obtain ⟨row, here, changed⟩ := List.mem_filterMap.mp member
  have evolves := changes.evolves row here after changed
  obtain ⟨file, existed, agent, hash, free⟩ := survives row here (covers row here after changed covered).1
  refine ⟨file, existed, agent.trans evolves.agentId.symm, hash.trans evolves.sha256Hash.symm, ?_⟩
  intro other there takes
  obtain ⟨origin, original, changed'⟩ := List.mem_filterMap.mp there
  obtain ⟨before, same⟩ := covers origin original other changed' takes
  rw [same]
  exact free origin original before

/-! ## Decisions and claims -/

theorem moves_changes (state : State Hash) (selects : CompanionJunkReview Hash → Bool) (target : JunkReviewStatus) :
    Changes state (fun row => some (if selects row then row.moved target else row)) where
  evolves := by
    rintro row - after ⟨⟩
    split
    · exact moved_evolves row target
    · exact Evolves.same
  placed := by
    rintro row - after ⟨⟩
    left
    split
    · exact moved_fileId
    · rfl

theorem rejudged_cases {sha256Hash : Hash} {row after : CompanionJunkReview Hash}
    (judged : rejudged state sha256Hash row = some after) : after = row ∨
      row.status = .pending ∧ row.sha256Hash = sha256Hash ∧ ∃ reason, currentReason state row = some reason ∧
        after = { row with reason := reason } := by
  unfold rejudged at judged
  split at judged
  case isFalse => exact .inl (Option.some.inj judged).symm
  next pending =>
    simp only [Bool.and_eq_true, decide_eq_true_eq] at pending
    obtain ⟨reason, current, rfl⟩ := Option.map_eq_some_iff.mp judged
    exact .inr ⟨pending.1.2, pending.1.1, reason, current, rfl⟩

theorem rejudged_changes (state : State Hash) (sha256Hash : Hash) : Changes state (rejudged state sha256Hash) where
  evolves := by
    intro row _ after judged
    rcases rejudged_cases judged with rfl | ⟨_, _, _, _, rfl⟩
    · exact Evolves.same
    · exact ⟨rfl, rfl, rfl, rfl, fun live => live⟩
  placed := by
    intro row _ after judged
    rcases rejudged_cases judged with rfl | ⟨_, _, _, _, rfl⟩ <;> exact .inl rfl

theorem covers_of_rejudged {sha256Hash : Hash} {row after : CompanionJunkReview Hash}
    (judged : rejudged state sha256Hash row = some after) (covers : after.covers = true) :
    row.covers = true ∧ after.fileId = row.fileId := by
  rcases rejudged_cases judged with rfl | ⟨pending, _, _, _, rfl⟩
  · exact ⟨covers, rfl⟩
  · simp [covers_iff, pending] at covers

-- After the second look, a pending duplicate of the content is one by the links there are.
theorem rejudged_duplicate {sha256Hash : Hash} {row after : CompanionJunkReview Hash}
    (judged : rejudged state sha256Hash row = some after) (hash : after.sha256Hash = sha256Hash)
    (pending : after.status = .pending) (duplicate : after.reason = .duplicate) :
    after = row ∧ currentReason state row = some .duplicate := by
  unfold rejudged at judged
  split at judged
  case isFalse other =>
    cases judged
    exact absurd (by simp [hash, pending, duplicate]) other
  next before =>
    simp only [Bool.and_eq_true, decide_eq_true_eq] at before
    obtain ⟨reason, current, rfl⟩ := Option.map_eq_some_iff.mp judged
    obtain rfl : reason = .duplicate := duplicate
    refine ⟨?_, current⟩
    rw [← before.2]

/-! ## Detector passes -/

theorem mem_candidates {agentId : Text} {stamps : Stamps Hash} {file : FileRecord Hash} {reason : JunkReviewReason}
    (member : (file, reason) ∈ candidates state agentId stamps) :
    file ∈ state.files ∧ file.agentId = agentId ∧ candidateReason state stamps file = some reason := by
  obtain ⟨other, present, named⟩ := List.mem_filterMap.mp member
  obtain ⟨given, judged, pair⟩ := Option.map_eq_some_iff.mp named
  cases pair
  rw [List.mem_filter, decide_eq_true_eq] at present
  exact ⟨present.1, present.2, judged⟩

theorem refreshed_cases {agentId : Text} {stamps : Stamps Hash} {row after : CompanionJunkReview Hash}
    (changed : refreshed state agentId stamps row = some after) : after = row ∨
      row.status = .pending ∧ ∃ file reason, (file, reason) ∈ candidates state agentId stamps ∧
        row.names file = true ∧ after = { row with fileId := file.id, reason := reason } := by
  unfold refreshed at changed
  split at changed
  case isFalse => exact .inl (Option.some.inj changed).symm
  next pending =>
    simp only [Bool.and_eq_true, decide_eq_true_eq] at pending
    obtain ⟨⟨file, reason⟩, found, rfl⟩ := Option.map_eq_some_iff.mp changed
    exact .inr ⟨pending.1.2, file, reason, List.mem_of_find?_eq_some found, by simpa using List.find?_some found, rfl⟩

theorem refreshed_changes (state : State Hash) (agentId : Text) (stamps : Stamps Hash) :
    Changes state (refreshed state agentId stamps) where
  evolves := by
    intro row _ after changed
    rcases refreshed_cases changed with rfl | ⟨_, _, _, _, _, rfl⟩
    · exact Evolves.same
    · exact ⟨rfl, rfl, rfl, rfl, fun live => live⟩
  placed := by
    intro row _ after changed
    rcases refreshed_cases changed with rfl | ⟨pending, file, reason, member, names, rfl⟩
    · exact .inl rfl
    · exact .inr ⟨live_iff.mpr (by rw [pending]; rfl), file, (mem_candidates member).1, names, rfl⟩

theorem covers_of_refreshed {agentId : Text} {stamps : Stamps Hash} {row after : CompanionJunkReview Hash}
    (changed : refreshed state agentId stamps row = some after) (covers : after.covers = true) :
    row.covers = true ∧ after.fileId = row.fileId := by
  rcases refreshed_cases changed with rfl | ⟨pending, _, _, _, _, rfl⟩
  · exact ⟨covers, rfl⟩
  · simp [covers_iff, pending] at covers

end Copies

end Phaze.Quarantine.Detector
