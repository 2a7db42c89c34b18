import Phaze.Quarantine.Copies

set_option autoImplicit false

/-!
# What a run of the review queue keeps
-/

namespace Phaze.Quarantine.Detector

open Shared

section Survival

variable {Hash : Type} [DecidableEq Hash] {state next : State Hash}

structure Kept (state : State Hash) : Prop where
  inventory : Inventory state
  queue : Queue state

/-! ## New rows -/

theorem inserted_cases {agentId : Text} {stamps : Stamps Hash} {row : CompanionJunkReview Hash}
    (member : row ∈ inserted state agentId stamps) :
    ∃ file reason position, (unlisted state agentId stamps)[position]? = some (file, reason) ∧
      row = pendingRow (state.nextReview + position) file reason := by
  obtain ⟨⟨⟨file, reason⟩, position⟩, listed, rfl⟩ := List.mem_map.mp member
  exact ⟨file, reason, position, List.mem_zipIdx_iff_getElem?.mp listed, rfl⟩

theorem unlisted_cases {agentId : Text} {stamps : Stamps Hash} {file : FileRecord Hash} {reason : JunkReviewReason}
    (member : (file, reason) ∈ unlisted state agentId stamps) :
    (file, reason) ∈ candidates state agentId stamps ∧
      ∀ row ∈ state.reviews, row.names file = true → row.live = false := by
  obtain ⟨candidate, free⟩ := List.mem_filter.mp member
  refine ⟨candidate, fun row present names => ?_⟩
  by_contra live
  have listed : (state.reviews.any fun row => row.names file && row.live) = true :=
    List.any_eq_true.mpr ⟨row, present, by simp [names, live]⟩
  simp [listed] at free

theorem inserted_ids (state : State Hash) (agentId : Text) (stamps : Stamps Hash) :
    (inserted state agentId stamps).map CompanionJunkReview.id =
      List.range' state.nextReview (inserted state agentId stamps).length := by
  rw [inserted, List.map_map, List.length_map, List.length_zipIdx]
  have shifted : ((unlisted state agentId stamps).zipIdx.map Prod.snd).map (state.nextReview + ·) =
      List.range' state.nextReview (unlisted state agentId stamps).length := by
    rw [List.zipIdx_map_snd, List.map_add_range']
    simp
  rw [← shifted, List.map_map]
  rfl

theorem unlisted_files (inventory : Inventory state) (agentId : Text) (stamps : Stamps Hash) :
    ((unlisted state agentId stamps).map fun candidate => candidate.1.id).Nodup := by
  have files : ((candidates state agentId stamps).map fun candidate => candidate.1.id).Sublist
      ((state.files.filter (·.agentId = agentId)).map FileRecord.id) := by
    refine filterMap_keys fun file _ candidate named => ?_
    obtain ⟨reason, -, rfl⟩ := Option.map_eq_some_iff.mp named
    rfl
  exact inventory.ids.sublist ((List.filter_sublist.map _).trans (files.trans (List.filter_sublist.map _)))

theorem inserted_single (inventory : Inventory state) {agentId : Text} {stamps : Stamps Hash}
    {one two : CompanionJunkReview Hash} (first : one ∈ inserted state agentId stamps)
    (second : two ∈ inserted state agentId stamps) (same : one.SameIdentity two) : one.id = two.id := by
  obtain ⟨file, reason, position, here, rfl⟩ := inserted_cases first
  obtain ⟨other, reason', position', there, rfl⟩ := inserted_cases second
  have present := (mem_candidates (unlisted_cases (List.mem_of_getElem? here)).1).1
  have present' := (mem_candidates (unlisted_cases (List.mem_of_getElem? there)).1).1
  obtain rfl : file = other := inventory.paths file present other present' same.agentId same.originalPath
  obtain ⟨inside, _⟩ := List.getElem?_eq_some_iff.mp here
  have places : position = position' :=
    (List.getElem?_inj (by simpa using inside) (unlisted_files inventory agentId stamps)).mp (by simp [here, there])
  simp [pendingRow, places]

theorem Queue.detected (queue : Queue state) (inventory : Inventory state) (agentId : Text) (stamps : Stamps Hash) :
    Queue (detectJunkReviews state agentId stamps) := by
  have kept := queue.changed inventory (refreshed_changes state agentId stamps)
  have ids := inserted_ids state agentId stamps
  have newer : ∀ row ∈ inserted state agentId stamps,
      state.nextReview ≤ row.id ∧ row.id < state.nextReview + (inserted state agentId stamps).length := by
    intro row member
    have listed : row.id ∈ (inserted state agentId stamps).map CompanionJunkReview.id :=
      List.mem_map.mpr ⟨row, member, rfl⟩
    rw [ids, List.mem_range'_1] at listed
    exact listed
  have unknown : ∀ row ∈ state.reviews.filterMap (refreshed state agentId stamps), ∀ new ∈ inserted state agentId stamps,
      row.live = true → ¬ row.SameIdentity new := by
    intro row member new created live same
    obtain ⟨origin, here, changed⟩ := List.mem_filterMap.mp member
    obtain ⟨file, reason, position, listed, rfl⟩ := inserted_cases created
    have evolves := (refreshed_changes state agentId stamps).evolves origin here row changed
    have names : origin.names file = true := by
      rw [← evolves.names file, names_iff]
      exact ⟨same.agentId, same.originalPath, same.sha256Hash⟩
    have dead := (unlisted_cases (List.mem_of_getElem? listed)).2 origin here names
    exact absurd (dead.symm.trans (evolves.live live)) (by simp)
  exact
    { ids := by
        have apart : ((inserted state agentId stamps).map CompanionJunkReview.id).Nodup := ids ▸ List.nodup_range'
        rw [show (detectJunkReviews state agentId stamps).reviews =
          state.reviews.filterMap (refreshed state agentId stamps) ++ inserted state agentId stamps from rfl,
          List.map_append, List.nodup_append]
        refine ⟨kept.ids, apart, ?_⟩
        intro id old other new same
        obtain ⟨row, member, rfl⟩ := List.mem_map.mp old
        obtain ⟨created, member', rfl⟩ := List.mem_map.mp new
        have low : row.id < state.nextReview := kept.below row member
        have high := (newer created member').1
        exact absurd (same ▸ high) (Nat.not_le_of_lt low)
      below := by
        intro row member
        rcases List.mem_append.mp member with old | new
        · have low := kept.below row old
          exact Nat.lt_of_lt_of_le low (Nat.le_add_right ..)
        · exact (newer row new).2
      single := by
        intro one first two second live live' same
        rcases List.mem_append.mp first with old | new <;> rcases List.mem_append.mp second with old' | new'
        · exact kept.single one old two old' live live' same
        · exact absurd same (unknown one old two new' live)
        · exact absurd ⟨same.agentId.symm, same.originalPath.symm, same.sha256Hash.symm⟩ (unknown two old' one new live')
        · exact inserted_single inventory new new' same
      current := by
        intro row member live
        rcases List.mem_append.mp member with old | new
        · exact kept.current row old live
        · obtain ⟨file, reason, position, listed, rfl⟩ := inserted_cases new
          exact ⟨file, (mem_candidates (unlisted_cases (List.mem_of_getElem? listed)).1).1,
            names_iff.mpr ⟨rfl, rfl, rfl⟩, rfl⟩
      existed := by
        intro row member
        rcases List.mem_append.mp member with old | new
        · exact kept.existed row old
        · obtain ⟨file, reason, position, listed, rfl⟩ := inserted_cases new
          exact ⟨file, inventory.existed (mem_candidates (unlisted_cases (List.mem_of_getElem? listed)).1).1,
            names_iff.mpr ⟨rfl, rfl, rfl⟩, rfl⟩ }

theorem Survives.detected (survives : Survives state) (agentId : Text) (stamps : Stamps Hash) :
    Survives (detectJunkReviews state agentId stamps) := by
  have kept := survives.changed (refreshed_changes state agentId stamps) fun row _ after changed covers =>
    covers_of_refreshed changed covers
  have pending : ∀ row ∈ inserted state agentId stamps, row.covers = false := by
    intro row member
    obtain ⟨file, reason, position, -, rfl⟩ := inserted_cases member
    simp [CompanionJunkReview.covers, pendingRow]
  intro row member covers
  rcases List.mem_append.mp member with old | new
  · obtain ⟨file, existed, agent, hash, free⟩ := kept row old covers
    refine ⟨file, existed, agent, hash, fun other there takes => ?_⟩
    rcases List.mem_append.mp there with old' | new'
    · exact free other old' takes
    · exact absurd ((pending other new').symm.trans takes) (by simp)
  · exact absurd ((pending row new).symm.trans covers) (by simp)

/-! ## Approvals -/

-- A linked copy of the content of the row that no duplicate is about to take.
def spare (state : State Hash) (row : CompanionJunkReview Hash) (file : FileRecord Hash) : Bool :=
  file.agentId = row.agentId && file.sha256Hash = row.sha256Hash && state.fresh file && state.linked file.id &&
    file.id ≠ row.fileId && !state.reviews.any fun other => other.covers && other.fileId = file.id

theorem spare_iff {row : CompanionJunkReview Hash} {file : FileRecord Hash} : spare state row file = true ↔
    file.agentId = row.agentId ∧ file.sha256Hash = row.sha256Hash ∧ state.fresh file = true ∧
      state.linked file.id = true ∧ file.id ≠ row.fileId ∧ Uncovered state file.id := by
  simp only [spare, Bool.and_eq_true, decide_eq_true_eq, Bool.not_eq_true', List.any_eq_false, Uncovered, ne_eq,
    and_assoc, not_and]

-- The rows that the action approves as duplicates.
def approves (state : State Hash) : Action Hash → CompanionJunkReview Hash → Bool
  | .decide sha256Hash .approved, row =>
      row.sha256Hash = sha256Hash && row.status = .pending && row.reason = .duplicate &&
        currentReason state row = some .duplicate
  | .transition review .approved, row => row.id = review && row.status = .pending && row.reason = .duplicate
  | _, _ => false

/-- A duplicate is approved only by a linked copy that stays. -/
def admitted (state : State Hash) (action : Action Hash) : Prop :=
  ∀ row ∈ state.reviews, approves state action row = true → ∃ file ∈ state.files, spare state row file = true

instance (state : State Hash) (action : Action Hash) : Decidable (admitted state action) := by
  unfold admitted
  infer_instance

def movedRows (state : State Hash) (selects : CompanionJunkReview Hash → Bool) (target : JunkReviewStatus) : State Hash :=
  { state with reviews := state.reviews.map fun row => if selects row then row.moved target else row }

omit [DecidableEq Hash] in
theorem movedRows_changes (state : State Hash) (selects : CompanionJunkReview Hash → Bool) (target : JunkReviewStatus) :
    movedRows state selects target =
      { state with reviews := state.reviews.filterMap fun row => some (if selects row then row.moved target else row) } := by
  simp [movedRows]

theorem Queue.moved (queue : Queue state) (inventory : Inventory state) (selects : CompanionJunkReview Hash → Bool)
    (target : JunkReviewStatus) : Queue (movedRows state selects target) := by
  rw [movedRows_changes]
  exact queue.changed inventory (moves_changes state selects target)

structure Taken (selects : CompanionJunkReview Hash → Bool) (target : JunkReviewStatus) (row : CompanionJunkReview Hash) :
    Prop where
  approved : target = .approved
  selected : selects row = true
  pending : row.status = .pending
  duplicate : row.reason = .duplicate

omit [DecidableEq Hash] in
theorem covers_of_selected {selects : CompanionJunkReview Hash → Bool} {target : JunkReviewStatus}
    {row : CompanionJunkReview Hash} (covers : (if selects row then row.moved target else row).covers = true) :
    row.covers = true ∨ Taken selects target row := by
  split at covers
  next selected => exact (covers_of_moved covers).imp_right fun new => ⟨new.1, selected, new.2.1, new.2.2⟩
  · exact .inl covers

theorem Survives.moved (survives : Survives state) (inventory : Inventory state) (queue : Queue state)
    {selects : CompanionJunkReview Hash → Bool} {target : JunkReviewStatus}
    (kept : ∀ row ∈ state.reviews, Taken selects target row → ∃ file ∈ state.files, file.agentId = row.agentId ∧
      file.sha256Hash = row.sha256Hash ∧ Uncovered state file.id ∧
        ∀ other ∈ state.reviews, Taken selects target other → other.fileId ≠ file.id) :
    Survives (movedRows state selects target) := by
  intro after member covers
  obtain ⟨row, here, rfl⟩ := List.mem_map.mp member
  have identity : (if selects row then row.moved target else row).agentId = row.agentId ∧
      (if selects row then row.moved target else row).sha256Hash = row.sha256Hash := by
    have evolves := (moves_changes state selects target).evolves row here _ rfl
    exact ⟨evolves.agentId, evolves.sha256Hash⟩
  rw [identity.1, identity.2]
  by_cases new : ∃ other ∈ state.reviews, Taken selects target other ∧ other.agentId = row.agentId ∧
      other.sha256Hash = row.sha256Hash
  · -- The copy by which this row was approved, or another one of its content with it.
    obtain ⟨other, there, taken, agent, hash⟩ := new
    obtain ⟨file, present, owner, content, free, apart⟩ := kept other there taken
    refine ⟨file, inventory.existed present, owner.trans agent, content.trans hash, ?_⟩
    intro later listed takes
    obtain ⟨origin, original, rfl⟩ := List.mem_map.mp listed
    have same : (if selects origin then origin.moved target else origin).fileId = origin.fileId := by
      split
      · exact moved_fileId
      · rfl
    rw [same]
    rcases covers_of_selected takes with before | taken'
    · exact free origin original before
    · exact apart origin original taken'
  · have before : row.covers = true := by
      rcases covers_of_selected covers with before | taken
      · exact before
      · exact absurd ⟨row, here, taken, rfl, rfl⟩ new
    obtain ⟨file, existed, owner, content, free⟩ := survives row here before
    refine ⟨file, existed, owner, content, ?_⟩
    intro later listed takes
    obtain ⟨origin, original, rfl⟩ := List.mem_map.mp listed
    have same : (if selects origin then origin.moved target else origin).fileId = origin.fileId := by
      split
      · exact moved_fileId
      · rfl
    rw [same]
    rcases covers_of_selected takes with before | taken
    · exact free origin original before
    · intro mine
      obtain ⟨other, known, names, id⟩ := queue.existed origin original
      obtain rfl := inventory.known other known file existed (id.trans mine)
      obtain ⟨agent, -, hash⟩ := names_iff.mp names
      exact new ⟨origin, original, taken, agent.trans owner, hash.trans content⟩

-- A duplicate that the second look confirms is not linked itself.
theorem unlinked_of_current {row : CompanionJunkReview Hash} {file : FileRecord Hash} (inventory : Inventory state)
    (present : file ∈ state.files) (names : row.names file = true)
    (current : currentReason state row = some .duplicate) : state.linked file.id = false := by
  obtain ⟨other, found, judged⟩ := Option.bind_eq_some_iff.mp current
  have member := List.mem_of_find?_eq_some found
  have named := List.find?_some found
  rw [Bool.and_eq_true] at named
  obtain rfl := inventory.eq_of_names present member names named.1
  unfold State.reason at judged
  split at judged
  case h_2 => cases judged
  next features stored =>
    split at judged
    case isTrue => cases judged
    next proposed =>
      split at judged
      next duplicate =>
        split at judged
        · cases judged
        next free => simpa using free
      next other => exact absurd judged other

/-! ## Steps -/

theorem Queue.rejudged (queue : Queue state) (inventory : Inventory state) (sha256Hash : Hash) :
    Queue (rejudgePendingDuplicates state sha256Hash) :=
  queue.changed inventory (rejudged_changes state sha256Hash)

theorem Survives.rejudged (survives : Survives state) (sha256Hash : Hash) :
    Survives (rejudgePendingDuplicates state sha256Hash) :=
  survives.changed (rejudged_changes state sha256Hash) fun _ _ _ judged covers => covers_of_rejudged judged covers

theorem decide_cases {sha256Hash : Hash} {target : JunkReviewStatus}
    (stepped : decideContentGroup state sha256Hash target = some next) :
    target = .approved ∧
        next = movedRows (rejudgePendingDuplicates state sha256Hash) (fun row => row.sha256Hash = sha256Hash) .approved ∨
      target ≠ .approved ∧ next = movedRows state (fun row => row.sha256Hash = sha256Hash) target := by
  unfold decideContentGroup at stepped
  split at stepped
  case isFalse => cases stepped
  next decision =>
    cases stepped
    by_cases approved : target = .approved
    · subst approved
      exact .inl ⟨rfl, by simp [movedRows]⟩
    · exact .inr ⟨approved, by simp [movedRows, approved]⟩

theorem report_cases {agentId : Text} {review : ReviewId} {outcome : Outcome}
    (stepped : recordQuarantineResult state agentId review outcome = some next) : next = state ∨
      (∃ row ∈ state.reviews, row.id = review ∧ row.status = .executing ∧
        (next = transitionReview state review .failed ∨
          next = { transitionReview state review .quarantined with
            files := state.files.filter fun file => !row.names file })) := by
  unfold recordQuarantineResult at stepped
  split at stepped
  case h_1 => cases stepped
  next row found =>
    have present := List.mem_of_find?_eq_some found
    have named := List.find?_some found
    simp only [Bool.and_eq_true, decide_eq_true_eq] at named
    split at stepped
    case isFalse =>
      cases stepped
      exact .inl rfl
    next executing =>
      cases outcome <;> cases stepped
      · exact .inr ⟨row, present, named.1, executing, .inr rfl⟩
      · exact .inr ⟨row, present, named.1, executing, .inl rfl⟩

omit [DecidableEq Hash] in
theorem transitionReview_eq (state : State Hash) (review : ReviewId) (target : JunkReviewStatus) :
    transitionReview state review target = movedRows state (fun row => row.id = review) target := by
  simp [transitionReview, movedRows]

omit [DecidableEq Hash] in
theorem claimApproved_eq (state : State Hash) (reviews : List ReviewId) :
    claimApproved state reviews = movedRows state (fun row => row.id ∈ reviews) .executing := by
  simp [claimApproved, movedRows]

theorem Inventory.retired (inventory : Inventory state) (row : CompanionJunkReview Hash) :
    Inventory { state with files := state.files.filter fun file => !row.names file } where
  ids := inventory.ids.sublist (List.filter_sublist.map _)
  paths := fun one here two there => inventory.paths one (List.mem_of_mem_filter here) two (List.mem_of_mem_filter there)
  existed := fun _ member => inventory.existed (List.mem_of_mem_filter member)
  known := inventory.known

-- Every other live row keeps its file: one identity has one live row.
theorem Queue.retired (queue : Queue state) (inventory : Inventory state) {row : CompanionJunkReview Hash}
    (present : row ∈ state.reviews) (executing : row.status = .executing) :
    Queue { movedRows state (fun other => other.id = row.id) .quarantined with
      files := state.files.filter fun file => !row.names file } := by
  have moved := queue.moved inventory (fun other => other.id = row.id) .quarantined
  refine { moved with current := ?_ }
  intro after member live
  obtain ⟨origin, here, rfl⟩ := List.mem_map.mp member
  have evolves := (moves_changes state (fun other => other.id = row.id) .quarantined).evolves origin here _ rfl
  obtain ⟨file, listed, names, id⟩ := moved.current _ member live
  refine ⟨file, List.mem_filter.mpr ⟨listed, ?_⟩, names, id⟩
  by_contra kept
  have mine : row.names file = true := by simpa using kept
  obtain ⟨agent, path, hash⟩ := names_iff.mp mine
  obtain ⟨agent', path', hash'⟩ := names_iff.mp ((evolves.names file).symm.trans names)
  have alive : row.live = true := live_iff.mpr (by rw [executing]; rfl)
  have same : origin.id = row.id := queue.single origin here row present (evolves.live live) alive
    ⟨agent'.trans agent.symm, path'.trans path.symm, hash'.trans hash.symm⟩
  obtain rfl := queue.eq_of_id here present same
  simp [CompanionJunkReview.moved, executing, allowedFrom, JunkReviewStatus.transitions, CompanionJunkReview.live,
    JunkReviewStatus.terminal] at live

theorem Kept.scanned (kept : Kept state) {file : FileRecord Hash} (stepped : scanFile state file = some next) :
    Kept next := by
  unfold scanFile at stepped
  split at stepped
  case isTrue => cases stepped
  next free =>
    cases stepped
    simp only [Bool.or_eq_true, List.any_eq_true, decide_eq_true_eq, Bool.and_eq_true, not_or, not_exists, not_and] at free
    obtain ⟨fresh, alone⟩ := free
    exact
      { inventory :=
          { ids := by
              rw [List.map_cons, List.nodup_cons]
              refine ⟨fun listed => ?_, kept.inventory.ids⟩
              obtain ⟨other, present, same⟩ := List.mem_map.mp listed
              exact fresh other (kept.inventory.existed present) same
            paths := by
              intro one first two second agent path
              rcases List.mem_cons.mp first with rfl | here <;> rcases List.mem_cons.mp second with rfl | there
              · rfl
              · exact absurd path.symm (alone two there agent.symm)
              · exact absurd path (alone one here agent)
              · exact kept.inventory.paths one here two there agent path
            existed := List.cons_subset_cons _ kept.inventory.existed
            known := by
              intro one first two second same
              rcases List.mem_cons.mp first with rfl | here <;> rcases List.mem_cons.mp second with rfl | there
              · rfl
              · exact absurd same.symm (fresh two there)
              · exact absurd same (fresh one here)
              · exact kept.inventory.known one here two there same }
        queue :=
          { kept.queue with
            current := by
              intro row member live
              obtain ⟨other, present, named⟩ := kept.queue.current row member live
              exact ⟨other, List.mem_cons_of_mem _ present, named⟩
            existed := by
              intro row member
              obtain ⟨other, present, named⟩ := kept.queue.existed row member
              exact ⟨other, List.mem_cons_of_mem _ present, named⟩ } }

theorem step_kept {action : Action Hash} (kept : Kept state) (stepped : step state action = some next) : Kept next := by
  cases action with
  | detect agentId stamps =>
      cases stepped
      exact ⟨{ kept.inventory with }, kept.queue.detected kept.inventory agentId stamps⟩
  | decide sha256Hash target =>
      rcases decide_cases stepped with ⟨-, rfl⟩ | ⟨-, rfl⟩
      · have judged := kept.queue.rejudged kept.inventory sha256Hash
        have inventory : Inventory (rejudgePendingDuplicates state sha256Hash) := { kept.inventory with }
        exact ⟨{ kept.inventory with }, judged.moved inventory _ _⟩
      · exact ⟨{ kept.inventory with }, kept.queue.moved kept.inventory _ _⟩
  | transition review target =>
      cases stepped
      rw [transitionReview_eq]
      exact ⟨{ kept.inventory with }, kept.queue.moved kept.inventory _ _⟩
  | claim reviews =>
      cases stepped
      rw [claimApproved_eq]
      exact ⟨{ kept.inventory with }, kept.queue.moved kept.inventory _ _⟩
  | report agentId review outcome =>
      rcases report_cases stepped with rfl | ⟨row, present, rfl, executing, rfl | rfl⟩
      · exact kept
      · rw [transitionReview_eq]
        exact ⟨{ kept.inventory with }, kept.queue.moved kept.inventory _ _⟩
      · rw [transitionReview_eq]
        exact ⟨{ kept.inventory.retired row with }, kept.queue.retired kept.inventory present executing⟩
  | relink | store | media | mark =>
      cases stepped
      exact ⟨{ kept.inventory with }, { kept.queue with }⟩
  | scan => exact kept.scanned stepped

-- Each row that is taken is one that the second look has confirmed.
theorem taken_of_rejudged {sha256Hash : Hash} {row : CompanionJunkReview Hash}
    (member : row ∈ (rejudgePendingDuplicates state sha256Hash).reviews)
    (taken : Taken (fun row => row.sha256Hash = sha256Hash) .approved row) :
    row ∈ state.reviews ∧ currentReason state row = some .duplicate ∧
      approves state (.decide sha256Hash .approved) row = true := by
  obtain ⟨before, here, changed⟩ := List.mem_filterMap.mp member
  have hash : row.sha256Hash = sha256Hash := by simpa using taken.selected
  obtain ⟨rfl, current⟩ := rejudged_duplicate changed hash taken.pending taken.duplicate
  refine ⟨here, current, ?_⟩
  simp [approves, hash, taken.pending, taken.duplicate, current]

theorem Uncovered.rejudged {file : FileId} (free : Uncovered state file) (sha256Hash : Hash) :
    Uncovered (rejudgePendingDuplicates state sha256Hash) file := by
  intro after member covers
  obtain ⟨row, here, changed⟩ := List.mem_filterMap.mp member
  obtain ⟨before, same⟩ := covers_of_rejudged changed covers
  rw [same]
  exact free row here before

theorem Survives.decided (survives : Survives state) (kept : Kept state) {sha256Hash : Hash} {target : JunkReviewStatus}
    (admits : admitted state (.decide sha256Hash target))
    (stepped : decideContentGroup state sha256Hash target = some next) : Survives next := by
  rcases decide_cases stepped with ⟨rfl, rfl⟩ | ⟨other, rfl⟩
  · have inventory : Inventory (rejudgePendingDuplicates state sha256Hash) := { kept.inventory with }
    refine (survives.rejudged sha256Hash).moved inventory (kept.queue.rejudged kept.inventory sha256Hash) ?_
    intro row member taken
    obtain ⟨here, -, approved⟩ := taken_of_rejudged member taken
    obtain ⟨file, present, spares⟩ := admits row here approved
    obtain ⟨agent, hash, -, linked, -, free⟩ := spare_iff.mp spares
    refine ⟨file, present, agent, hash, free.rejudged sha256Hash, ?_⟩
    intro other member' taken' same
    obtain ⟨there, current, -⟩ := taken_of_rejudged member' taken'
    obtain ⟨mine, listed, names, id⟩ := kept.queue.current other there (live_iff.mpr (by rw [taken'.pending]; rfl))
    have unlinked := unlinked_of_current kept.inventory listed names current
    rw [id, same, linked] at unlinked
    cases unlinked
  · exact survives.moved kept.inventory kept.queue fun row _ taken => absurd taken.approved other

theorem Survives.transitioned (survives : Survives state) (kept : Kept state) {review : ReviewId}
    {target : JunkReviewStatus} (admits : admitted state (.transition review target)) :
    Survives (transitionReview state review target) := by
  rw [transitionReview_eq]
  refine survives.moved kept.inventory kept.queue ?_
  intro row here taken
  obtain rfl := taken.approved
  have mine : row.id = review := by simpa using taken.selected
  obtain ⟨file, present, spares⟩ := admits row here (by simp [approves, mine, taken.pending, taken.duplicate])
  obtain ⟨agent, hash, -, -, apart, free⟩ := spare_iff.mp spares
  refine ⟨file, present, agent, hash, free, ?_⟩
  intro other there taken' same
  have theirs : other.id = review := by simpa using taken'.selected
  obtain rfl := kept.queue.eq_of_id there here (theirs.trans mine.symm)
  exact apart same.symm

theorem step_survives {action : Action Hash} (survives : Survives state) (kept : Kept state)
    (admits : admitted state action) (stepped : step state action = some next) : Survives next := by
  cases action with
  | detect agentId stamps =>
      cases stepped
      exact survives.detected agentId stamps
  | decide => exact survives.decided kept admits stepped
  | transition =>
      cases stepped
      exact survives.transitioned kept admits
  | claim reviews =>
      cases stepped
      rw [claimApproved_eq]
      exact survives.moved kept.inventory kept.queue fun _ _ taken => nomatch taken.approved
  | report agentId review outcome =>
      rcases report_cases stepped with rfl | ⟨row, -, -, -, rfl | rfl⟩
      · exact survives
      · rw [transitionReview_eq]
        exact survives.moved kept.inventory kept.queue fun _ _ taken => nomatch taken.approved
      · rw [transitionReview_eq]
        exact survives.moved kept.inventory kept.queue fun _ _ taken => nomatch taken.approved
  | relink | store | media | mark =>
      cases stepped
      exact survives
  | scan file =>
      simp only [step, scanFile] at stepped
      split at stepped <;> cases stepped
      intro row member covers
      obtain ⟨other, existed, rest⟩ := survives row member covers
      exact ⟨other, List.mem_cons_of_mem _ existed, rest⟩

end Survival

end Phaze.Quarantine.Detector
