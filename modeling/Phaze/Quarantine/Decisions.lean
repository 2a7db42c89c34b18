import Phaze.Quarantine.Survival

set_option autoImplicit false

/-!
# The decisions hold

Terminal rows stay, a rejected content stays rejected until it is taken back, and a copy of it survives.
-/

namespace Phaze.Quarantine.Detector

open Shared

section Decisions

variable {Hash : Type} [DecidableEq Hash] {state next : State Hash}

/-! ## Terminal rows -/

omit [DecidableEq Hash] in
theorem movedRows_terminal {selects : CompanionJunkReview Hash → Bool} {target : JunkReviewStatus}
    {row : CompanionJunkReview Hash} (present : row ∈ state.reviews) (terminal : row.status.terminal = true) :
    row ∈ (movedRows state selects target).reviews :=
  List.mem_map.mpr ⟨row, present, by rw [moved_terminal terminal, ite_self]⟩

omit [DecidableEq Hash] in
theorem pending_of_terminal {row : CompanionJunkReview Hash} (terminal : row.status.terminal = true) :
    row.status ≠ .pending := by
  intro pending
  rw [pending] at terminal
  cases terminal

theorem step_terminal {action : Action Hash} {row : CompanionJunkReview Hash} (present : row ∈ state.reviews)
    (terminal : row.status.terminal = true) (stepped : step state action = some next) : row ∈ next.reviews := by
  have decided := pending_of_terminal terminal
  cases action with
  | detect agentId stamps =>
      cases stepped
      exact List.mem_append_left _ (List.mem_filterMap.mpr ⟨row, present, by simp [refreshed, decided]⟩)
  | decide sha256Hash target =>
      rcases decide_cases stepped with ⟨-, rfl⟩ | ⟨-, rfl⟩
      · exact movedRows_terminal (List.mem_filterMap.mpr ⟨row, present, by simp [rejudged, decided]⟩) terminal
      · exact movedRows_terminal present terminal
  | transition =>
      cases stepped
      rw [transitionReview_eq]
      exact movedRows_terminal present terminal
  | claim =>
      cases stepped
      rw [claimApproved_eq]
      exact movedRows_terminal present terminal
  | report agentId review outcome =>
      rcases report_cases stepped with rfl | ⟨_, -, -, -, rfl | rfl⟩
      · exact present
      · rw [transitionReview_eq]
        exact movedRows_terminal present terminal
      · rw [transitionReview_eq]
        exact movedRows_terminal present terminal
  | relink | store | media | mark =>
      cases stepped
      exact present
  | scan file =>
      simp only [step, scanFile] at stepped
      split at stepped <;> cases stepped
      exact present

/-! ## Rejections -/

-- The operator's undo of a content, or of one row of it.
def undoes (sha256Hash : Hash) (state : State Hash) : Action Hash → Bool
  | .decide content .pending => content = sha256Hash
  | .transition review .pending => state.reviews.any fun row => row.id = review && row.sha256Hash = sha256Hash
  | _ => false

/-- No row of the content waits for a decision or a dispatch; the executing ones are among `sent`. -/
structure Closed (state : State Hash) (sha256Hash : Hash) (sent : ReviewId → Prop) : Prop where
  rejected : ∃ row ∈ state.reviews, row.sha256Hash = sha256Hash ∧ row.status = .rejected
  rows : ∀ row ∈ state.reviews, row.sha256Hash = sha256Hash →
    row.status ≠ .pending ∧ row.status ≠ .approved ∧ (row.status = .executing → sent row.id)

variable {sha256Hash : Hash} {sent : ReviewId → Prop}

theorem Closed.moved (closed : Closed state sha256Hash sent) {selects : CompanionJunkReview Hash → Bool}
    {target : JunkReviewStatus}
    (decided : target = .pending → ∀ row ∈ state.reviews, selects row = true → row.sha256Hash ≠ sha256Hash) :
    Closed (movedRows state selects target) sha256Hash sent := by
  obtain ⟨row, present, hash, rejected⟩ := closed.rejected
  have kept : (if selects row then row.moved target else row) = row := by
    split
    next selected =>
      have other : target ≠ .pending := fun pending => decided pending row present selected hash
      cases target <;> simp_all [CompanionJunkReview.moved, allowedFrom, JunkReviewStatus.transitions]
    · rfl
  refine ⟨⟨row, List.mem_map.mpr ⟨row, present, kept⟩, hash, rejected⟩, ?_⟩
  intro after member content
  obtain ⟨before, here, rfl⟩ := List.mem_map.mp member
  have evolves := (moves_changes state selects target).evolves before here _ rfl
  obtain ⟨unpending, unapproved, executing⟩ := closed.rows before here (evolves.sha256Hash.symm.trans content)
  split
  next selected =>
    have other : target ≠ .pending := fun pending =>
      decided pending before here selected (evolves.sha256Hash.symm.trans content)
    unfold CompanionJunkReview.moved
    split
    next allowed =>
      cases stands : before.status <;> cases target <;>
        simp_all [allowedFrom, JunkReviewStatus.transitions]
    · exact ⟨unpending, unapproved, executing⟩
  · exact ⟨unpending, unapproved, executing⟩

-- A change of pending rows leaves the content alone.
theorem Closed.changed (closed : Closed state sha256Hash sent)
    {change : CompanionJunkReview Hash → Option (CompanionJunkReview Hash)} (changes : Changes state change)
    (pending : ∀ row ∈ state.reviews, row.status ≠ .pending → change row = some row) :
    Closed { state with reviews := state.reviews.filterMap change } sha256Hash sent := by
  obtain ⟨row, present, hash, rejected⟩ := closed.rejected
  have decided : row.status ≠ .pending := by
    rw [rejected]
    nofun
  refine ⟨⟨row, List.mem_filterMap.mpr ⟨row, present, pending row present decided⟩, hash, rejected⟩, ?_⟩
  intro after member content
  obtain ⟨before, here, changed⟩ := List.mem_filterMap.mp member
  have facts := closed.rows before here ((changes.evolves before here after changed).sha256Hash.symm.trans content)
  rw [pending before here facts.1] at changed
  cases changed
  exact facts

theorem Closed.detected (closed : Closed state sha256Hash sent) (agentId : Text) (stamps : Stamps Hash) :
    Closed (detectJunkReviews state agentId stamps) sha256Hash sent := by
  have kept := closed.changed (refreshed_changes state agentId stamps) fun row _ decided => by simp [refreshed, decided]
  obtain ⟨row, present, hash, rejected⟩ := kept.rejected
  refine ⟨⟨row, List.mem_append_left _ present, hash, rejected⟩, ?_⟩
  intro after member content
  rcases List.mem_append.mp member with old | new
  · exact kept.rows after old content
  · obtain ⟨file, reason, position, listed, rfl⟩ := inserted_cases new
    have judged := (mem_candidates (unlisted_cases (List.mem_of_getElem? listed)).1).2.2
    have stands : rejectedHash state file.sha256Hash = true := by
      obtain ⟨other, there, hash', rejected'⟩ := closed.rejected
      exact List.any_eq_true.mpr ⟨other, there, by simp [hash', rejected', show file.sha256Hash = sha256Hash from content]⟩
    rw [candidateReason, if_pos stands] at judged
    cases judged

theorem step_closed {action : Action Hash} (closed : Closed state sha256Hash sent)
    (stands : undoes sha256Hash state action = false) (stepped : step state action = some next) :
    Closed next sha256Hash sent := by
  cases action with
  | detect agentId stamps =>
      cases stepped
      exact closed.detected agentId stamps
  | decide content target =>
      rcases decide_cases stepped with ⟨rfl, rfl⟩ | ⟨-, rfl⟩
      · exact (closed.changed (rejudged_changes state content)
          fun row _ decided => by simp [rejudged, decided]).moved nofun
      · refine closed.moved ?_
        rintro rfl row - selected same
        have mine : row.sha256Hash = content := by simpa using selected
        simp [undoes, ← mine, same] at stands
  | transition review target =>
      cases stepped
      rw [transitionReview_eq]
      refine closed.moved ?_
      rintro rfl row present selected same
      have mine : row.id = review := by simpa using selected
      have undone : undoes sha256Hash state (.transition review .pending) = true :=
        List.any_eq_true.mpr ⟨row, present, by simp [mine, same]⟩
      exact absurd (undone.symm.trans stands) nofun
  | claim reviews =>
      cases stepped
      rw [claimApproved_eq]
      exact closed.moved nofun
  | report agentId review outcome =>
      rcases report_cases stepped with rfl | ⟨row, -, -, -, rfl | rfl⟩
      · exact closed
      · rw [transitionReview_eq]
        exact closed.moved nofun
      · rw [transitionReview_eq]
        have moved : Closed (movedRows state (fun other => other.id = review) .quarantined) sha256Hash sent :=
          closed.moved nofun
        exact { moved with }
  | relink | store | media | mark =>
      cases stepped
      exact { closed with }
  | scan file =>
      simp only [step, scanFile] at stepped
      split at stepped <;> cases stepped
      exact { closed with }

omit [DecidableEq Hash] in
theorem moved_rejected (row : CompanionJunkReview Hash) :
    (row.moved .rejected).status ≠ .pending ∧ (row.moved .rejected).status ≠ .approved := by
  cases stands : row.status <;>
    simp [CompanionJunkReview.moved, stands, allowedFrom, JunkReviewStatus.transitions]

theorem closed_of_rejection (stepped : step state (.decide sha256Hash .rejected) = some next)
    (moves : ∃ row ∈ state.reviews, row.sha256Hash = sha256Hash ∧ allowedFrom .rejected row.status = true) :
    Closed next sha256Hash fun review => ∃ row ∈ next.reviews, row.id = review ∧ row.status = .executing := by
  rcases decide_cases stepped with ⟨approved, -⟩ | ⟨-, rfl⟩
  · cases approved
  · obtain ⟨row, present, hash, allowed⟩ := moves
    refine ⟨⟨row.moved .rejected, List.mem_map.mpr ⟨row, present, by simp [hash]⟩, ?_, ?_⟩, ?_⟩
    · exact (moved_evolves row .rejected).sha256Hash.trans hash
    · simp [CompanionJunkReview.moved, allowed]
    · intro after member content
      obtain ⟨before, here, same⟩ := List.mem_map.mp member
      have evolves := (moves_changes state (fun row => row.sha256Hash = sha256Hash) .rejected).evolves before here _
        (congrArg some same)
      have selected : before.sha256Hash = sha256Hash := evolves.sha256Hash.symm.trans content
      rw [if_pos (by simpa using selected)] at same
      have facts := moved_rejected before
      rw [same] at facts
      exact ⟨facts.1, facts.2, fun executing => ⟨after, member, rfl, executing⟩⟩

theorem run_closed {actions : List (Action Hash)} (closed : Closed state sha256Hash sent)
    (stands : Runs.Along step (fun state action => undoes sha256Hash state action = false) state actions)
    (ran : Runs.run step state actions = some next) : Closed next sha256Hash sent :=
  Runs.run_keeps (fun _ _ _ closed stands stepped => step_closed closed stands stepped) actions stands closed ran

/-! ## The laws -/

-- No review row yet, and the companions of the inventory.
structure Opening (state : State Hash) : Prop where
  inventory : Inventory state
  reviews : state.reviews = []

/-- Until an undo of the content, none of its rows is pending, and none is dispatched that was not before. -/
def StaysRejected (state : State Hash) (sha256Hash : Hash) : Prop :=
  ∀ actions final, Runs.Along step (fun state action => undoes sha256Hash state action = false) state actions →
    Runs.run step state actions = some final → ∀ row ∈ final.reviews, row.sha256Hash = sha256Hash →
      row.status ≠ .pending ∧ row.status ≠ .approved ∧
        (row.status = .executing → ∃ before ∈ state.reviews, before.id = row.id ∧ before.status = .executing)

structure Lawful (state : State Hash) (action : Action Hash) (next : State Hash) : Prop where
  single : ∀ one ∈ next.reviews, ∀ two ∈ next.reviews, one.live = true → two.live = true → one.SameIdentity two → one = two
  terminal : ∀ row ∈ state.reviews, row.status.terminal = true → row ∈ next.reviews
  rejected : ∀ sha256Hash, action = .decide sha256Hash .rejected →
    (∃ row ∈ state.reviews, row.sha256Hash = sha256Hash ∧ allowedFrom .rejected row.status = true) →
      StaysRejected next sha256Hash
  survives : Survives next

theorem Kept.opening (opening : Opening state) : Kept state where
  inventory := opening.inventory
  queue :=
    { ids := by simp [opening.reviews]
      below := by simp [opening.reviews]
      single := by simp [opening.reviews]
      current := by simp [opening.reviews]
      existed := by simp [opening.reviews] }

theorem run_kept {start : State Hash} {actions : List (Action Hash)} (opening : Opening start)
    (along : Runs.Along step admitted start actions) (ran : Runs.run step start actions = some state) :
    Kept state ∧ Survives state := by
  have each : ∀ (state : State Hash) action next, Kept state ∧ Survives state → admitted state action →
      step state action = some next → Kept next ∧ Survives next := by
    rintro state action next ⟨kept, survives⟩ admits stepped
    exact ⟨step_kept kept stepped, step_survives survives kept admits stepped⟩
  have empty : Survives start := by
    intro row member
    rw [opening.reviews] at member
    cases member
  exact Runs.run_keeps each actions along ⟨.opening opening, empty⟩ ran

end Decisions

namespace TwoCopies

def plain : CompanionContentFeatures Nat :=
  { fingerprint := 7, junkClass := none, contentJunkClass := none, truncated := false }

def first : FileRecord Nat := { id := 0, agentId := ['g'], originalPath := "/a/i".toList, sha256Hash := 7 }

def second : FileRecord Nat := { id := 1, agentId := ['g'], originalPath := "/b/i".toList, sha256Hash := 7 }

-- Two copies in folders without media; the first names a recording elsewhere, and is linked to it.
def start : State Nat :=
  { files := [first, second]
    existed := [first, second]
    available := fun _ => true
    features := fun _ => some plain
    linked := fun file => file = 0
    media := [(['g'], "/m/x".toList)]
    reviews := []
    nextReview := 0 }

def noStamps : Stamps Nat := ⟨[], []⟩

theorem start_opening : Opening start where
  inventory :=
    { ids := by decide
      paths := by decide
      existed := List.Subset.refl _
      known := by decide }
  reviews := rfl

end TwoCopies

end Phaze.Quarantine.Detector
