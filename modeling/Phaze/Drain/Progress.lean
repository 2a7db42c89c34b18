import Phaze.Drain.Cursor

set_option autoImplicit false

/-!
# How far a tick looks

A walk reaches the rows of the queue in order, and one that holds all it reaches ends at the scan bound
with a position for the next tick. Only the first page is not cut at the bound: it is as long as there
are free slots.
-/

namespace Phaze.Drain

open Phaze.Cloud
open Phaze.Cloud.Chains (CloudBudget)

/-! ## Positions of a sorted list -/

section Sorted

variable {File : Type} {rows before passed left : List (Queued File)}

theorem filter_suffix (sorted : rows.Pairwise fun first second => first.position < second.position)
    (after : Position) : (rows.filter fun row => after < row.position) <:+ rows := by
  induction rows with
  | nil => exact List.suffix_rfl
  | cons row rest ih =>
    obtain ⟨first, sorted⟩ := List.pairwise_cons.mp sorted
    by_cases past : after < row.position
    · have all : (row :: rest).filter (fun row => after < row.position) = row :: rest := by
        rw [List.filter_eq_self]
        intro other member
        rcases List.mem_cons.mp member with rfl | member
        · exact decide_eq_true past
        · exact decide_eq_true (past.trans (first other member))
      rw [all]
    · rw [List.filter_cons_of_neg (by simpa using past)]
      exact (ih sorted).trans (List.suffix_cons row rest)

theorem filter_lastPosition {position : Position}
    (sorted : (before ++ passed ++ left).Pairwise fun first second => first.position < second.position)
    (last : lastPosition passed = some position) :
    (before ++ passed ++ left).filter (fun row => position < row.position) = left := by
  obtain ⟨init, row, rfl⟩ : ∃ init row, passed = init ++ [row] := by
    rcases List.eq_nil_or_concat passed with rfl | ⟨init, row, rfl⟩
    · cases last
    · exact ⟨init, row, by simp⟩
  obtain rfl : row.position = position := by simpa [lastPosition] using last
  obtain ⟨upto, -, across⟩ := List.pairwise_append.mp sorted
  have none_before : (before ++ (init ++ [row])).filter (fun other => row.position < other.position) = [] := by
    rw [List.filter_eq_nil_iff]
    intro other member
    rw [← List.append_assoc] at upto member
    rcases List.mem_append.mp member with member | member
    · have := (List.pairwise_append.mp upto).2.2 other member row (List.mem_singleton_self row)
      simpa using this.le
    · obtain rfl := List.mem_singleton.mp member
      simp
  have all_behind : left.filter (fun other => row.position < other.position) = left := by
    rw [List.filter_eq_self]
    intro other member
    exact decide_eq_true (across row (by simp) other member)
  rw [List.filter_append, none_before, all_behind, List.nil_append]

theorem lastPosition_append (some_left : left ≠ []) : lastPosition (passed ++ left) = lastPosition left := by
  simp [lastPosition, List.getLast?_append_of_ne_nil _ some_left]

theorem lastPosition_isSome (some_rows : rows ≠ []) : ∃ position, lastPosition rows = some position := by
  simp [lastPosition, List.getLast?_eq_some_getLast some_rows]

theorem behind_suffix (queue : Queue File) (cursor : Option Position) : queue.behind cursor <:+ queue.rows := by
  cases cursor with
  | none => exact List.suffix_rfl
  | some after => exact filter_suffix queue.fifo after

-- The keyset query behind a page is what follows the page.
theorem behind_lastPosition {queue : Queue File} (split : queue.rows = before ++ passed ++ left)
    (some_passed : passed ≠ []) : queue.behind (lastPosition passed) = left := by
  obtain ⟨position, last⟩ := lastPosition_isSome some_passed
  have sorted := queue.fifo
  rw [split] at sorted
  rw [last, Queue.behind, split]
  exact filter_lastPosition sorted last

end Sorted

/-! ## Slots only shrink -/

section Slots

-- The same backends, as available as before, with no more slots left.
def Shrinks (slots final : List BackendSlot) : Prop :=
  List.Forall₂ (fun slot later => later.backend = slot.backend ∧ later.available = slot.available ∧
    later.remaining ≤ slot.remaining) slots final

theorem Shrinks.refl (slots : List BackendSlot) : Shrinks slots slots :=
  List.forall₂_same.mpr fun _ _ => ⟨rfl, rfl, le_rfl⟩

theorem Shrinks.trans {slots middle final : List BackendSlot} (first : Shrinks slots middle)
    (second : Shrinks middle final) : Shrinks slots final := by
  unfold Shrinks at *
  induction first generalizing final with
  | nil => exact second
  | cons head _ ih =>
    cases second with
    | cons next rest =>
      exact .cons ⟨next.1.trans head.1, next.2.1.trans head.2.1, next.2.2.trans head.2.2⟩ (ih rest)

theorem claimSlot_shrinks (slots : List BackendSlot) (backend : BackendId) :
    Shrinks slots (claimSlot slots backend) := by
  unfold Shrinks claimSlot
  rw [List.forall₂_map_right_iff, List.forall₂_same]
  intro slot _
  split
  · exact ⟨rfl, rfl, Nat.sub_le _ _⟩
  · exact ⟨rfl, rfl, le_rfl⟩

theorem Shrinks.mem {slots final : List BackendSlot} (shrinks : Shrinks slots final) {later : BackendSlot}
    (member : later ∈ final) : ∃ slot ∈ slots, later.backend = slot.backend ∧
      later.available = slot.available ∧ later.remaining ≤ slot.remaining := by
  unfold Shrinks at shrinks
  induction shrinks with
  | nil => cases member
  | @cons slot _ _ _ head _ ih =>
    rcases List.mem_cons.mp member with rfl | member
    · exact ⟨slot, List.mem_cons_self, head⟩
    · obtain ⟨slot, found, same⟩ := ih member
      exact ⟨slot, List.mem_cons_of_mem _ found, same⟩

-- Whether a cloud lane is online is not asked of the slots that are left.
theorem Shrinks.online {slots final : List BackendSlot} (shrinks : Shrinks slots final) :
    (final.any fun slot => slot.available && !slot.isLocal) =
      slots.any fun slot => slot.available && !slot.isLocal := by
  unfold Shrinks at shrinks
  induction shrinks with
  | nil => rfl
  | cons head _ ih =>
    rw [List.any_cons, List.any_cons, ih]
    simp only [BackendSlot.isLocal, head.1, head.2.1]

theorem leading_eq_none {slots : List BackendSlot} : leading slots = none ↔ slots = [] := by
  cases slots with
  | nil => simp [leading]
  | cons slot rest =>
    simp only [leading, reduceCtorEq, iff_false]
    split
    · simp
    · split <;> simp

theorem leading_error_iff (slots : List BackendSlot) : (∃ reason, (match leading slots with
    | none => Except.error HoldReason.localSpillNotReached
    | some slot => .ok slot.backend) = .error reason) ↔ slots = [] := by
  rw [← leading_eq_none]
  cases leading slots <;> simp

variable (settings : Settings) (laneEnteredAt now : Int) (cloudAttempts : Nat) (budget : Option CloudBudget)

-- Which slots the policy lets the candidate use.
def admits (snapshot : List BackendSlot) (slot : BackendSlot) : Bool :=
  let barred := decide (settings.cloudSubmitMaxAttempts ≤ cloudAttempts) ||
    (cloudBudgetHoldReason settings budget now).isSome
  let anyNonLocalOnline := snapshot.any fun slot => slot.available && !slot.isLocal
  let waited := decide (seconds settings.cloudSpillToLocalAfterSeconds ≤ now - laneEnteredAt)
  slot.eligible && (!barred || slot.isLocal) && (!anyNonLocalOnline || waited || barred || !slot.isLocal)

theorem select_error_iff (snapshot : List BackendSlot) :
    (∃ reason, selectBackendWithReason settings laneEnteredAt cloudAttempts snapshot now budget = .error reason) ↔
      ∀ slot ∈ snapshot, admits settings laneEnteredAt now cloudAttempts budget snapshot slot = false := by
  unfold selectBackendWithReason admits
  simp only
  set barred := if settings.cloudSubmitMaxAttempts ≤ cloudAttempts then some HoldReason.cloudAttemptsExhausted
    else cloudBudgetHoldReason settings budget now with barredDefined
  have isBarred : (decide (settings.cloudSubmitMaxAttempts ≤ cloudAttempts) ||
      (cloudBudgetHoldReason settings budget now).isSome) = barred.isSome := by
    rw [barredDefined]
    split <;> simp [*]
  rw [isBarred]
  generalize (snapshot.any fun slot => slot.available && !slot.isLocal) = online
  generalize decide (seconds settings.cloudSpillToLocalAfterSeconds ≤ now - laneEnteredAt) = waited
  by_cases full : snapshot.filter BackendSlot.eligible = []
  · have ineligible : ∀ slot ∈ snapshot, slot.eligible = false := by simpa [List.filter_eq_nil_iff] using full
    rw [if_pos full]
    exact ⟨fun _ slot member => by simp [ineligible slot member], fun _ => ⟨_, rfl⟩⟩
  · rw [if_neg full]
    cases barred with
    | none =>
      simp only [Option.isSome_none, Bool.false_eq_true, if_false]
      refine (leading_error_iff _).trans ?_
      cases online <;> cases waited <;> simp [List.filter_eq_nil_iff]
      grind
    | some reason =>
      simp only [Option.isSome_some, if_true, Bool.or_true]
      cases narrowed : (snapshot.filter BackendSlot.eligible).filter BackendSlot.isLocal with
      | nil =>
        have taken : ∀ slot ∈ snapshot, slot.isLocal = true → slot.eligible = false := by
          simpa [List.filter_eq_nil_iff] using narrowed
        refine ⟨fun _ slot member => ?_, fun _ => ⟨reason, rfl⟩⟩
        cases lane : slot.isLocal <;> simp [taken slot member, lane]
      | cons slot rest =>
        refine (leading_error_iff _).trans ?_
        have member : slot ∈ (snapshot.filter BackendSlot.eligible).filter BackendSlot.isLocal := by
          rw [narrowed]
          exact List.mem_cons_self
        simp only [List.mem_filter] at member
        simp only [reduceCtorEq, false_iff, not_forall]
        exact ⟨slot, member.1.1, by simp [member.1.2, member.2]⟩

-- A candidate that finds no slot finds none when there are fewer.
theorem held_of_shrinks {slots final : List BackendSlot} (shrinks : Shrinks slots final)
    (held : ∃ reason, selectBackendWithReason settings laneEnteredAt cloudAttempts slots now budget = .error reason) :
    ∃ reason, selectBackendWithReason settings laneEnteredAt cloudAttempts final now budget = .error reason := by
  rw [select_error_iff] at held ⊢
  intro later member
  obtain ⟨slot, found, backend, available, remaining⟩ := shrinks.mem member
  have refused := held slot found
  unfold admits at refused ⊢
  rw [shrinks.online]
  simp only [BackendSlot.eligible, BackendSlot.isLocal, backend, available] at refused ⊢
  by_cases free : 0 < later.remaining
  · have : 0 < slot.remaining := free.trans_le remaining
    simpa [free, this] using refused
  · simp [free]

end Slots

/-! ## The rows of a walk -/

section Walking

variable {File : Type} (settings : Settings)

theorem stageCandidate_walk (walk : Walk File) (candidate : Candidate File) (held : Nat) :
    (stageCandidate settings walk candidate held).1.scanned = walk.scanned ∧
      Shrinks walk.slots (stageCandidate settings walk candidate held).1.slots := by
  unfold stageCandidate
  split
  · exact ⟨rfl, .refl _⟩
  split
  · exact ⟨rfl, .refl _⟩
  split
  · unfold stageLocal
    split
    · exact ⟨rfl, claimSlot_shrinks _ _⟩
    · exact ⟨rfl, claimSlot_shrinks _ _⟩
    · exact ⟨rfl, .refl _⟩
    · exact ⟨rfl, .refl _⟩
  split
  · unfold stageCloud
    dsimp only
    split
    · exact ⟨rfl, claimSlot_shrinks _ _⟩
    · exact ⟨rfl, .refl _⟩
    · exact ⟨rfl, .refl _⟩
    · exact ⟨rfl, .refl _⟩
  · exact ⟨rfl, .refl _⟩

theorem stageCandidatePage_walk (walk : Walk File) (page : List (Candidate File)) :
    (stageCandidatePage settings walk page).1.scanned = walk.scanned ∧
      Shrinks walk.slots (stageCandidatePage settings walk page).1.slots := by
  induction page generalizing walk with
  | nil => exact ⟨rfl, .refl _⟩
  | cons candidate rest ih =>
    have first := stageCandidate_walk settings walk candidate (rest.length + 1)
    have later := ih (stageCandidate settings walk candidate (rest.length + 1)).1
    rw [stageCandidatePage_cons]
    dsimp only
    split
    · exact ⟨later.1.trans first.1, first.2.trans later.2⟩
    · exact first

theorem reachedPage_cons (walk : Walk File) (row : Queued File) (rest : List (Queued File)) :
    reachedPage settings walk (row :: rest) =
      let staged := stageCandidate settings walk row.candidate (rest.length + 1)
      (row, walk.slots) :: if staged.2.goesOn then reachedPage settings staged.1 rest else [] := by
  simp only [reachedPage]
  split <;> simp_all [Event.goesOn]

theorem reachedPage_prefix (walk : Walk File) (page : List (Queued File)) :
    (reachedPage settings walk page).map Prod.fst <+: page := by
  induction page generalizing walk with
  | nil => exact List.prefix_rfl
  | cons row rest ih =>
    rw [reachedPage_cons]
    dsimp only
    split
    · exact List.cons_prefix_cons.mpr ⟨rfl, ih _⟩
    · exact List.cons_prefix_cons.mpr ⟨rfl, List.nil_prefix⟩

theorem reachedPage_slots (walk : Walk File) (page : List (Queued File)) :
    ∀ entry ∈ reachedPage settings walk page,
      Shrinks entry.2 (stageCandidatePage settings walk (page.map Queued.candidate)).1.slots := by
  induction page generalizing walk with
  | nil => simp [reachedPage]
  | cons row rest ih =>
    have first := stageCandidate_walk settings walk row.candidate (rest.length + 1)
    have whole := stageCandidatePage_walk settings walk ((row :: rest).map Queued.candidate)
    rw [reachedPage_cons]
    intro entry member
    rcases List.mem_cons.mp member with rfl | member
    · exact whole.2
    · rw [List.map_cons, stageCandidatePage_cons, List.length_map]
      dsimp only at member ⊢
      split at member
      next goes =>
        rw [if_pos goes]
        exact ih _ entry member
      · cases member

theorem reachedPage_full (walk : Walk File) (page : List (Queued File))
    (goes : ∀ event ∈ (stageCandidatePage settings walk (page.map Queued.candidate)).2, event.goesOn = true) :
    (reachedPage settings walk page).map Prod.fst = page := by
  induction page generalizing walk with
  | nil => rfl
  | cons row rest ih =>
    rw [List.map_cons, stageCandidatePage_cons, List.length_map] at goes
    rw [reachedPage_cons]
    dsimp only at goes ⊢
    by_cases first : (stageCandidate settings walk row.candidate (rest.length + 1)).2.goesOn = true
    · rw [if_pos first] at goes ⊢
      rw [List.map_cons, ih _ fun event member => goes event (List.mem_cons_of_mem _ member)]
    · rw [if_neg first] at goes
      refine absurd (goes (stageCandidate settings walk row.candidate (rest.length + 1)).2 ?_) first
      unfold Event.ending
      split
      · split <;> simp [*]
      · exact List.mem_singleton_self _

-- The policy finds no slot for the candidate.
def HeldBySelection (slots : List BackendSlot) (candidate : Candidate File) : Prop :=
  candidate.readsRaise = false ∧ ∃ reason, selectBackendWithReason settings candidate.row.updatedAt
    candidate.row.attempts slots candidate.now candidate.budget = .error reason

theorem stageCandidate_held {walk : Walk File} {candidate : Candidate File} (held : Nat)
    (refused : HeldBySelection settings walk.slots candidate) :
    stageCandidate settings walk candidate held = (walk.skip 1, .held candidate.file) := by
  obtain ⟨reads, reason, selects⟩ := refused
  simp [stageCandidate, reads, selects]

theorem skip_skip (walk : Walk File) (first second : Nat) :
    (walk.skip first).skip second = walk.skip (first + second) := by
  simp [Walk.skip, Nat.add_assoc]

theorem stageCandidatePage_held (walk : Walk File) {page : List (Candidate File)}
    (held : ∀ candidate ∈ page, HeldBySelection settings walk.slots candidate) :
    stageCandidatePage settings walk page =
      (walk.skip page.length, page.map fun candidate => .held candidate.file) := by
  induction page generalizing walk with
  | nil => rfl
  | cons candidate rest ih =>
    have first := stageCandidate_held settings (rest.length + 1) (held candidate List.mem_cons_self)
    have later := ih (walk.skip 1) fun other member => held other (List.mem_cons_of_mem _ member)
    rw [stageCandidatePage_cons, first]
    simp only [Event.goesOn, if_true, later, skip_skip, List.map_cons, List.length_cons, Nat.add_comm 1]

theorem reachedPage_behind {walk : Walk File} (heads : List (Queued File)) (row : Queued File) (rest : List (Queued File))
    (held : ∀ head ∈ heads, HeldBySelection settings walk.slots head.candidate) :
    row ∈ (reachedPage settings walk (heads ++ row :: rest)).map Prod.fst := by
  induction heads generalizing walk with
  | nil => simp [reachedPage_cons]
  | cons head heads ih =>
    rw [List.cons_append, reachedPage_cons]
    dsimp only
    rw [stageCandidate_held settings _ (held head List.mem_cons_self)]
    simp only [Event.goesOn, if_true, List.map_cons]
    exact List.mem_cons_of_mem _ (ih fun other member => held other (List.mem_cons_of_mem _ member))

end Walking

section Pages

variable {File : Type} [DecidableEq File] (settings : Settings) {queue : Queue File}
  {before page rest : List (Queued File)}

theorem nextCandidatePage_goesOn {walk : Walk File} {events : List (Event File)} {pageLength pageLimit limit : Nat}
    {last : Bool} (next : nextCandidatePage walk events pageLength pageLimit last = .page limit) :
    (∀ event ∈ events, event.goesOn = true) ∧ walk.scanned < maxCandidateScan ∧
      limit ≤ maxCandidateScan - walk.scanned := by
  unfold nextCandidatePage at next
  split at next
  · cases next
  next goes =>
    split at next
    · cases next
    next room =>
      split at next
      · cases next
      next sound =>
        split at next
        · cases next
        · cases next
          simp only [not_or, Nat.not_le] at goes room
          refine ⟨fun event member => ?_, room.2.2, Nat.min_le_right _ _⟩
          cases event with
          | vanished => exact absurd member goes.1
          | aborted => exact absurd member goes.2
          | poisoned => exact absurd member sound
          | held | dispatched | raised => rfl

theorem walkPages_succ (fuel : Nat) (walk : Walk File) (page : List (Queued File)) (pageLimit : Nat) :
    walkPages settings queue (fuel + 1) walk page pageLimit =
      let counted := { walk with scanned := walk.scanned + page.length }
      let staged := stageCandidatePage settings counted (page.map Queued.candidate)
      let reached := reachedPage settings counted page
      match nextCandidatePage staged.1 staged.2 page.length pageLimit (queue.behind (lastPosition page)).isEmpty with
      | .stop =>
          { walk := staged.1
            events := staged.2
            reached := reached
            resumeAfter := if spendsBudget staged.1 staged.2 page.length pageLimit then lastPosition page else none }
      | .abort => { walk := staged.1, events := staged.2 ++ [.aborted], reached := reached, resumeAfter := none }
      | .page limit =>
          let later := walkPages settings queue fuel staged.1
            (getCloudStagingCandidates queue limit (lastPosition page)) limit
          { later with events := staged.2 ++ later.events, reached := reached ++ later.reached } := rfl

-- What a walk scans, reaches and leaves.
structure Looks (walk : Walk File) (pageLength : Nat) (final : Walk File)
    (reached : List (Queued File × List BackendSlot)) (rows : List (Queued File)) : Prop where
  inOrder : reached.map Prod.fst <+: rows
  counted : walk.scanned + reached.length ≤ final.scanned
  started : walk.scanned + pageLength ≤ final.scanned
  bounded : final.scanned ≤ max maxCandidateScan (walk.scanned + pageLength)
  slots : Shrinks walk.slots final.slots
  shrinks : ∀ entry ∈ reached, Shrinks entry.2 final.slots

omit [DecidableEq File] in
theorem stageCandidatePage_looks (walk : Walk File) (page rest : List (Queued File)) :
    Looks walk page.length
      (stageCandidatePage settings { walk with scanned := walk.scanned + page.length } (page.map Queued.candidate)).1
      (reachedPage settings { walk with scanned := walk.scanned + page.length } page) (page ++ rest) := by
  have paged := stageCandidatePage_walk settings { walk with scanned := walk.scanned + page.length }
    (page.map Queued.candidate)
  have front := reachedPage_prefix settings { walk with scanned := walk.scanned + page.length } page
  have reached := front.length_le
  rw [List.length_map] at reached
  exact
    { inOrder := front.trans (List.prefix_append page rest)
      counted := by
        rw [paged.1]
        exact Nat.add_le_add_left reached _
      started := paged.1.ge
      bounded := paged.1.le.trans (le_max_right _ _)
      slots := paged.2
      shrinks := reachedPage_slots settings _ page }

omit [DecidableEq File] in
theorem Looks.append {walk next final : Walk File} {reached later : List (Queued File × List BackendSlot)}
    {pageLength : Nat} (first : Looks walk page.length next reached (page ++ rest)) (full : reached.map Prod.fst = page)
    (open_ : next.scanned < maxCandidateScan) (fits : pageLength ≤ maxCandidateScan - next.scanned)
    (second : Looks next pageLength final later rest) :
    Looks walk page.length final (reached ++ later) (page ++ rest) where
  inOrder := by
    rw [List.map_append, full]
    exact (List.prefix_append_right_inj page).mpr second.inOrder
  counted := by
    have := congrArg List.length full
    have := first.started
    have := second.counted
    rw [List.length_append]
    rw [List.length_map] at *
    omega
  started := first.started.trans (le_of_add_le_left second.started)
  bounded := by
    have := second.bounded
    omega
  slots := first.slots.trans second.slots
  shrinks entry member := by
    rcases List.mem_append.mp member with member | member
    · exact (first.shrinks entry member).trans second.slots
    · exact second.shrinks entry member

omit [DecidableEq File] in
theorem next_page (limit : Nat) (rows : queue.rows = before ++ page ++ rest) (some_page : page ≠ [])
    (positive : 0 < limit) (more : rest ≠ []) :
    getCloudStagingCandidates queue limit (lastPosition page) = rest.take limit ∧ rest.take limit ≠ [] ∧
      queue.rows = (before ++ page) ++ rest.take limit ++ rest.drop limit := by
  refine ⟨?_, ?_, ?_⟩
  · rw [getCloudStagingCandidates, behind_lastPosition rows some_page]
  · simp only [ne_eq, List.take_eq_nil_iff, not_or]
    exact ⟨positive.ne', more⟩
  · rw [List.append_assoc _ _ (rest.drop limit), List.take_append_drop, rows]

theorem walkPages_looks (fuel : Nat) (walk : Walk File) (pageLimit : Nat)
    (rows : queue.rows = before ++ page ++ rest) (some_page : page ≠ []) :
    Looks walk page.length (walkPages settings queue (fuel + 1) walk page pageLimit).walk
      (walkPages settings queue (fuel + 1) walk page pageLimit).reached (page ++ rest) := by
  induction fuel generalizing before walk page rest pageLimit with
  | zero =>
    have first := stageCandidatePage_looks settings walk page rest
    rw [walkPages_succ]
    dsimp only
    split
    · exact first
    · exact first
    · simpa [walkPages] using first
  | succ fuel ih =>
    have first := stageCandidatePage_looks settings walk page rest
    rw [walkPages_succ]
    dsimp only
    split
    · exact first
    · exact first
    next limit next =>
      obtain ⟨positive, more⟩ := nextCandidatePage_limit next
      obtain ⟨goes, open_, fits⟩ := nextCandidatePage_goesOn next
      have full := reachedPage_full settings _ page goes
      rw [behind_lastPosition rows some_page] at more
      obtain ⟨query, some_next, split_next⟩ := next_page _ rows some_page positive (by simpa using more)
      have later := ih (stageCandidatePage settings { walk with scanned := walk.scanned + page.length }
        (page.map Queued.candidate)).1 limit split_next some_next
      rw [List.take_append_drop] at later
      rw [query]
      exact first.append full open_ ((List.length_take_le _ _).trans fits) later

-- The keyset walk is the walk over the queue from where it starts.
theorem walkPages_walk (fuel : Nat) (walk : Walk File) (pageLimit : Nat)
    (rows : queue.rows = before ++ page ++ rest) (some_page : page ≠ []) :
    ((walkPages settings queue fuel walk page pageLimit).walk,
        (walkPages settings queue fuel walk page pageLimit).events) =
      walkCandidatePages settings fuel walk (page.map Queued.candidate) pageLimit (rest.map Queued.candidate) := by
  induction fuel generalizing before walk page rest pageLimit with
  | zero => rfl
  | succ fuel ih =>
    rw [walkPages_succ, walkCandidatePages_succ, behind_lastPosition rows some_page]
    simp only [List.length_map, List.isEmpty_map]
    set staged := stageCandidatePage settings { walk with scanned := walk.scanned + page.length }
      (page.map Queued.candidate)
    cases next : nextCandidatePage staged.1 staged.2 page.length pageLimit rest.isEmpty with
    | stop => rfl
    | abort => rfl
    | page limit =>
      obtain ⟨positive, more⟩ := nextCandidatePage_limit next
      obtain ⟨query, some_next, split_next⟩ := next_page _ rows some_page positive (by simpa using more)
      simp only [query, ← List.map_take, ← List.map_drop, ← ih _ limit split_next some_next]

-- The walk after a page that it held.
def Walk.past (walk : Walk File) (page : List (Queued File)) : Walk File :=
  { walk with scanned := walk.scanned + page.length, skipped := walk.skipped + page.length }

-- What a full page of held rows leads to, when the queue goes on behind it.
theorem walkPages_held (fuel : Nat) {walk : Walk File} {pageLimit : Nat}
    (rows : queue.rows = before ++ page ++ rest) (some_page : page ≠ []) (more : rest ≠ [])
    (full : page.length = pageLimit) (free : freeSlots walk.slots ≠ 0)
    (held : ∀ row ∈ page, HeldBySelection settings walk.slots row.candidate) :
    ∃ events reached, (∀ event ∈ events, event.goesOn = true) ∧
      walkPages settings queue (fuel + 1) walk page pageLimit =
        if maxCandidateScan ≤ walk.scanned + page.length then
          { walk := walk.past page, events := events, reached := reached, resumeAfter := lastPosition page }
        else
          let limit := min (max (freeSlots walk.slots) minCandidatePage)
            (maxCandidateScan - (walk.scanned + page.length))
          let later := walkPages settings queue fuel (walk.past page) (rest.take limit) limit
          { later with events := events ++ later.events, reached := reached ++ later.reached } := by
  subst full
  have all : ∀ candidate ∈ page.map Queued.candidate, HeldBySelection settings walk.slots candidate := by
    intro candidate member
    obtain ⟨row, found, rfl⟩ := List.mem_map.mp member
    exact held row found
  have staged := stageCandidatePage_held settings { walk with scanned := walk.scanned + page.length } all
  set events : List (Event File) := (page.map Queued.candidate).map fun candidate => .held candidate.file
  have paged : stageCandidatePage settings { walk with scanned := walk.scanned + page.length }
      (page.map Queued.candidate) = (walk.past page, events) := by
    rw [staged, List.length_map]
    rfl
  have going : ∀ event ∈ events, event.goesOn = true := by
    intro event member
    obtain ⟨_, -, rfl⟩ := List.mem_map.mp member
    rfl
  have quiet : ∀ event : Event File, event.goesOn = false → event ∉ events := by
    intro event ends member
    rw [going event member] at ends
    cases ends
  have next : nextCandidatePage (walk.past page) events page.length page.length rest.isEmpty =
      if maxCandidateScan ≤ walk.scanned + page.length then .stop
      else .page (min (max (freeSlots walk.slots) minCandidatePage)
        (maxCandidateScan - (walk.scanned + page.length))) := by
    simp [nextCandidatePage, quiet .vanished rfl, quiet .aborted rfl, quiet .poisoned rfl, Walk.past, free, more]
  refine ⟨events, reachedPage settings { walk with scanned := walk.scanned + page.length } page, going, ?_⟩
  rw [walkPages_succ]
  simp only [paged, behind_lastPosition rows some_page, next]
  by_cases spent : maxCandidateScan ≤ walk.scanned + page.length
  · have budget : spendsBudget (walk.past page) events page.length page.length = true := by
      simp [spendsBudget, quiet .vanished rfl, quiet .aborted rfl, Walk.past, free, spent]
    simp only [if_pos spent, budget, if_true]
  · simp only [if_neg spent]
    obtain ⟨query, -, -⟩ := next_page (min (max (freeSlots walk.slots) minCandidatePage)
      (maxCandidateScan - (walk.scanned + page.length))) rows some_page (by simp only [minCandidatePage]; omega) more
    rw [query]

-- A walk that holds the rows in front reaches the row behind them, or it ends at the scan bound with the
-- position of one of them.
theorem walkPages_progress (fuel : Nat) (walk : Walk File) {pageLimit : Nat} {heads tail : List (Queued File)}
    {row : Queued File} (rows : queue.rows = before ++ page ++ rest) (whole : page ++ rest = heads ++ row :: tail)
    (some_page : page ≠ []) (full : page.length = pageLimit ∨ rest = []) (enough : rest.length < fuel)
    (free : freeSlots walk.slots ≠ 0) (held : ∀ head ∈ heads, HeldBySelection settings walk.slots head.candidate) :
    row ∈ (walkPages settings queue fuel walk page pageLimit).reached.map Prod.fst ∨
      ∃ passed left, heads = passed ++ left ∧ passed ≠ [] ∧ maxCandidateScan ≤ walk.scanned + passed.length ∧
        (walkPages settings queue fuel walk page pageLimit).resumeAfter = lastPosition passed ∧
        ∀ event ∈ (walkPages settings queue fuel walk page pageLimit).events, event.goesOn = true := by
  induction fuel generalizing before walk page rest pageLimit heads with
  | zero => cases enough
  | succ fuel ih =>
    have reach : (∃ heads', heads = page ++ heads' ∧ rest = heads' ++ row :: tail) ∨
        ∃ page', page = heads ++ row :: page' := by
      rcases List.append_eq_append_iff.mp whole with ⟨heads', front, behind⟩ | ⟨page', front, behind⟩
      · exact .inl ⟨heads', front, behind⟩
      · cases page' with
        | nil => exact .inl ⟨[], by simpa using front.symm, by simpa using behind.symm⟩
        | cons first page' =>
          obtain ⟨rfl, -⟩ := List.cons_eq_cons.mp behind
          exact .inr ⟨page', front⟩
    rcases reach with ⟨heads', rfl, rfl⟩ | ⟨page', rfl⟩
    · have more : heads' ++ row :: tail ≠ [] := by simp
      obtain ⟨events, reached, going, paged⟩ := walkPages_held settings fuel rows some_page more
        (full.resolve_right more) free fun head member => held head (List.mem_append_left _ member)
      rw [paged]
      split
      next spent =>
        exact .inr ⟨page, heads', rfl, some_page, spent, rfl, going⟩
      next open_ =>
        set limit := min (max (freeSlots walk.slots) minCandidatePage)
          (maxCandidateScan - (walk.scanned + page.length)) with limitDefined
        have positive : 0 < limit := by
          simp only [limitDefined, minCandidatePage]
          omega
        obtain ⟨-, some_next, split_next⟩ := next_page _ rows some_page positive more
        have full_next : ((heads' ++ row :: tail).take limit).length = limit ∨ (heads' ++ row :: tail).drop limit = [] := by
          rw [List.drop_eq_nil_iff, List.length_take]
          omega
        have enough_next : ((heads' ++ row :: tail).drop limit).length < fuel := by
          have := List.length_pos_iff.mpr more
          rw [List.length_drop]
          omega
        have behind := ih (walk.past page) split_next (List.take_append_drop _ _) some_next full_next
          enough_next free fun head member => held head (List.mem_append_right _ member)
        rcases behind with found | ⟨passed, left, rfl, some_passed, spent, resumes, later⟩
        · left
          rw [List.map_append]
          exact List.mem_append_right _ found
        · refine .inr ⟨page ++ passed, left, (List.append_assoc _ _ _).symm, by simp [some_page], ?_, ?_, ?_⟩
          · rw [List.length_append, ← Nat.add_assoc]
            exact spent
          · rw [lastPosition_append some_passed]
            exact resumes
          · intro event member
            rcases List.mem_append.mp member with member | member
            · exact going event member
            · exact later event member
    · left
      have reached : row ∈ (reachedPage settings { walk with scanned := walk.scanned + (heads ++ row :: page').length }
          (heads ++ row :: page')).map Prod.fst := reachedPage_behind settings heads row page' held
      rw [walkPages_succ]
      dsimp only
      split
      · exact reached
      · exact reached
      · rw [List.map_append]
        exact List.mem_append_left _ reached

end Pages

/-! ## Ticks -/

section Ticks

variable {File : Type} [DecidableEq File] (settings : Settings)

namespace QueueTick

variable (tick : QueueTick File) (cursor : Option Position)

omit [DecidableEq File] in
theorem start_suffix : tick.start cursor <:+ tick.queue.rows := by
  unfold start
  split
  · exact List.suffix_rfl
  · exact behind_suffix tick.queue cursor

omit [DecidableEq File] in
theorem firstPage_eq : tick.firstPage cursor = (tick.start cursor).take (freeSlots tick.slots) := by
  unfold firstPage firstCandidatePage getCloudStagingCandidates start
  cases behind : tick.queue.behind cursor with
  | nil => simp [Queue.behind]
  | cons row rest => cases freeSlots tick.slots <;> simp [Queue.behind]

omit [DecidableEq File] in
theorem walks_iff : tick.walks cursor = true ↔
    tick.enabled = true ∧ freeSlots tick.slots ≠ 0 ∧ tick.start cursor ≠ [] ∧ tick.fileserverOnline = true := by
  simp only [walks, firstPage_eq, Bool.and_eq_true, Bool.not_eq_true', List.isEmpty_eq_false_iff, ne_eq,
    List.take_eq_nil_iff, not_or, decide_eq_true_eq]
  tauto

omit [DecidableEq File] in
theorem firstPage_splits (walks : tick.walks cursor = true) :
    ∃ before, tick.queue.rows = before ++ tick.firstPage cursor ++ (tick.start cursor).drop (freeSlots tick.slots) ∧
      tick.firstPage cursor ≠ [] := by
  obtain ⟨-, free, rows, -⟩ := (tick.walks_iff cursor).mp walks
  obtain ⟨before, split⟩ := tick.start_suffix cursor
  refine ⟨before, ?_, ?_⟩
  · rw [firstPage_eq, List.append_assoc, List.take_append_drop, split]
  · simp [firstPage_eq, free, rows]

-- The keyset walk is that of the tick over the rows from where it starts.
theorem paged_walk : ((tick.paged settings cursor).walk, (tick.paged settings cursor).events) =
    (tick.toTick cursor).walk settings := by
  have first : (tick.toTick cursor).firstPage = (tick.firstPage cursor).map Queued.candidate := by
    simp [Tick.firstPage, toTick, firstPage_eq]
  have same : (tick.toTick cursor).walks = tick.walks cursor := by
    simp only [Tick.walks, walks, first, List.isEmpty_map]
    rfl
  unfold paged Tick.walk
  rw [same, first]
  split
  next walks =>
    obtain ⟨before, split, some_page⟩ := tick.firstPage_splits cursor walks
    simp only [toTick, List.length_map, ← List.map_drop, ← walkPages_walk settings _ _ _ split some_page]
  · rfl

-- A tick examines its candidates in the order of the queue, each once and at most `maxCandidateScan` of them,
-- and one that it held would be held against the slots left at its end.
structure Examines : Prop where
  fromQueue : ((tick.paged settings cursor).reached.map Prod.fst).Sublist tick.queue.rows
  inOrder : (tick.paged settings cursor).reached.Pairwise fun first second => first.1.position < second.1.position
  counted : (tick.paged settings cursor).reached.length ≤ (tick.paged settings cursor).walk.scanned
  bounded : (tick.paged settings cursor).walk.scanned ≤ maxCandidateScan
  held : ∀ entry ∈ (tick.paged settings cursor).reached, HeldBySelection settings entry.2 entry.1.candidate →
    HeldBySelection settings (tick.paged settings cursor).walk.slots entry.1.candidate

-- The first page is not longer than the scan bound.
def Fits : Prop :=
  tick.walks cursor = true → freeSlots tick.slots ≤ maxCandidateScan ∨ (tick.start cursor).length ≤ maxCandidateScan

theorem paged_looks (walks : tick.walks cursor = true) :
    Looks (.start tick.slots) (tick.firstPage cursor).length (tick.paged settings cursor).walk
      (tick.paged settings cursor).reached (tick.start cursor) := by
  obtain ⟨before, split, some_page⟩ := tick.firstPage_splits cursor walks
  have looks := walkPages_looks settings (tick.start cursor).length (.start tick.slots) (freeSlots tick.slots) split
    some_page
  have whole : tick.firstPage cursor ++ (tick.start cursor).drop (freeSlots tick.slots) = tick.start cursor := by
    rw [firstPage_eq, List.take_append_drop]
  rw [whole] at looks
  rw [paged, if_pos walks]
  exact looks

-- A tick examines more than the scan bound exactly when its first page is longer.
theorem examines_iff : tick.Examines settings cursor ↔ tick.Fits cursor := by
  by_cases walks : tick.walks cursor = true
  · have looks := tick.paged_looks settings cursor walks
    have page : (tick.firstPage cursor).length = min (freeSlots tick.slots) (tick.start cursor).length := by
      rw [firstPage_eq, List.length_take]
    have started := looks.started
    have bounded := looks.bounded
    have counted := looks.counted
    simp only [Walk.start, Nat.zero_add, page] at started bounded counted
    constructor
    · intro examines _
      have := examines.bounded
      omega
    · intro fits
      have fits := fits walks
      have inQueue := looks.inOrder.sublist.trans (tick.start_suffix cursor).sublist
      exact
        { fromQueue := inQueue
          inOrder := (List.pairwise_map (f := Prod.fst)).mp (tick.queue.fifo.sublist inQueue)
          counted := counted
          bounded := by omega
          held := fun entry member held =>
            ⟨held.1, held_of_shrinks settings _ _ _ _ (looks.shrinks entry member) held.2⟩ }
  · refine ⟨fun _ walked => absurd walked walks, fun _ => ?_⟩
    have idle : tick.paged settings cursor =
        { walk := .start tick.slots, events := [], reached := [], resumeAfter := none } := if_neg walks
    constructor <;> simp [idle, Walk.start]

-- The positions that a tick with this cursor still has in front of it.
def ahead (heads : List Position) : Option Position → List Position
  | none => heads
  | some after => heads.filter fun position => after < position

-- The tick commits, holds every row in front of the target, and could route the target.
structure Waits (heads : List Position) (target : Position) : Prop where
  enabled : tick.enabled = true
  fileserverOnline : tick.fileserverOnline = true
  commits : tick.commitRaises = false
  rows : ∃ before row behind backend, tick.queue.rows = before ++ row :: behind ∧
    before.map Queued.position = heads ∧ row.position = target ∧
    (∀ head ∈ before, HeldBySelection settings tick.slots head.candidate) ∧
    selectBackendWithReason settings row.candidate.row.updatedAt row.candidate.row.attempts tick.slots
      row.candidate.now row.candidate.budget = .ok backend

variable {tick cursor}

omit [DecidableEq File] in
theorem freeSlots_of_eligible {slots : List BackendSlot} {slot : BackendSlot} (member : slot ∈ slots)
    (eligible : slot.eligible = true) : freeSlots slots ≠ 0 := by
  intro none_free
  have each := List.sum_eq_zero_iff.mp none_free
  simp only [BackendSlot.eligible, Bool.and_eq_true, decide_eq_true_eq] at eligible
  have := each slot.remaining (List.mem_map.mpr ⟨slot, member, if_pos eligible.1⟩)
  omega

omit [DecidableEq File] in
theorem start_of_upto {before behind : List (Queued File)} {row : Queued File}
    (rows : tick.queue.rows = before ++ row :: behind) (upto : ∀ after, cursor = some after → after < row.position) :
    ∃ passed front, before = passed ++ front ∧ tick.start cursor = front ++ row :: behind ∧
      front.map Queued.position = ahead (before.map Queued.position) cursor := by
  cases cursor with
  | none => exact ⟨[], before, rfl, by simp [start, Queue.behind, rows], rfl⟩
  | some after =>
    have sorted := tick.queue.fifo
    rw [rows] at sorted
    obtain ⟨front, tail, -⟩ := List.pairwise_append.mp sorted
    have past := upto after rfl
    have rest : (row :: behind).filter (fun row => after < row.position) = row :: behind := by
      rw [List.filter_eq_self]
      intro other member
      rcases List.mem_cons.mp member with rfl | member
      · exact decide_eq_true past
      · exact decide_eq_true (past.trans ((List.pairwise_cons.mp tail).1 other member))
    obtain ⟨passed, split⟩ := filter_suffix front after
    refine ⟨passed, _, split.symm, ?_, ?_⟩
    · simp only [start, Queue.behind, rows, List.filter_append, rest]
      simp
    · simp only [ahead, List.filter_map]
      rfl

theorem waits_progress {heads : List Position} {target : Position} (waits : tick.Waits settings heads target)
    (upto : ∀ after, cursor = some after → after < target) :
    target ∈ (tick.paged settings cursor).reached.map (fun entry => entry.1.position) ∨
      ∃ after, tick.nextCursor settings cursor = some after ∧ after < target ∧
        (ahead heads (some after)).length + maxCandidateScan ≤ (ahead heads cursor).length := by
  obtain ⟨before, row, behind, backend, rows, rfl, rfl, held, routable⟩ := waits.rows
  obtain ⟨slot, member, eligible, -⟩ := select_eligible routable
  have free := freeSlots_of_eligible member eligible
  obtain ⟨passed, front, rfl, starts, inFront⟩ := start_of_upto rows upto
  have walks : tick.walks cursor = true :=
    (tick.walks_iff cursor).mpr ⟨waits.enabled, free, by simp [starts], waits.fileserverOnline⟩
  obtain ⟨pre, split, some_page⟩ := tick.firstPage_splits cursor walks
  have whole : tick.firstPage cursor ++ (tick.start cursor).drop (freeSlots tick.slots) = front ++ row :: behind := by
    rw [firstPage_eq, List.take_append_drop, starts]
  have full : (tick.firstPage cursor).length = freeSlots tick.slots ∨
      (tick.start cursor).drop (freeSlots tick.slots) = [] := by
    rw [firstPage_eq, List.drop_eq_nil_iff, List.length_take]
    omega
  have enough : ((tick.start cursor).drop (freeSlots tick.slots)).length < (tick.start cursor).length + 1 := by
    rw [List.length_drop]
    omega
  have paged : tick.paged settings cursor = walkPages settings tick.queue ((tick.start cursor).length + 1)
      (.start tick.slots) (tick.firstPage cursor) (freeSlots tick.slots) := if_pos walks
  have progress := walkPages_progress settings _ (.start tick.slots) split whole some_page full enough free
    fun head member => held head (List.mem_append_right _ member)
  rw [← paged] at progress
  rcases progress with found | ⟨skipped, left, rfl, some_skipped, spent, resumes, going⟩
  · left
    obtain ⟨entry, member, rfl⟩ := List.mem_map.mp found
    exact List.mem_map_of_mem member
  · right
    obtain ⟨position, last⟩ := lastPosition_isSome some_skipped
    have quiet : ∀ event : Event File, event.goesOn = false → event ∉ (tick.paged settings cursor).events := by
      intro event ends member
      rw [going event member] at ends
      cases ends
    have sorted := tick.queue.fifo
    rw [rows] at sorted
    obtain ⟨front, -, across⟩ := List.pairwise_append.mp sorted
    refine ⟨position, ?_, ?_, ?_⟩
    · rw [← last, ← resumes]
      have page : tick.firstPage cursor ≠ [] := some_page
      simp [nextCursor, waits.enabled, waits.fileserverOnline, waits.commits, free, page, quiet .aborted rfl,
        quiet .poisoned rfl]
    · obtain ⟨row', member, rfl⟩ : ∃ row' ∈ skipped, row'.position = position := by
        simp only [lastPosition, Option.map_eq_some_iff] at last
        obtain ⟨row', found, same⟩ := last
        exact ⟨row', List.mem_of_getLast? found, same⟩
      exact across row' (by simp [member]) row List.mem_cons_self
    · rw [← inFront, ahead, List.filter_map]
      rw [← List.append_assoc] at front
      have kept : (passed ++ skipped ++ left).filter ((fun other => decide (position < other)) ∘ Queued.position) =
          left := filter_lastPosition front last
      rw [← List.append_assoc, kept, List.length_map, List.length_map, List.length_append]
      simp only [Walk.start, Nat.zero_add] at spent
      omega

end QueueTick

theorem visits_reach {heads : List Position} {target : Position} (ticks : List (QueueTick File))
    (cursor : Option Position) (waits : ∀ tick ∈ ticks, tick.Waits settings heads target)
    (upto : ∀ after, cursor = some after → after < target)
    (long : (QueueTick.ahead heads cursor).length < maxCandidateScan * ticks.length) :
    ∃ visit ∈ visits settings cursor ticks,
      target ∈ (visit.1.paged settings visit.2).reached.map fun entry => entry.1.position := by
  induction ticks generalizing cursor with
  | nil => cases long
  | cons tick rest ih =>
    rcases QueueTick.waits_progress settings (waits tick List.mem_cons_self) upto with found | ⟨after, next, past, fewer⟩
    · exact ⟨(tick, cursor), List.mem_cons_self, found⟩
    · obtain ⟨visit, member, found⟩ := ih (some after) (fun other member => waits other (List.mem_cons_of_mem _ member))
        (by rintro _ ⟨⟩; exact past) (by rw [List.length_cons, Nat.mul_add] at long; omega)
      refine ⟨visit, ?_, found⟩
      rw [visits, next]
      exact List.mem_cons_of_mem _ member

/-- In every run of ticks each of them walks the queue in order, once and within the scan bound, exactly when
its first page does; and a row that is not behind the cursor is reached once the rows in front of it are walked. -/
theorem ticks_walk_the_queue (ticks : List (QueueTick File)) (cursor : Option Position) :
    (∀ visit ∈ visits settings cursor ticks, visit.1.Examines settings visit.2 ↔ visit.1.Fits visit.2) ∧
      ∀ heads target, (∀ tick ∈ ticks, tick.Waits settings heads target) →
        (∀ after, cursor = some after → after < target) →
        ticks.length = heads.length ⌈/⌉ maxCandidateScan + 1 →
        ∃ visit ∈ visits settings cursor ticks,
          target ∈ (visit.1.paged settings visit.2).reached.map fun entry => entry.1.position := by
  refine ⟨fun visit _ => visit.1.examines_iff settings visit.2, fun heads target waits upto length => ?_⟩
  refine visits_reach settings ticks cursor waits upto ?_
  have shorter : (QueueTick.ahead heads cursor).length ≤ heads.length := by
    cases cursor with
    | none => exact le_rfl
    | some after => exact List.length_filter_le _ _
  rw [length, Nat.ceilDiv_eq_add_pred_div]
  simp only [maxCandidateScan]
  omega

end Ticks

/-! ## One kueue backend -/

namespace Line

def settings : Settings :=
  { cloudSubmitMaxAttempts := 3
    cloudSpillToLocalAfterSeconds := 3600
    cloudBudgetMaxChains := 0
    cloudBudgetMaxNodeLoss := 0
    cloudBudgetCooldownDays := 0 }

def queued (file attempts : Nat) : Queued Nat :=
  { position := toLex (0, file)
    candidate :=
      { file := file
        row := { CloudJob.fresh .awaiting 0 with attempts := attempts }
        budget := none
        now := 0
        readsRaise := false
        eligible := true
        s3Key := "key"
        upload := "upload"
        bucket := "bucket"
        writtenAt := 0
        failure := none
        localOutcome := .staged } }

def tick (free : Nat) (queue : Queue Nat) : QueueTick Nat :=
  { enabled := true
    fileserverOnline := true
    slots := [{ backend := { id := "kueue", kind := .kueue, rank := 1, cap := 999 }, available := true,
                remaining := free }]
    queue := queue
    commitRaises := false
    abortedCommitRaises := true }

-- A file whose attempts are spent, and a fresh one behind it.
def spentFirst : Queue Nat :=
  { rows := [queued 1 3, queued 2 0], fifo := by decide }

theorem held_head_is_passed :
    ∃ visit ∈ visits settings none [tick 1 spentFirst, tick 1 spentFirst],
      toLex (0, 2) ∈ (visit.1.paged settings visit.2).reached.map fun entry => entry.1.position := by
  have waits : (tick 1 spentFirst).Waits settings [toLex (0, 1)] (toLex (0, 2)) :=
    { enabled := rfl
      fileserverOnline := rfl
      commits := rfl
      rows := ⟨[queued 1 3], queued 2 0, [], { id := "kueue", kind := .kueue, rank := 1, cap := 999 }, rfl, rfl, rfl,
        by simp only [List.mem_singleton, forall_eq]; exact ⟨rfl, _, rfl⟩, rfl⟩ }
  exact (ticks_walk_the_queue settings [tick 1 spentFirst, tick 1 spentFirst] none).2 [toLex (0, 1)] (toLex (0, 2))
    (by simp [waits]) (by simp) (by decide)

-- Files whose attempts are spent.
def spent (count : Nat) : Queue Nat :=
  { rows := (List.range count).map fun file => queued file 3
    fifo := by
      rw [List.pairwise_map]
      refine List.pairwise_lt_range.imp ?_
      intro first second order
      exact Prod.Lex.toLex_lt_toLex.mpr (.inr ⟨rfl, order⟩) }

def freshFirst : Queue Nat :=
  { rows := [queued 1 0, queued 2 3], fifo := by decide }

-- With 501 slots free a tick examines 501 rows, and a row behind the cursor is not in the first tick.
theorem wide_tick_overruns :
    maxCandidateScan < ((tick 501 (spent 501)).paged settings none).walk.scanned ∧
      (tick 1 freshFirst).Waits settings [] (toLex (0, 1)) ∧
      (visits settings (some (toLex (0, 1))) [tick 1 freshFirst]).map (fun visit =>
        (visit.1.paged settings visit.2).reached.map fun entry => entry.1.position) = [[toLex (0, 2)]] := by
  refine ⟨?_, ?_, rfl⟩
  · have start : (tick 501 (spent 501)).start none = (spent 501).rows := by simp [QueueTick.start, Queue.behind, tick]
    have length : (spent 501).rows.length = 501 := by simp [spent]
    have walks : (tick 501 (spent 501)).walks none = true := by
      rw [QueueTick.walks_iff, start]
      exact ⟨rfl, by decide, by simp [← List.length_pos_iff, length], rfl⟩
    have started := (QueueTick.paged_looks settings _ none walks).started
    rw [QueueTick.firstPage_eq, start, List.length_take, length] at started
    exact started
  · exact
      { enabled := rfl
        fileserverOnline := rfl
        commits := rfl
        rows := ⟨[], queued 1 0, [queued 2 3], { id := "kueue", kind := .kueue, rank := 1, cap := 999 }, rfl, rfl, rfl,
          by simp, rfl⟩ }

end Line

end Phaze.Drain
