import Phaze.Drain.Tick

set_option autoImplicit false

/-!
# What a tick writes

What a dispatch leaves in the transaction, and what the walk has written and parked for each of its
candidates. Every write and every parked enqueue belongs to a dispatch that went through, or to one
that raised after its upsert.
-/

namespace Phaze.Drain

open Phaze.Cloud

variable {File : Type}

def Event.file : Event File → Option File
  | .held file | .dispatched file | .raised file _ => some file
  | .vanished | .poisoned | .aborted => none

/-! ## A dispatch -/

theorem dispatchDraft_of_failure {candidate : Candidate File} {failure : Failure}
    (failed : candidate.failure = some failure) (backend : Backend) :
    dispatchDraft candidate backend =
      (if failure.step ∈ steps backend.kind then (steps backend.kind).takeWhile (· ≠ failure.step) else []).foldl
        (perform candidate backend) { row := candidate.row, written := false, parked := false } := by
  simp only [dispatchDraft, performed, failed]

-- Before the upsert nothing is written or parked; from the upsert on the row is in flight.
theorem dispatchDraft_cases (candidate : Candidate File) {backend : Backend} (cloud : backend.kind ≠ .localLane) :
    ((dispatchDraft candidate backend).written = false ∧ (dispatchDraft candidate backend).parked = false) ∨
      ((dispatchDraft candidate backend).written = true ∧
        inFlight (dispatchDraft candidate backend).row.status = true) := by
  obtain ⟨id, kind, rank, cap⟩ := backend
  cases failed : candidate.failure with
  | none =>
    right
    unfold dispatchDraft performed
    rw [failed]
    cases kind with
    | localLane => exact absurd rfl cloud
    | kueue | compute => exact ⟨rfl, rfl⟩
  | some failure =>
    rw [dispatchDraft_of_failure failed]
    cases kind with
    | localLane => exact absurd rfl cloud
    | kueue | compute =>
      cases failure.step <;> first | exact .inl ⟨rfl, rfl⟩ | exact .inr ⟨rfl, rfl⟩

theorem dispatchDraft_of_sound {candidate : Candidate File} {backend : Backend}
    (cloud : backend.kind ≠ .localLane) (sound : candidate.failure = none) :
    (dispatchDraft candidate backend).written = true := by
  obtain ⟨id, kind, rank, cap⟩ := backend
  unfold dispatchDraft performed
  rw [sound]
  cases kind with
  | localLane => exact absurd rfl cloud
  | kueue | compute => rfl

-- It is the row of the dispatch.
theorem dispatchDraft_backendId {candidate : Candidate File} {backend : Backend}
    (cloud : backend.kind ≠ .localLane) (sound : candidate.failure = none) :
    (dispatchDraft candidate backend).row.backendId = some backend.id := by
  obtain ⟨id, kind, rank, cap⟩ := backend
  unfold dispatchDraft performed
  rw [sound]
  cases kind with
  | localLane => exact absurd rfl cloud
  | kueue | compute => rfl

theorem dispatchDraft_of_noActiveAgent {candidate : Candidate File} {backend : Backend}
    (cloud : backend.kind ≠ .localLane) (failed : candidate.failure = some .noActiveAgent) :
    (dispatchDraft candidate backend).written = false ∧ (dispatchDraft candidate backend).parked = false := by
  obtain ⟨id, kind, rank, cap⟩ := backend
  rw [dispatchDraft_of_failure failed]
  cases kind with
  | localLane => exact absurd rfl cloud
  | kueue | compute => exact ⟨rfl, rfl⟩

theorem write_unwritten (walk : Walk File) (file : File) (kind : BackendKind) {draft : Draft}
    (unwritten : draft.written = false) (unparked : draft.parked = false) : walk.write file kind draft = walk := by
  simp [Walk.write, unwritten, unparked]

-- A dispatch that raised before its upsert left the transaction alone.
theorem stageCloud_of_raises {candidate : Candidate File} {step : Step} {backend : Backend} (walk : Walk File)
    (held : Nat) (cloud : backend.kind ≠ .localLane) (failed : candidate.failure = some (.raises step))
    (early : (stageCloud walk candidate backend held).2 ≠ .raised candidate.file true) :
    stageCloud walk candidate backend held = (walk.skip 1, .raised candidate.file false) := by
  simp only [stageCloud, failed, ne_eq, Event.raised.injEq, true_and, Bool.not_eq_true] at early ⊢
  obtain ⟨unwritten, unparked⟩ | ⟨written, -⟩ := dispatchDraft_cases candidate cloud
  · rw [write_unwritten walk candidate.file backend.kind unwritten unparked, unwritten]
  · rw [written] at early
    cases early

/-! ## A page -/

section Page

variable (settings : Settings)

theorem stageCandidate_file (walk : Walk File) (candidate : Candidate File) (held : Nat) :
    (stageCandidate settings walk candidate held).2.file = some candidate.file ∨
      (stageCandidate settings walk candidate held).2.file = none := by
  unfold stageCandidate stageLocal stageCloud
  grind [Event.file]

-- Whether the walk of the page goes on after the event.
def Event.goesOn : Event File → Bool
  | .held _ | .dispatched _ | .raised .. => true
  | .vanished | .poisoned | .aborted => false

-- The events of a page that ends at this one.
def Event.ending (event : Event File) (last : Bool) : List (Event File) :=
  match event with
  | .poisoned => if last then [.poisoned] else [.poisoned, .aborted]
  | event => [event]

theorem file_of_goesOn {event : Event File} {file : File} (goes : event.goesOn = true)
    (named : event.file = some file ∨ event.file = none) : event.file = some file := by
  cases event <;> simp_all [Event.goesOn, Event.file]

theorem Event.ending_files {event : Event File} {last : Bool} (ends : event.goesOn = false) :
    (event.ending last).filterMap Event.file = [] := by
  cases event <;> cases last <;> first | rfl | cases ends

theorem stageCandidatePage_cons (walk : Walk File) (candidate : Candidate File) (rest : List (Candidate File)) :
    stageCandidatePage settings walk (candidate :: rest) =
      let staged := stageCandidate settings walk candidate (rest.length + 1)
      if staged.2.goesOn then
        ((stageCandidatePage settings staged.1 rest).1, staged.2 :: (stageCandidatePage settings staged.1 rest).2)
      else (staged.1, staged.2.ending rest.isEmpty) := by
  rw [stageCandidatePage]
  cases event : (stageCandidate settings walk candidate (rest.length + 1)).2 <;>
    simp [event, Event.goesOn, Event.ending]

-- The events name the candidates in the order of the queue.
theorem stageCandidatePage_files (walk : Walk File) (page : List (Candidate File)) :
    ((stageCandidatePage settings walk page).2.filterMap Event.file).Sublist (page.map Candidate.file) := by
  induction page generalizing walk with
  | nil => exact List.Sublist.refl _
  | cons candidate rest ih =>
    rw [stageCandidatePage_cons]
    dsimp only
    split
    next goes =>
      have named := file_of_goesOn goes (stageCandidate_file settings walk candidate (rest.length + 1))
      rw [List.filterMap_cons, named, List.map_cons]
      exact List.Sublist.cons_cons _ (ih _)
    next ends =>
      rw [Event.ending_files (by simpa using ends)]
      exact List.nil_sublist _

end Page

/-! ## What the walk has written -/

-- Each write and each parked enqueue belongs to a dispatch that went through, or to one that raised late.
structure Accounts (walk : Walk File) (events : List (Event File)) : Prop where
  flying : ∀ write ∈ walk.writes, inFlight write.2.status = true
  writes : ∀ write ∈ walk.writes, .dispatched write.1 ∈ events ∨ .raised write.1 true ∈ events
  parked : ∀ park ∈ walk.parked, .dispatched park.1 ∈ events ∨ .raised park.1 true ∈ events
  late : ∀ file, .raised file true ∈ events → ∃ row, (file, row) ∈ walk.writes

section Accounting

variable {settings : Settings} {walk : Walk File} {events : List (Event File)}

-- A candidate that leaves the transaction alone.
theorem Accounts.pass (accounts : Accounts walk events) {next : Walk File} {event : Event File}
    (sameWrites : next.writes = walk.writes) (sameParked : next.parked = walk.parked)
    (early : ∀ file, event ≠ .raised file true) : Accounts next (events ++ [event]) := by
  refine ⟨?_, ?_, ?_, fun file member => ?_⟩
  · rw [sameWrites]
    exact accounts.flying
  · intro write member
    rw [sameWrites] at member
    rcases accounts.writes write member with dispatched | raised
    · exact .inl (List.mem_append_left _ dispatched)
    · exact .inr (List.mem_append_left _ raised)
  · intro park member
    rw [sameParked] at member
    rcases accounts.parked park member with dispatched | raised
    · exact .inl (List.mem_append_left _ dispatched)
    · exact .inr (List.mem_append_left _ raised)
  · rcases List.mem_append.mp member with before | now
    · rw [sameWrites]
      exact accounts.late file before
    · exact absurd (List.mem_singleton.mp now).symm (early file)

-- A dispatch that wrote the candidate's row.
theorem Accounts.write (accounts : Accounts walk events) {next : Walk File} {event : Event File} {file : File}
    {kind : BackendKind} {draft : Draft} (written : draft.written = true)
    (flying : inFlight draft.row.status = true)
    (nextWrites : next.writes = (walk.write file kind draft).writes)
    (nextParked : next.parked = (walk.write file kind draft).parked)
    (mine : event = .dispatched file ∨ event = .raised file true) : Accounts next (events ++ [event]) := by
  have here : .dispatched file ∈ events ++ [event] ∨ .raised file true ∈ events ++ [event] := by
    rcases mine with rfl | rfl <;> simp
  have wrote : next.writes = walk.writes ++ [(file, draft.row)] := by
    rw [nextWrites]
    simp [Walk.write, written]
  refine ⟨fun write member => ?_, fun write member => ?_, fun park member => ?_, fun other member => ?_⟩
  · rw [wrote, List.mem_append, List.mem_singleton] at member
    rcases member with before | rfl
    · exact accounts.flying write before
    · exact flying
  · rw [wrote, List.mem_append, List.mem_singleton] at member
    rcases member with before | rfl
    · exact (accounts.writes write before).imp (List.mem_append_left _) (List.mem_append_left _)
    · exact here
  · have parks : park ∈ walk.parked ∨ park.1 = file := by
      rw [nextParked, Walk.write] at member
      dsimp only at member
      split at member
      · rw [List.mem_append, List.mem_singleton] at member
        exact member.imp id fun same => congrArg Prod.fst same
      · exact .inl member
    rcases parks with before | rfl
    · exact (accounts.parked park before).imp (List.mem_append_left _) (List.mem_append_left _)
    · exact here
  · rw [wrote]
    rcases List.mem_append.mp member with before | now
    · obtain ⟨row, member⟩ := accounts.late other before
      exact ⟨row, List.mem_append_left _ member⟩
    · rw [List.mem_singleton] at now
      rcases mine with rfl | rfl
      · cases now
      · cases now
        exact ⟨draft.row, by simp⟩

theorem stageCloud_accounts (accounts : Accounts walk events) {candidate : Candidate File} {backend : Backend}
    {held : Nat} (cloud : backend.kind ≠ .localLane)
    (sound : (stageCloud walk candidate backend held).2 ≠ .poisoned) :
    Accounts (stageCloud walk candidate backend held).1 (events ++ [(stageCloud walk candidate backend held).2]) := by
  have drafts := dispatchDraft_cases candidate cloud
  unfold stageCloud at sound ⊢
  cases failed : candidate.failure with
  | none =>
    have written := dispatchDraft_of_sound cloud failed
    rcases drafts with ⟨unwritten, -⟩ | ⟨-, flying⟩
    · rw [unwritten] at written
      cases written
    · exact accounts.write written flying rfl rfl (.inl rfl)
  | some failure =>
    cases failure with
    | noActiveAgent =>
      obtain ⟨unwritten, unparked⟩ := dispatchDraft_of_noActiveAgent cloud failed
      dsimp only
      rw [write_unwritten walk candidate.file backend.kind unwritten unparked]
      exact accounts.pass rfl rfl (by simp)
    | poisons step => simp [failed] at sound
    | raises step =>
      dsimp only
      rcases drafts with ⟨unwritten, unparked⟩ | ⟨written, flying⟩
      · rw [write_unwritten walk candidate.file backend.kind unwritten unparked, unwritten]
        exact accounts.pass rfl rfl (by simp)
      · rw [written]
        exact accounts.write written flying rfl rfl (.inr rfl)

theorem stageCandidate_accounts (accounts : Accounts walk events) {candidate : Candidate File} {held : Nat}
    (sound : (stageCandidate settings walk candidate held).2 ≠ .poisoned) :
    Accounts (stageCandidate settings walk candidate held).1
      (events ++ [(stageCandidate settings walk candidate held).2]) := by
  unfold stageCandidate at sound ⊢
  split
  · exact accounts.pass rfl rfl (by simp)
  split
  · exact accounts.pass rfl rfl (by simp)
  rename_i reads _ backend selected
  split
  · unfold stageLocal
    split
    · exact accounts.pass rfl rfl (by simp)
    · exact accounts.pass rfl rfl (by simp)
    · exact accounts.pass rfl rfl (by simp)
    · exact accounts.pass rfl rfl (by simp)
  rename_i cloud
  split
  · rename_i eligible
    simp only [reads, selected, cloud, eligible, Bool.false_eq_true, if_false, if_true] at sound
    exact stageCloud_accounts accounts cloud sound
  · exact accounts.pass rfl rfl (by simp)

theorem stageCandidatePage_accounts (accounts : Accounts walk events) (page : List (Candidate File))
    (sound : .poisoned ∉ (stageCandidatePage settings walk page).2) :
    Accounts (stageCandidatePage settings walk page).1
      (events ++ (stageCandidatePage settings walk page).2) := by
  induction page generalizing walk events with
  | nil => simpa [stageCandidatePage] using accounts
  | cons candidate rest ih =>
    rw [stageCandidatePage_cons] at sound ⊢
    dsimp only at sound ⊢
    split at sound
    next goes =>
      rw [if_pos goes]
      rw [List.mem_cons, not_or] at sound
      have first := stageCandidate_accounts accounts (Ne.symm sound.1)
      simpa using ih first sound.2
    next ends =>
      rw [if_neg ends]
      have first : (stageCandidate settings walk candidate (rest.length + 1)).2 ≠ .poisoned := by
        intro poisoned
        refine sound ?_
        rw [poisoned]
        cases rest.isEmpty <;> simp [Event.ending]
      have single : (stageCandidate settings walk candidate (rest.length + 1)).2.ending rest.isEmpty =
          [(stageCandidate settings walk candidate (rest.length + 1)).2] := by
        unfold Event.ending
        split
        next poisoned => exact absurd poisoned first
        next => rfl
      rw [single]
      exact stageCandidate_accounts accounts first

end Accounting

section Pages

variable [DecidableEq File] (settings : Settings)

theorem walkCandidatePages_succ (fuel : Nat) (walk : Walk File) (page : List (Candidate File))
    (pageLimit : Nat) (rest : List (Candidate File)) :
    walkCandidatePages settings (fuel + 1) walk page pageLimit rest =
      let staged := stageCandidatePage settings { walk with scanned := walk.scanned + page.length } page
      match nextCandidatePage staged.1 staged.2 page.length pageLimit rest.isEmpty with
      | .stop => staged
      | .abort => (staged.1, staged.2 ++ [.aborted])
      | .page limit =>
          let later := walkCandidatePages settings fuel staged.1 (rest.take limit) limit (rest.drop limit)
          (later.1, staged.2 ++ later.2) := rfl

omit settings in
theorem nextCandidatePage_limit {walk : Walk File} {events : List (Event File)} {pageLength pageLimit limit : Nat}
    {last : Bool} (next : nextCandidatePage walk events pageLength pageLimit last = .page limit) :
    0 < limit ∧ last = false := by
  unfold nextCandidatePage at next
  split at next
  · cases next
  split at next
  · cases next
  next open_ =>
    split at next
    · cases next
    split at next
    · cases next
    next more =>
      cases next
      simp only [not_or, Nat.not_le] at open_
      refine ⟨?_, by simpa using more⟩
      simp only [minCandidatePage]
      omega

/-- Each page takes a candidate, so the walk never runs out of fuel. -/
theorem walkCandidatePages_fuel (fuel : Nat) (walk : Walk File) (page : List (Candidate File)) (pageLimit : Nat)
    (rest : List (Candidate File)) (enough : rest.length < fuel) :
    walkCandidatePages settings (fuel + 1) walk page pageLimit rest =
      walkCandidatePages settings fuel walk page pageLimit rest := by
  induction fuel generalizing walk page pageLimit rest with
  | zero => cases enough
  | succ fuel ih =>
    rw [walkCandidatePages_succ, walkCandidatePages_succ]
    dsimp only
    split
    · rfl
    · rfl
    next limit next =>
      obtain ⟨positive, more⟩ := nextCandidatePage_limit next
      have queued : rest ≠ [] := by simpa using more
      have behind : (rest.drop limit).length < fuel := by
        have some := List.length_pos_iff.mpr queued
        rw [List.length_drop]
        omega
      rw [ih _ _ limit _ behind]

theorem walkCandidatePages_accounts (fuel : Nat) {walk : Walk File} {events : List (Event File)}
    (accounts : Accounts walk events) (page : List (Candidate File)) (pageLimit : Nat)
    (rest : List (Candidate File))
    (sound : .poisoned ∉ (walkCandidatePages settings fuel walk page pageLimit rest).2) :
    Accounts (walkCandidatePages settings fuel walk page pageLimit rest).1
      (events ++ (walkCandidatePages settings fuel walk page pageLimit rest).2) := by
  induction fuel generalizing walk events page pageLimit rest with
  | zero => simpa [walkCandidatePages] using accounts
  | succ fuel ih =>
    rw [walkCandidatePages_succ] at sound ⊢
    have scanned : Accounts { walk with scanned := walk.scanned + page.length } events :=
      ⟨accounts.flying, accounts.writes, accounts.parked, accounts.late⟩
    set staged := stageCandidatePage settings { walk with scanned := walk.scanned + page.length } page
      with stagedDefined
    dsimp only at sound ⊢
    have first : .poisoned ∉ staged.2 := by
      intro member
      refine sound ?_
      split <;> simp [member]
    have paged : Accounts staged.1 (events ++ staged.2) := stageCandidatePage_accounts scanned page first
    cases next : nextCandidatePage staged.1 staged.2 page.length pageLimit rest.isEmpty with
    | stop => exact paged
    | abort =>
      rw [← List.append_assoc]
      exact paged.pass rfl rfl (by simp)
    | page limit =>
      simp only [next, List.mem_append, not_or] at sound
      rw [← List.append_assoc]
      exact ih paged _ limit _ sound.2

theorem walkCandidatePages_files (fuel : Nat) (walk : Walk File) (page : List (Candidate File)) (pageLimit : Nat)
    (rest : List (Candidate File)) :
    ((walkCandidatePages settings fuel walk page pageLimit rest).2.filterMap Event.file).Sublist
      ((page ++ rest).map Candidate.file) := by
  induction fuel generalizing walk page pageLimit rest with
  | zero => exact List.nil_sublist _
  | succ fuel ih =>
    rw [walkCandidatePages_succ, List.map_append]
    have paged := stageCandidatePage_files settings { walk with scanned := walk.scanned + page.length } page
    dsimp only
    split
    · exact paged.trans (List.sublist_append_left _ _)
    · have unnamed : [(Event.aborted : Event File)].filterMap Event.file = [] := rfl
      rw [List.filterMap_append, unnamed, List.append_nil]
      exact paged.trans (List.sublist_append_left _ _)
    next limit next =>
      rw [List.filterMap_append]
      refine paged.append ?_
      simpa using ih _ (rest.take limit) limit (rest.drop limit)

theorem lookup_commitWrites_of_not_mem {file : File} (writes : List (File × CloudJob))
    (absent : ∀ write ∈ writes, write.1 ≠ file) (table : Table File CloudJob) :
    (commitWrites table writes).lookup file = table.lookup file := by
  induction writes generalizing table with
  | nil => rfl
  | cons write rest ih =>
    rw [commitWrites, List.foldl_cons]
    have later := ih (fun other member => absent other (List.mem_cons_of_mem _ member))
      (table.insert write.1 write.2)
    rw [commitWrites] at later
    rw [later, Finmap.lookup_insert_of_ne _ (absent write List.mem_cons_self).symm]

theorem lookup_commitWrites_of_mem {file : File} (writes : List (File × CloudJob))
    (present : ∃ row, (file, row) ∈ writes) (table : Table File CloudJob) :
    ∃ row, (file, row) ∈ writes ∧ (commitWrites table writes).lookup file = some row := by
  induction writes generalizing table with
  | nil => simp at present
  | cons write rest ih =>
    by_cases later : ∃ row, (file, row) ∈ rest
    · obtain ⟨row, member, found⟩ := ih later (table.insert write.1 write.2)
      exact ⟨row, List.mem_cons_of_mem _ member, found⟩
    · obtain ⟨row, member⟩ := present
      rcases List.mem_cons.mp member with rfl | member
      · refine ⟨row, List.mem_cons_self, ?_⟩
        rw [commitWrites, List.foldl_cons]
        have absent : ∀ other ∈ rest, other.1 ≠ file := by
          rintro ⟨named, other⟩ below same
          dsimp only at same
          subst same
          exact later ⟨other, below⟩
        have rests := lookup_commitWrites_of_not_mem rest absent (table.insert file row)
        rw [commitWrites] at rests
        rw [rests, Finmap.lookup_insert]
      · exact absurd ⟨row, member⟩ later

end Pages

end Phaze.Drain
