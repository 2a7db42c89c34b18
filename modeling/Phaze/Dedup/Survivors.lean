import Phaze.Dedup.Sessions
import Phaze.Shared.Links

/-!
# Every group keeps a survivor

The rows committed and in flight, taken together, never form a loop: a session
points its rows at a keeper that has no row in any session, because the advisory
lock keeps every other writer out of the group until the session is over.
-/

set_option autoImplicit false

namespace Phaze.Dedup

open Phaze.Shared

/-! ## The invariant -/

-- A row of `dedup_resolution`, committed or written by a session still open.
def Linked (state : State) (id canonicalId : Uuid) : Prop :=
  state.markers id = some canonicalId ∨
    ∃ session, (id, canonicalId) ∈ (state.sessions session).written

def Member (files : List FileRecord) (group : String) (id : Uuid) : Prop :=
  ∃ file ∈ files, file.id = id ∧ file.sha256Hash = group ∧ dedupPopulation file = true

def Keeper (state : State) (session : SessionId) (call : Call) : Prop :=
  Member state.files call.groupHash call.canonicalId ∧
    state.markers call.canonicalId = none ∧
    ∀ canonicalId, (call.canonicalId, canonicalId) ∉ (state.sessions session).written

section Invariant

variable (hashtext : String → BitVec 32)

def Holds (state : State) (session : SessionId) (group : String) : Prop :=
  state.advisory (hashtext group) = some session

def StageOk (state : State) (session : SessionId) : Stage → Prop
  | .idle _ => True
  | .locked call => Holds hashtext state session call.groupHash
  | .frozen call => Holds hashtext state session call.groupHash
  | .ready call => Holds hashtext state session call.groupHash
  | .checked call => Holds hashtext state session call.groupHash ∧ Keeper state session call
  | .selected call members =>
    Holds hashtext state session call.groupHash ∧ Keeper state session call ∧
      ∀ file ∈ members, Member state.files call.groupHash file.id ∧ file.id ≠ call.canonicalId

structure Inv (state : State) : Prop where
  ids : (state.files.map (·.id)).Nodup
  ends : Ends (Linked state)
  same : ∀ id canonicalId, Linked state id canonicalId →
    ∃ group, Member state.files group id ∧ Member state.files group canonicalId
  held : ∀ session row, row ∈ (state.sessions session).written →
    ∃ group, Member state.files group row.1 ∧ Holds hashtext state session group
  stages : ∀ session, StageOk hashtext state session (state.sessions session).stage

end Invariant

theorem Member.mono {files more : List FileRecord} {group : String} {id : Uuid}
    (grown : ∀ file ∈ files, file ∈ more) (member : Member files group id) :
    Member more group id := by
  obtain ⟨file, present, facts⟩ := member
  exact ⟨file, grown file present, facts⟩

theorem Member.group_unique {files : List FileRecord} {group other : String} {id : Uuid}
    (ids : (files.map (·.id)).Nodup) (member : Member files group id)
    (elsewhere : Member files other id) : group = other := by
  obtain ⟨file, present, sameId, rfl, -⟩ := member
  obtain ⟨twin, twinPresent, twinId, rfl, -⟩ := elsewhere
  have one : file = twin :=
    List.inj_on_of_nodup_map ids present twinPresent (sameId.trans twinId.symm)
  rw [one]

theorem member_of_unresolved {files : List FileRecord} {markers : Markers} {group : String}
    {file : FileRecord} (present : file ∈ files)
    (unresolved : unresolvedMember markers group file = true) : Member files group file.id := by
  have facts := (unresolvedMember_iff markers group file).mp unresolved
  exact ⟨file, present, rfl, facts.1, facts.2.1⟩

section Preservation

variable {hashtext : String → BitVec 32} {parseUuid : String → Option Uuid} {state : State}

theorem Inv.initial : Inv hashtext State.initial where
  ids := List.nodup_nil
  ends := by
    refine ⟨fun id => ⟨_, fun next pointed => ?_⟩⟩
    simp [Linked, State.initial, noMarkers, Session.new] at pointed
  same := by simp [Linked, State.initial, noMarkers, Session.new]
  held := by simp [State.initial, Session.new]
  stages := fun _ => trivial

-- The lock at work: a row in a group is written by nobody but its holder.
theorem Inv.writer (inv : Inv hashtext state) {session other : SessionId} {group : String}
    {id canonicalId : Uuid} (holds : Holds hashtext state session group)
    (member : Member state.files group id)
    (written : (id, canonicalId) ∈ (state.sessions other).written) : other = session := by
  obtain ⟨written_group, written_member, otherHolds⟩ := inv.held other _ written
  obtain rfl := member.group_unique inv.ids written_member
  exact Option.some.inj (otherHolds.symm.trans holds)

theorem Inv.keeper_unlinked (inv : Inv hashtext state) {session : SessionId} {call : Call}
    (holds : Holds hashtext state session call.groupHash) (keeper : Keeper state session call)
    (canonicalId : Uuid) : ¬ Linked state call.canonicalId canonicalId := by
  obtain ⟨member, unmarked, unwritten⟩ := keeper
  rintro (marked | ⟨other, written⟩)
  · exact absurd (unmarked.symm.trans marked) (by simp)
  · obtain rfl := inv.writer holds member written
    exact unwritten canonicalId written

-- What the rest of the system may do to a session that is in the middle of a call.
structure Undisturbed (hashtext : String → BitVec 32) (state next : State)
    (session : SessionId) : Prop where
  files : ∀ file ∈ state.files, file ∈ next.files
  lock : ∀ group, Holds hashtext state session group → Holds hashtext next session group
  unmarked : ∀ group id, Holds hashtext state session group → Member state.files group id →
    state.markers id = none → next.markers id = none
  written : (next.sessions session).written = (state.sessions session).written

theorem Undisturbed.keeper {next : State} {session : SessionId} {call : Call}
    (calm : Undisturbed hashtext state next session)
    (holds : Holds hashtext state session call.groupHash) (keeper : Keeper state session call) :
    Keeper next session call := by
  obtain ⟨member, unmarked, unwritten⟩ := keeper
  exact ⟨member.mono calm.files, calm.unmarked _ _ holds member unmarked,
    by rw [calm.written]; exact unwritten⟩

theorem Undisturbed.stage {next : State} {session : SessionId}
    (calm : Undisturbed hashtext state next session) (stage : Stage)
    (ok : StageOk hashtext state session stage) : StageOk hashtext next session stage := by
  cases stage with
  | idle reply => trivial
  | locked call => exact calm.lock _ ok
  | frozen call => exact calm.lock _ ok
  | ready call => exact calm.lock _ ok
  | checked call => exact ⟨calm.lock _ ok.1, calm.keeper ok.1 ok.2⟩
  | selected call members =>
    obtain ⟨holds, keeper, selected⟩ := ok
    refine ⟨calm.lock _ holds, calm.keeper holds keeper, fun file present => ?_⟩
    exact ⟨(selected file present).1.mono calm.files, (selected file present).2⟩

/-! ## One statement keeps the invariant -/

-- Every statement but the `INSERT` leaves no row that was not there before.
theorem Inv.of_fewer {next : State} (inv : Inv hashtext state)
    (grown : ∀ file ∈ state.files, file ∈ next.files) (ids : (next.files.map (·.id)).Nodup)
    (fewer : ∀ id canonicalId, Linked next id canonicalId → Linked state id canonicalId)
    (rows : ∀ session row, row ∈ (next.sessions session).written →
      row ∈ (state.sessions session).written ∧
        ∀ group, Holds hashtext state session group → Holds hashtext next session group)
    (stages : ∀ session, StageOk hashtext next session (next.sessions session).stage) :
    Inv hashtext next where
  ids := ids
  ends := inv.ends.mono fewer
  same := by
    intro id canonicalId linked
    obtain ⟨group, member, keeper⟩ := inv.same id canonicalId (fewer id canonicalId linked)
    exact ⟨group, member.mono grown, keeper.mono grown⟩
  held := by
    intro session row written
    obtain ⟨before, keeps⟩ := rows session row written
    obtain ⟨group, member, holds⟩ := inv.held session row before
    exact ⟨group, member.mono grown, keeps group holds⟩
  stages := stages

theorem linked_setStage {session : SessionId} {stage : Stage} {id canonicalId : Uuid} :
    Linked (state.setStage session stage) id canonicalId ↔ Linked state id canonicalId := by
  simp [Linked]

theorem Inv.setStage (inv : Inv hashtext state) {session : SessionId} {stage : Stage}
    (ok : StageOk hashtext state session stage) : Inv hashtext (state.setStage session stage) := by
  have calm : ∀ other, Undisturbed hashtext state (state.setStage session stage) other := by
    intro other
    exact ⟨fun _ present => present, fun _ holds => holds, fun _ _ _ _ unmarked => unmarked,
      State.setStage_written state session other stage⟩
  refine inv.of_fewer (fun _ present => present) inv.ids
    (fun _ _ linked => linked_setStage.mp linked) ?_ ?_
  · intro other row written
    rw [State.setStage_written] at written
    exact ⟨written, fun _ holds => holds⟩
  · intro other
    rw [State.setStage_stage]
    split
    next same =>
      subst same
      exact (calm other).stage stage ok
    next => exact (calm other).stage _ (inv.stages other)

theorem Inv.insertFile (inv : Inv hashtext state) {file : FileRecord}
    (fresh : file.id ∉ state.files.map (·.id)) :
    Inv hashtext { state with files := state.files ++ [file] } := by
  have grown : ∀ old ∈ state.files, old ∈ state.files ++ [file] :=
    fun old present => List.mem_append_left [file] present
  refine inv.of_fewer grown ?_ (fun _ _ linked => linked)
    (fun _ _ written => ⟨written, fun _ holds => holds⟩) ?_
  · rw [List.map_append]
    refine List.nodup_append.mpr ⟨inv.ids, List.nodup_singleton _, ?_⟩
    rintro id old _ new rfl
    obtain rfl := List.mem_singleton.mp new
    exact fresh old
  · intro session
    have calm : Undisturbed hashtext state { state with files := state.files ++ [file] } session :=
      ⟨grown, fun _ holds => holds, fun _ _ _ _ unmarked => unmarked, rfl⟩
    exact calm.stage _ (inv.stages session)

theorem Inv.acquire (inv : Inv hashtext state) {session : SessionId} {group : String}
    (available : state.advisory (hashtext group) = none ∨
      state.advisory (hashtext group) = some session) :
    Inv hashtext { state with
      advisory := Function.update state.advisory (hashtext group) (some session) } := by
  set next : State := { state with
    advisory := Function.update state.advisory (hashtext group) (some session) } with defined
  have keeps : ∀ other other_group, Holds hashtext state other other_group →
      Holds hashtext next other other_group := by
    intro other other_group holds
    by_cases same : hashtext other_group = hashtext group
    · have before : state.advisory (hashtext group) = some other := same ▸ holds
      have owner : other = session := by
        rcases available with free | mine
        · exact absurd (free.symm.trans before) (by simp)
        · exact Option.some.inj (before.symm.trans mine)
      simp [Holds, defined, same, owner]
    · simpa [Holds, defined, Function.update_of_ne same] using holds
  refine inv.of_fewer (fun _ present => present) inv.ids (fun _ _ linked => linked)
    (fun other _ written => ⟨written, keeps other⟩) ?_
  intro other
  have calm : Undisturbed hashtext state next other :=
    ⟨fun _ present => present, keeps other, fun _ _ _ _ unmarked => unmarked, rfl⟩
  exact calm.stage _ (inv.stages other)

-- The rows of the selected members point at the keeper, and the keeper points nowhere.
theorem Inv.insert (inv : Inv hashtext state) {session : SessionId} {call : Call}
    {members : List FileRecord} {reply : Option Reply}
    (ok : StageOk hashtext state session (.selected call members)) :
    Inv hashtext { state with
      sessions := Function.update state.sessions session
        { written := (state.sessions session).written ++ (writeMarkers state.files call members).2
          stage := .idle reply } } := by
  set rows := (writeMarkers state.files call members).2 with rowsDefined
  set next : State := { state with
    sessions := Function.update state.sessions session
      { written := (state.sessions session).written ++ rows, stage := .idle reply } } with defined
  obtain ⟨holds, keeper, selected⟩ := ok
  have row_facts : ∀ row ∈ rows, row.2 = call.canonicalId ∧ row.1 ≠ call.canonicalId ∧
      Member state.files call.groupHash row.1 := by
    intro row written
    obtain ⟨file, present, rfl⟩ := mem_writeMarkers written
    exact ⟨rfl, (selected file present).2, (selected file present).1⟩
  have mine : (next.sessions session).written = (state.sessions session).written ++ rows := by
    simp [defined]
  have others : ∀ other, other ≠ session → next.sessions other = state.sessions other := by
    intro other different
    simp [defined, Function.update_of_ne different]
  have origin : ∀ other row, row ∈ (next.sessions other).written →
      row ∈ (state.sessions other).written ∨ other = session ∧ row ∈ rows := by
    intro other row written
    by_cases same : other = session
    · subst same
      rw [mine, List.mem_append] at written
      exact written.imp_right fun new => ⟨rfl, new⟩
    · rw [others other same] at written
      exact Or.inl written
  have linked_origin : ∀ id canonicalId, Linked next id canonicalId →
      Linked state id canonicalId ∨ (id, canonicalId) ∈ rows := by
    rintro id canonicalId (marked | ⟨other, written⟩)
    · exact Or.inl (Or.inl marked)
    · rcases origin other _ written with old | ⟨-, new⟩
      · exact Or.inl (Or.inr ⟨other, old⟩)
      · exact Or.inr new
  refine ⟨inv.ids, ?_, ?_, ?_, ?_⟩
  · refine inv.ends.redirect call.canonicalId ?_ ?_
    · intro canonicalId linked
      rcases linked_origin _ _ linked with old | new
      · exact inv.keeper_unlinked holds keeper canonicalId old
      · exact (row_facts _ new).2.1 rfl
    · intro id canonicalId linked
      exact (linked_origin _ _ linked).imp_right fun new => (row_facts _ new).1
  · intro id canonicalId linked
    rcases linked_origin _ _ linked with old | new
    · exact inv.same id canonicalId old
    · obtain ⟨toKeeper, -, member⟩ := row_facts _ new
      have target : canonicalId = call.canonicalId := toKeeper
      exact ⟨call.groupHash, member, target ▸ keeper.1⟩
  · intro other row written
    rcases origin other row written with old | ⟨rfl, new⟩
    · exact inv.held other row old
    · exact ⟨call.groupHash, (row_facts row new).2.2, holds⟩
  · intro other
    by_cases same : other = session
    · subst same
      simp [defined, StageOk]
    · rw [others other same]
      have calm : Undisturbed hashtext state next other :=
        ⟨fun _ present => present, fun _ holds => holds, fun _ _ _ _ unmarked => unmarked,
          by rw [others other same]⟩
      exact calm.stage _ (inv.stages other)

theorem Inv.close (inv : Inv hashtext state) {session : SessionId} {markers : Markers}
    {reply : Option Reply}
    (origin : ∀ id canonicalId, markers id = some canonicalId →
      state.markers id = some canonicalId ∨ (id, canonicalId) ∈ (state.sessions session).written) :
    Inv hashtext (state.close session markers reply) := by
  have others : ∀ other, other ≠ session →
      (state.close session markers reply).sessions other = state.sessions other := by
    intro other different
    simp [State.close, Function.update_of_ne different]
  have keeps : ∀ other group, other ≠ session → Holds hashtext state other group →
      Holds hashtext (state.close session markers reply) other group := by
    intro other group different holds
    unfold Holds at holds ⊢
    simp [State.close, holds, different]
  refine inv.of_fewer (fun _ present => present) inv.ids ?_ ?_ ?_
  · rintro id canonicalId (marked | ⟨other, written⟩)
    · exact (origin id canonicalId marked).imp_right fun mine => ⟨session, mine⟩
    · by_cases same : other = session
      · subst same
        simp [State.close] at written
      · rw [others other same] at written
        exact Or.inr ⟨other, written⟩
  · intro other row written
    by_cases same : other = session
    · subst same
      simp [State.close] at written
    · rw [others other same] at written
      exact ⟨written, fun group => keeps other group same⟩
  · intro other
    by_cases same : other = session
    · subst same
      simp [State.close, StageOk]
    · rw [others other same]
      have calm : Undisturbed hashtext state (state.close session markers reply) other := by
        refine ⟨fun _ present => present, fun group => keeps other group same, ?_,
          by rw [others other same]⟩
        intro group id holds member unmarked
        by_contra marked
        obtain ⟨canonicalId, isMarked⟩ := Option.ne_none_iff_exists'.mp marked
        rcases origin id canonicalId isMarked with old | mine
        · exact absurd (unmarked.symm.trans old) (by simp)
        · exact same (inv.writer holds member mine).symm
      exact calm.stage _ (inv.stages other)

theorem Inv.undo (inv : Inv hashtext state) (fileStates : List Payload) :
    Inv hashtext { state with markers := (undoResolve parseUuid state.markers fileStates).2 } := by
  refine inv.of_fewer (fun _ present => present) inv.ids ?_
    (fun _ _ written => ⟨written, fun _ holds => holds⟩) ?_
  · rintro id canonicalId (marked | written)
    · exact Or.inl (undoResolve_some parseUuid marked)
    · exact Or.inr written
  · intro session
    have calm : Undisturbed hashtext state
        { state with markers := (undoResolve parseUuid state.markers fileStates).2 } session := by
      refine ⟨fun _ present => present, fun _ holds => holds, ?_, rfl⟩
      intro group id _ _ unmarked
      by_contra marked
      obtain ⟨canonicalId, isMarked⟩ := Option.ne_none_iff_exists'.mp marked
      exact absurd (unmarked.symm.trans (undoResolve_some parseUuid isMarked)) (by simp)
    exact calm.stage _ (inv.stages session)

theorem keeper_of_membership {session : SessionId} {call : Call}
    (passed : canonicalMembership state.files (state.view session) call = true) :
    Keeper state session call := by
  obtain ⟨file, present, unresolved, sameId⟩ := (canonicalMembership_iff _ _ _).mp passed
  have unmarked : state.view session file.id = none :=
    ((unresolvedMember_iff _ _ _).mp unresolved).2.2
  have free := addMarkers_none unmarked
  unfold Keeper
  rw [← sameId]
  exact ⟨member_of_unresolved present unresolved, free.1, free.2⟩

theorem step_inv {next : State} {action : Action} (inv : Inv hashtext state)
    (stepped : step hashtext parseUuid state action = some next) : Inv hashtext next := by
  cases action with
  | insertFile file =>
    simp only [step] at stepped
    split at stepped
    next allowed =>
      obtain rfl := Option.some.inj stepped
      exact inv.insertFile allowed.2
    next => cases stepped
  | lock session call =>
    simp only [step] at stepped
    split at stepped
    next reply holder idle =>
      split at stepped
      next available =>
        obtain rfl := Option.some.inj stepped
        apply (inv.acquire available).setStage
        split <;> simp [StageOk, Holds]
      next => cases stepped
    next => cases stepped
  | freeze session =>
    simp only [step] at stepped
    split at stepped
    next call locked =>
      obtain rfl := Option.some.inj stepped
      have ok := inv.stages session
      rw [locked] at ok
      have frozen : Inv hashtext { state with shared := session :: state.shared } :=
        ⟨inv.ids, inv.ends, inv.same, inv.held, inv.stages⟩
      exact frozen.setStage ok
    next => cases stepped
  | review session =>
    simp only [step] at stepped
    split at stepped
    next call frozen =>
      have ok := inv.stages session
      rw [frozen] at ok
      split at stepped
      next reviewed given =>
        split at stepped <;> obtain rfl := Option.some.inj stepped
        · exact inv.setStage ok
        · exact inv.setStage trivial
      next => cases stepped
    next => cases stepped
  | check session =>
    simp only [step] at stepped
    split at stepped
    next call ready =>
      have ok := inv.stages session
      rw [ready] at ok
      split at stepped <;> obtain rfl := Option.some.inj stepped
      next passed => exact inv.setStage ⟨ok, keeper_of_membership passed⟩
      next => exact inv.setStage trivial
    next => cases stepped
  | select session =>
    simp only [step] at stepped
    split at stepped
    next call checked =>
      have ok := inv.stages session
      rw [checked] at ok
      obtain rfl := Option.some.inj stepped
      refine inv.setStage ⟨ok.1, ok.2, fun file selected => ?_⟩
      obtain ⟨present, unresolved, different⟩ := mem_nonCanonical selected
      exact ⟨member_of_unresolved present unresolved, different⟩
    next => cases stepped
  | insert session =>
    simp only [step] at stepped
    split at stepped
    next call members chosen =>
      have ok := inv.stages session
      rw [chosen] at ok
      obtain rfl := Option.some.inj stepped
      exact inv.insert ok
    next => cases stepped
  | commit session =>
    simp only [step] at stepped
    split at stepped
    next reply idle =>
      obtain rfl := Option.some.inj stepped
      exact inv.close fun id canonicalId marked => addMarkers_some marked
    next => cases stepped
  | rollback session =>
    obtain rfl := Option.some.inj stepped
    exact inv.close fun id canonicalId marked => Or.inl marked
  | undo fileStates =>
    obtain rfl := Option.some.inj stepped
    exact inv.undo fileStates

theorem run_inv {final : State} (actions : List Action) (inv : Inv hashtext state)
    (ran : run hashtext parseUuid state actions = some final) : Inv hashtext final := by
  induction actions generalizing state with
  | nil =>
    obtain rfl := Option.some.inj ran
    exact inv
  | cons action rest ih =>
    obtain ⟨next, stepped, ran⟩ := Option.bind_eq_some_iff.mp ran
    exact ih (step_inv inv stepped) ran

end Preservation

/-! ## Survivors -/

-- Following the committed markers from a member of a group leads to an unmarked
-- file of the same group.
theorem Inv.survivor {hashtext : String → BitVec 32} {state : State} (inv : Inv hashtext state)
    {group : String} {id : Uuid} (member : Member state.files group id) :
    ∃ path : List Uuid, (id :: path).IsChain (fun a b => state.markers a = some b) ∧
      (id :: path).Nodup ∧
      ∃ survivor ∈ state.files, (id :: path).getLast? = some survivor.id ∧
        survivor.sha256Hash = group ∧ state.markers survivor.id = none := by
  have ends : Ends fun a b => state.markers a = some b :=
    inv.ends.mono fun _ _ marked => Or.inl marked
  have closed : ∀ a b, state.markers a = some b → Member state.files group a →
      Member state.files group b := by
    intro a b marked inGroup
    obtain ⟨other, fileMember, keeperMember⟩ := inv.same a b (Or.inl marked)
    exact (inGroup.group_unique inv.ids fileMember) ▸ keeperMember
  obtain ⟨path, last, chain, isLast, lastMember, final⟩ := ends.path _ closed id member
  obtain ⟨survivor, present, rfl, sameGroup, -⟩ := lastMember
  refine ⟨path, chain, ends.nodup _ chain, survivor, present, isLast, sameGroup, ?_⟩
  exact Option.eq_none_iff_forall_ne_some.mpr final

theorem survivors_remain (hashtext : String → BitVec 32) (parseUuid : String → Option Uuid)
    (actions : List Action) (state : State)
    (ran : run hashtext parseUuid State.initial actions = some state) :
    (∀ file ∈ state.files, dedupPopulation file = true →
      ∃ survivor ∈ state.files, survivor.sha256Hash = file.sha256Hash ∧
        state.markers survivor.id = none) ∧
    (∀ id canonicalId, state.markers id = some canonicalId →
      ∃ path : List Uuid, (id :: path).IsChain (fun a b => state.markers a = some b) ∧
        (id :: path).Nodup ∧
        ∃ survivor ∈ state.files, (id :: path).getLast? = some survivor.id ∧
          state.markers survivor.id = none) := by
  have inv : Inv hashtext state := run_inv actions Inv.initial ran
  constructor
  · intro file present media
    have member : Member state.files file.sha256Hash file.id := ⟨file, present, rfl, rfl, media⟩
    obtain ⟨-, -, -, survivor, survives, -, sameGroup, unmarked⟩ := inv.survivor member
    exact ⟨survivor, survives, sameGroup, unmarked⟩
  · intro id canonicalId marked
    obtain ⟨group, member, -⟩ := inv.same id canonicalId (Or.inl marked)
    obtain ⟨path, chain, nodup, survivor, survives, isLast, -, unmarked⟩ := inv.survivor member
    exact ⟨path, chain, nodup, survivor, survives, isLast, unmarked⟩

/-! ### A run with a replayed, partial undo -/

namespace Rekeep

def file (id : Uuid) : FileRecord :=
  { id := id, sha256Hash := "ab", fileType := "flac" }

def keep (id : Uuid) : Call :=
  { groupHash := "ab", canonicalId := id, reviewedMemberIds := none }

def resolve (session : SessionId) (call : Call) : List Action :=
  [.lock session call, .check session, .select session, .insert session, .commit session]

-- `uuid.UUID` on the text of the first three ids.
def parseUuid (text : String) : Option Uuid :=
  [1, 2, 3].find? fun id => uuidStr id = text

-- Keep 1, undo only 2 (the payload names it twice, and holds junk), then keep 2: the
-- marker 3 → 1 of the first resolve stays, and 1 is now marked itself.
def actions : List Action :=
  [.insertFile (file 1), .insertFile (file 2), .insertFile (file 3)] ++ resolve 0 (keep 1) ++
    [.undo [.other, fileState 1 (file 2), fileState 1 (file 2), .dict [("id", .str "2")]]] ++
    resolve 1 (keep 2)

def final : Option State :=
  run (fun _ => 0) parseUuid State.initial actions

end Rekeep

theorem survivors_remain_rekept :
    ∃ state, Rekeep.final = some state ∧ state.markers 3 = some 1 ∧ state.markers 1 = some 2 ∧
      ∃ path : List Uuid, (3 :: path).IsChain (fun a b => state.markers a = some b) ∧
        (3 :: path).Nodup ∧
        ∃ survivor ∈ state.files, (3 :: path).getLast? = some survivor.id ∧
          state.markers survivor.id = none := by
  have returns : Rekeep.final.isSome = true := by decide
  obtain ⟨state, ran⟩ := Option.isSome_iff_exists.mp returns
  have chained : Rekeep.final.map (fun state => (state.markers 3, state.markers 1)) =
      some (some 1, some 2) := by decide
  rw [ran, Option.map_some, Option.some.injEq, Prod.mk.injEq] at chained
  obtain ⟨third, first⟩ := chained
  have survivors := survivors_remain (fun _ => 0) Rekeep.parseUuid Rekeep.actions state ran
  exact ⟨state, ran, third, first, survivors.2 3 1 third⟩

end Phaze.Dedup
