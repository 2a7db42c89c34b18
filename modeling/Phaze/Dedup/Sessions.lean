import Phaze.Dedup.Markers
import Mathlib.Logic.Function.Basic

/-!
# Concurrent resolves under READ COMMITTED

Each database session runs `resolve_group` one statement at a time, any number of
calls in one transaction, and other sessions act between its statements. A
statement reads the committed rows and the session's own; the rows a session
writes are seen by others when it commits. `undo_resolve` is one `DELETE`, and
takes no lock.
-/

set_option autoImplicit false

namespace Phaze.Dedup

abbrev SessionId := Nat

-- How far the current call of a session has come: the statement it ran last.
inductive Stage where
  | idle (reply : Option Reply)
  | locked (call : Call)
  | frozen (call : Call)
  | ready (call : Call)
  | checked (call : Call)
  | selected (call : Call) (members : List FileRecord)

structure Session where
  written : List (Uuid × Uuid)
  stage : Stage

def Session.new : Session :=
  { written := [], stage := .idle none }

structure State where
  files : List FileRecord
  markers : Markers
  -- `pg_advisory_xact_lock`, by the 32-bit key it is taken on.
  advisory : BitVec 32 → Option SessionId
  -- Sessions that hold `LOCK TABLE files IN SHARE MODE`.
  shared : List SessionId
  sessions : SessionId → Session

def State.initial : State :=
  { files := []
    markers := noMarkers
    advisory := fun _ => none
    shared := []
    sessions := fun _ => .new }

inductive Action where
  | insertFile (file : FileRecord)
  | lock (session : SessionId) (call : Call)
  | freeze (session : SessionId)
  | review (session : SessionId)
  | check (session : SessionId)
  | select (session : SessionId)
  | insert (session : SessionId)
  | commit (session : SessionId)
  | rollback (session : SessionId)
  | undo (fileStates : List Payload)

namespace State

def view (state : State) (session : SessionId) : Markers :=
  addMarkers state.markers (state.sessions session).written

def setStage (state : State) (session : SessionId) (stage : Stage) : State :=
  { state with
    sessions := Function.update state.sessions session
      { (state.sessions session) with stage := stage } }

@[simp] theorem setStage_markers (state : State) (session : SessionId) (stage : Stage) :
    (state.setStage session stage).markers = state.markers := rfl

@[simp] theorem setStage_written (state : State) (session other : SessionId) (stage : Stage) :
    ((state.setStage session stage).sessions other).written = (state.sessions other).written := by
  by_cases same : other = session
  · subst same
    simp [setStage]
  · simp [setStage, Function.update_of_ne same]

theorem setStage_stage (state : State) (session other : SessionId) (stage : Stage) :
    ((state.setStage session stage).sessions other).stage =
      if other = session then stage else (state.sessions other).stage := by
  by_cases same : other = session
  · subst same
    simp [setStage]
  · simp [setStage, same]

-- The end of a transaction: its locks go, and its rows become the committed ones or vanish.
def close (state : State) (session : SessionId) (markers : Markers) (reply : Option Reply) : State :=
  { state with
    markers := markers
    advisory := fun key => if state.advisory key = some session then none else state.advisory key
    shared := state.shared.filter (· != session)
    sessions := Function.update state.sessions session { written := [], stage := .idle reply } }

end State

section Steps

-- `hashtext` of PostgreSQL, and `uuid.UUID(text)` with `none` for its `ValueError`.
variable (hashtext : String → BitVec 32) (parseUuid : String → Option Uuid)

-- One statement. `none` is a statement that is not the session's next one, or that
-- waits for a lock another session holds.
def step (state : State) : Action → Option State
  | .insertFile file =>
    if state.shared = [] ∧ file.id ∉ state.files.map (·.id) then
      some { state with files := state.files ++ [file] }
    else
      none
  | .lock session call =>
    match (state.sessions session).stage, state.advisory (hashtext call.groupHash) with
    | .idle _, holder =>
      if holder = none ∨ holder = some session then
        let state := { state with
          advisory := Function.update state.advisory (hashtext call.groupHash) (some session) }
        some (state.setStage session
          (if call.reviewedMemberIds.isSome then .locked call else .ready call))
      else
        none
    | _, _ => none
  | .freeze session =>
    match (state.sessions session).stage with
    | .locked call =>
      let state := { state with shared := session :: state.shared }
      some (state.setStage session (.frozen call))
    | _ => none
  | .review session =>
    match (state.sessions session).stage with
    | .frozen call =>
      match call.reviewedMemberIds with
      | some reviewed =>
        if assertReviewedSnapshot state.files (state.view session) call reviewed then
          some (state.setStage session (.ready call))
        else
          some (state.setStage session (.idle (some .staleDuplicateReview)))
      | none => none
    | _ => none
  | .check session =>
    match (state.sessions session).stage with
    | .ready call =>
      if canonicalMembership state.files (state.view session) call then
        some (state.setStage session (.checked call))
      else
        some (state.setStage session (.idle (some (.resolved 0 []))))
    | _ => none
  | .select session =>
    match (state.sessions session).stage with
    | .checked call =>
      let members := nonCanonical state.files (state.view session) call
      some (state.setStage session (.selected call members))
    | _ => none
  | .insert session =>
    match (state.sessions session).stage with
    | .selected call members =>
      let (reply, rows) := writeMarkers state.files call members
      some { state with
        sessions := Function.update state.sessions session
          { written := (state.sessions session).written ++ rows, stage := .idle (some reply) } }
    | _ => none
  | .commit session =>
    match (state.sessions session).stage with
    | .idle reply => some (state.close session (state.view session) reply)
    | _ => none
  | .rollback session => some (state.close session state.markers none)
  | .undo fileStates =>
    some { state with markers := (undoResolve parseUuid state.markers fileStates).2 }

def run (state : State) : List Action → Option State
  | [] => some state
  | action :: rest => (step hashtext parseUuid state action).bind fun next => run next rest

/-! ## A call that nobody interrupts -/

theorem run_cons {state next : State} {action : Action} {rest : List Action}
    (stepped : step hashtext parseUuid state action = some next) :
    run hashtext parseUuid state (action :: rest) = run hashtext parseUuid next rest := by
  simp [run, stepped]

theorem view_of_fresh {state : State} {session : SessionId}
    (fresh : (state.sessions session).written = []) : state.view session = state.markers := by
  funext id
  unfold State.view addMarkers
  rw [fresh]
  cases state.markers id <;> rfl

-- The state in which a call has returned and its transaction has committed.
def Served (state final : State) (session : SessionId) (result : Reply × List (Uuid × Uuid)) :
    Prop :=
  final.files = state.files ∧ final.markers = addMarkers state.markers result.2 ∧
    (final.sessions session).stage = .idle (some result.1)

theorem commit_served {state : State} {session : SessionId} {result : Reply × List (Uuid × Uuid)}
    (returned : (state.sessions session).stage = .idle (some result.1))
    (wrote : (state.sessions session).written = result.2) :
    ∃ final, step hashtext parseUuid state (.commit session) = some final ∧
      Served state final session result := by
  refine ⟨state.close session (state.view session) (some result.1), ?_, rfl, ?_, ?_⟩
  · simp only [step, returned]
  · simp [State.close, State.view, wrote]
  · simp [State.close]

theorem resolveMember_run {state : State} {session : SessionId} {call : Call}
    (ready : (state.sessions session).stage = .ready call)
    (fresh : (state.sessions session).written = []) :
    ∃ actions final, run hashtext parseUuid state actions = some final ∧
      Served state final session (resolveMember state.files state.markers call) := by
  have view : state.view session = state.markers := view_of_fresh fresh
  by_cases member : canonicalMembership state.files state.markers call = true
  · have check : step hashtext parseUuid state (.check session) =
        some (state.setStage session (.checked call)) := by
      simp only [step, ready, view, member, if_true]
    set checked := state.setStage session (.checked call)
    set rows := nonCanonical state.files state.markers call
    have checkedView : checked.view session = state.markers :=
      view_of_fresh (by simpa [checked] using fresh)
    have select : step hashtext parseUuid checked (.select session) =
        some (checked.setStage session (.selected call rows)) := by
      have stage : (checked.sessions session).stage = .checked call := by
        simp [checked, State.setStage_stage]
      simp only [step, stage, checkedView]
      rfl
    set selected := checked.setStage session (.selected call rows)
    set result := writeMarkers state.files call rows
    have selectedFresh : (selected.sessions session).written = [] := by
      simpa [selected, checked] using fresh
    have insert : step hashtext parseUuid selected (.insert session) =
        some { selected with
          sessions := Function.update selected.sessions session
            { written := result.2, stage := .idle (some result.1) } } := by
      have stage : (selected.sessions session).stage = .selected call rows := by
        simp [selected, State.setStage_stage]
      simp only [step, stage, selectedFresh, List.nil_append]
      rfl
    obtain ⟨final, commit, served⟩ :=
      @commit_served hashtext parseUuid
        { selected with
          sessions := Function.update selected.sessions session
            { written := result.2, stage := .idle (some result.1) } } session result
        (by simp) (by simp)
    refine ⟨[.check session, .select session, .insert session, .commit session], final, ?_, ?_⟩
    · rw [run_cons _ _ check, run_cons _ _ select, run_cons _ _ insert, run_cons _ _ commit]
      rfl
    · simp only [resolveMember, member, if_true]
      exact served
  · have check : step hashtext parseUuid state (.check session) =
        some (state.setStage session (.idle (some (.resolved 0 [])))) := by
      simp only [step, ready, view, member, if_false, Bool.false_eq_true]
    obtain ⟨final, commit, served⟩ :=
      @commit_served hashtext parseUuid (state.setStage session (.idle (some (.resolved 0 []))))
        session (.resolved 0 [], []) (by simp [State.setStage_stage]) (by simpa using fresh)
    refine ⟨[.check session, .commit session], final, ?_, ?_⟩
    · rw [run_cons _ _ check, run_cons _ _ commit]
      rfl
    · simp only [resolveMember, member, if_false, Bool.false_eq_true]
      exact served

-- The statements of one call, run back to back, are `resolve_group` as written.
theorem resolveGroup_run {state : State} {session : SessionId} {call : Call} {reply : Option Reply}
    (idle : (state.sessions session).stage = .idle reply)
    (fresh : (state.sessions session).written = [])
    (free : state.advisory (hashtext call.groupHash) = none) :
    ∃ actions final, run hashtext parseUuid state actions = some final ∧
      Served state final session (resolveGroup state.files state.markers call) := by
  set acquired : State := { state with
    advisory := Function.update state.advisory (hashtext call.groupHash) (some session) }
  cases given : call.reviewedMemberIds with
  | none =>
    have lock : step hashtext parseUuid state (.lock session call) =
        some (acquired.setStage session (.ready call)) := by
      simp only [step, idle, free, given, Option.isSome_none]
      rfl
    obtain ⟨actions, final, ran, served⟩ :=
      @resolveMember_run hashtext parseUuid (acquired.setStage session (.ready call)) session call
        (by simp [State.setStage_stage]) (by simpa [acquired] using fresh)
    refine ⟨.lock session call :: actions, final, ?_, ?_⟩
    · rw [run_cons _ _ lock]
      exact ran
    · simp only [resolveGroup, given]
      exact served
  | some reviewed =>
    have lock : step hashtext parseUuid state (.lock session call) =
        some (acquired.setStage session (.locked call)) := by
      simp only [step, idle, free, given, Option.isSome_some]
      rfl
    set locked := acquired.setStage session (.locked call)
    set shared : State := { locked with shared := session :: locked.shared }
    have freeze : step hashtext parseUuid locked (.freeze session) =
        some (shared.setStage session (.frozen call)) := by
      have stage : (locked.sessions session).stage = .locked call := by
        simp [locked, State.setStage_stage]
      simp only [step, stage]
      rfl
    set frozen := shared.setStage session (.frozen call)
    have frozenStage : (frozen.sessions session).stage = .frozen call := by
      simp [frozen, State.setStage_stage]
    have frozenFresh : (frozen.sessions session).written = [] := by
      simpa [frozen, shared, locked, acquired] using fresh
    have view : frozen.view session = state.markers := view_of_fresh frozenFresh
    by_cases current : assertReviewedSnapshot state.files state.markers call reviewed = true
    · have review : step hashtext parseUuid frozen (.review session) =
          some (frozen.setStage session (.ready call)) := by
        simp only [step, frozenStage, given, view]
        exact if_pos current
      obtain ⟨actions, final, ran, served⟩ :=
        @resolveMember_run hashtext parseUuid (frozen.setStage session (.ready call)) session call
          (by simp [State.setStage_stage]) (by simpa using frozenFresh)
      refine ⟨.lock session call :: .freeze session :: .review session :: actions, final, ?_, ?_⟩
      · rw [run_cons _ _ lock, run_cons _ _ freeze, run_cons _ _ review]
        exact ran
      · simp only [resolveGroup, given, current, if_true]
        exact served
    · have review : step hashtext parseUuid frozen (.review session) =
          some (frozen.setStage session (.idle (some .staleDuplicateReview))) := by
        simp only [step, frozenStage, given, view]
        exact if_neg current
      obtain ⟨final, commit, served⟩ :=
        @commit_served hashtext parseUuid
          (frozen.setStage session (.idle (some .staleDuplicateReview)))
          session (.staleDuplicateReview, []) (by simp [State.setStage_stage])
          (by simpa using frozenFresh)
      refine ⟨[.lock session call, .freeze session, .review session, .commit session], final,
        ?_, ?_⟩
      · rw [run_cons _ _ lock, run_cons _ _ freeze, run_cons _ _ review, run_cons _ _ commit]
        rfl
      · simp only [resolveGroup, given, current, if_false, Bool.false_eq_true]
        exact served

end Steps

end Phaze.Dedup
