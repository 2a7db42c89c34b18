import Phaze.Cloud.Breaker

set_option autoImplicit false

/-!
# When the breaker trips

Where no step overwrites, moves or deletes a row whose unreachable exit is still in the window, the
rows show the exits of the history, and the code's question is the rule.
-/

namespace Phaze.Cloud.Breaker

variable {File : Type} [DecidableEq File]

-- The file's row shows an unreachable exit on the backend after `start`.
def RowShows (rows : Table File CloudJob) (backend : BackendId) (file : File) (start : Int) : Prop :=
  ∃ row, rows.lookup file = some row ∧ row.backendId = some backend ∧
    unreachableAfter start row.lastExitCode row.lastFailedAt = true

structure Agrees (state : State File) : Prop where
  rowClock : ∀ file row failed, state.rows.lookup file = some row → row.lastFailedAt = some failed →
    failed ≤ state.clock
  exitClock : ∀ file backend code failed, Event.exit file backend code failed ∈ state.history →
    failed ≤ state.clock
  reset : ∀ backend, (state.breakers backend).resetAt = lastClose state.history backend
  shows : ∀ backend, (state.breakers backend).trippedAt = none → ∀ now, state.clock ≤ now → ∀ file,
    RowShows state.rows backend file (since (state.breakers backend) now) ↔
      file ∈ unreachableExits state.history backend (since (state.breakers backend) now)
  -- Under the condition nothing defers an unreachable exit.
  stamped : ∀ file row, state.rows.lookup file = some row → row.lastExitCode = some unreachableExitCode →
    row.lastFailedAt ≠ none
  once : ∀ backend, (state.breakers backend).trippedAt = none → ∀ now, state.clock ≤ now →
    (unreachableExits state.history backend (since (state.breakers backend) now)).Nodup

omit [DecidableEq File] in
theorem since_mono (breaker : BackendBreaker File) {earlier later : Int} (order : earlier ≤ later) :
    since breaker earlier ≤ since breaker later := by
  unfold since
  split
  · split <;> split <;> omega
  · omega

theorem unreachableAfter_mono {earlier later : Int} {code : Option Int} {failedAt : Option Int}
    (order : earlier ≤ later) (shown : unreachableAfter later code failedAt = true) :
    unreachableAfter earlier code failedAt = true := by
  cases failedAt with
  | none => simp [unreachableAfter] at shown
  | some failed =>
    simp only [unreachableAfter, Option.any_some, Bool.and_eq_true, decide_eq_true_eq] at shown ⊢
    exact ⟨shown.1, by omega⟩

omit [DecidableEq File] in
theorem mem_unreachableExits {history : List (Event File)} {backend : BackendId} {start : Int} {file : File} :
    file ∈ unreachableExits history backend start ↔
      ∃ failed, Event.exit file backend (some unreachableExitCode) failed ∈ history ∧ start < failed := by
  unfold unreachableExits
  rw [List.mem_filterMap]
  constructor
  · rintro ⟨event, member, selected⟩
    cases event with
    | close _ _ => simp at selected
    | exit exited backend' code failed =>
      simp only [Option.ite_none_right_eq_some, Option.some.injEq] at selected
      obtain ⟨⟨rfl, rfl, after⟩, rfl⟩ := selected
      exact ⟨failed, member, after⟩
  · rintro ⟨failed, member, after⟩
    exact ⟨_, member, by simp [after]⟩

section Exits

omit [DecidableEq File]

variable {history : List (Event File)} {backend : BackendId} {start : Int}

@[simp]
theorem unreachableExits_close (closed : BackendId) (instant : Int) :
    unreachableExits (.close closed instant :: history) backend start = unreachableExits history backend start :=
  rfl

theorem unreachableExits_exit (file : File) (exited : BackendId) (code : Option Int) (failed : Int) :
    unreachableExits (.exit file exited code failed :: history) backend start =
      if exited = backend ∧ code = some unreachableExitCode ∧ start < failed then
        file :: unreachableExits history backend start
      else unreachableExits history backend start := by
  unfold unreachableExits
  rw [List.filterMap_cons]
  split <;> split <;> simp_all

@[simp]
theorem lastClose_exit (file : File) (exited : BackendId) (code : Option Int) (failed : Int) :
    lastClose (.exit file exited code failed :: history) backend = lastClose history backend :=
  rfl

theorem lastClose_close (closed : BackendId) (instant : Int) :
    lastClose (.close closed instant :: history) backend =
      if closed = backend then some instant else lastClose history backend := by
  unfold lastClose
  rw [List.findSome?_cons]
  split <;> simp_all

end Exits

theorem since_eq_windowStart {state : State File} (agrees : Agrees state) (backend : BackendId) (now : Int) :
    since (state.breakers backend) now = windowStart state.history backend now := by
  unfold since windowStart
  rw [agrees.reset]
  cases lastClose state.history backend with
  | none => rfl
  | some closed =>
    simp only [Option.elim]
    split <;> omega

/-! ## Each step keeps the agreement -/

section Steps

variable {state next : State File}

theorem rowShows_insert_of_ne {rows : Table File CloudJob} {backend : BackendId} {file other : File} {row : CloudJob}
    {start : Int} (different : other ≠ file) :
    RowShows (rows.insert file row) backend other start ↔ RowShows rows backend other start := by
  simp only [RowShows, Finmap.lookup_insert_of_ne _ different]

theorem rowShows_insert {rows : Table File CloudJob} {backend : BackendId} {file : File} {row : CloudJob}
    {start : Int} :
    RowShows (rows.insert file row) backend file start ↔
      row.backendId = some backend ∧ unreachableAfter start row.lastExitCode row.lastFailedAt = true := by
  simp [RowShows]

theorem rowShows_of_lookup {rows : Table File CloudJob} {backend : BackendId} {file : File} {row : CloudJob}
    {start : Int} (found : rows.lookup file = some row) :
    RowShows rows backend file start ↔
      row.backendId = some backend ∧ unreachableAfter start row.lastExitCode row.lastFailedAt = true := by
  simp [RowShows, found]

omit [DecidableEq File] in
-- A record that is no evidence now is none later.
theorem not_shown_later {backend : BackendId} {row : CloudJob} {now later : Int}
    (closed : (state.breakers backend).trippedAt = none) (none : ¬ Evidence state backend row now)
    (order : now ≤ later) :
    ¬ unreachableAfter (since (state.breakers backend) later) row.lastExitCode row.lastFailedAt = true := by
  intro shown
  exact none ⟨closed, unreachableAfter_mono (since_mono _ order) shown⟩

theorem agrees_initial : Agrees (State.initial : State File) where
  rowClock := by simp [State.initial]
  exitClock := by simp [State.initial]
  reset := fun _ => rfl
  shows := by simp [State.initial, RowShows, unreachableExits]
  stamped := by simp [State.initial]
  once := by simp [State.initial, unreachableExits]

theorem Agrees.replaceRows (agrees : Agrees state) {rows : Table File CloudJob} {now : Int}
    (order : state.clock ≤ now)
    (rowClock : ∀ file row failed, rows.lookup file = some row → row.lastFailedAt = some failed → failed ≤ now)
    (stamped : ∀ file row, rows.lookup file = some row → row.lastExitCode = some unreachableExitCode →
      row.lastFailedAt ≠ none)
    (same : ∀ backend, (state.breakers backend).trippedAt = none → ∀ later, now ≤ later → ∀ file,
      RowShows rows backend file (since (state.breakers backend) later) ↔
        RowShows state.rows backend file (since (state.breakers backend) later)) :
    Agrees { state with rows := rows, clock := now } where
  rowClock := rowClock
  exitClock := fun file backend code failed member => (agrees.exitClock file backend code failed member).trans order
  reset := agrees.reset
  shows := fun backend closed later after file =>
    (same backend closed later after file).trans (agrees.shows backend closed later (order.trans after) file)
  stamped := stamped
  once := fun backend closed later after => agrees.once backend closed later (order.trans after)

theorem agrees_dispatched (agrees : Agrees state) {file : File} {target : BackendId} {placement : Placement}
    {now : Int} (order : state.clock ≤ now)
    (keeps : KeepsEvidence state (.dispatched file target placement now)) :
    Agrees { state with
      rows := state.rows.insert file (dispatchRow (state.rows.lookup file) target placement now)
      clock := now } := by
  refine agrees.replaceRows order ?_ ?_ ?_
  · intro other row failed found failedAt
    rcases Table.lookup_insert_some.mp found with ⟨rfl, rfl⟩ | ⟨-, before⟩
    · rw [dispatchRow_lastFailedAt] at failedAt
      obtain ⟨row, before, failedAt⟩ := Option.bind_eq_some_iff.mp failedAt
      exact (agrees.rowClock _ _ _ before failedAt).trans order
    · exact (agrees.rowClock _ _ _ before failedAt).trans order
  · intro other row found code
    rcases Table.lookup_insert_some.mp found with ⟨rfl, rfl⟩ | ⟨-, before⟩
    · rw [dispatchRow_lastExitCode] at code
      obtain ⟨row, before, code⟩ := Option.bind_eq_some_iff.mp code
      rw [dispatchRow_lastFailedAt, before]
      exact agrees.stamped _ _ before code
    · exact agrees.stamped _ _ before code
  · intro backend closed later after other
    by_cases same : other = file
    · subst same
      rw [rowShows_insert]
      simp only [dispatchRow_backendId, dispatchRow_lastExitCode, dispatchRow_lastFailedAt]
      cases found : state.rows.lookup other with
      | none => simp [RowShows, found, unreachableAfter]
      | some row =>
        rw [rowShows_of_lookup found]
        simp only [Option.bind_some, Option.some.injEq]
        rcases keeps row (by simp [found]) with stays | ⟨target_none, old_none⟩
        · simp [stays]
        · constructor
          · rintro ⟨rfl, shown⟩
            exact absurd shown (not_shown_later closed target_none after)
          · rintro ⟨owned, shown⟩
            exact absurd shown (not_shown_later closed (old_none backend (by simp [owned])) after)
    · exact rowShows_insert_of_ne same

theorem agrees_removed (agrees : Agrees state) {file : File} {now : Int} (order : state.clock ≤ now)
    (keeps : KeepsEvidence state (.removed file now)) :
    Agrees { state with rows := state.rows.erase file, clock := now } := by
  refine agrees.replaceRows order ?_ ?_ ?_
  · intro other row failed found failedAt
    exact (agrees.rowClock _ _ _ (Table.lookup_erase_some.mp found).2 failedAt).trans order
  · exact fun other row found => agrees.stamped _ _ (Table.lookup_erase_some.mp found).2
  · intro backend closed later after other
    by_cases same : other = file
    · subst same
      constructor
      · rintro ⟨row, found, -⟩
        simp at found
      · rintro ⟨row, found, owned, shown⟩
        exact absurd shown
          (not_shown_later closed (keeps row (by simp [found]) backend (by simp [owned])) after)
    · simp only [RowShows, Finmap.lookup_erase_ne same]

-- Nothing recorded so far lies after a window that opens at the clock or later.
theorem Agrees.no_row_shows (agrees : Agrees state) (backend : BackendId) {start : Int}
    (order : state.clock ≤ start) (file : File) : ¬ RowShows state.rows backend file start := by
  rintro ⟨row, found, -, shown⟩
  cases failedAt : row.lastFailedAt with
  | none => simp [unreachableAfter, failedAt] at shown
  | some failed =>
    have := agrees.rowClock _ _ _ found failedAt
    simp only [unreachableAfter, failedAt, Option.any_some, Bool.and_eq_true, decide_eq_true_eq] at shown
    omega

theorem Agrees.no_exit_after (agrees : Agrees state) (backend : BackendId) {start : Int}
    (order : state.clock ≤ start) : unreachableExits state.history backend start = [] := by
  rw [List.eq_nil_iff_forall_not_mem]
  intro file member
  obtain ⟨failed, member, after⟩ := mem_unreachableExits.mp member
  have := agrees.exitClock _ _ _ _ member
  omega

theorem agrees_closed (agrees : Agrees state) (backend : BackendId) {now : Int} (order : state.clock ≤ now) :
    Agrees (closeStep state backend now) := by
  by_cases tripped : (state.breakers backend).trippedAt.isSome
  · have reset : ∀ other, ((closeStep state backend now).breakers other).resetAt =
        if backend = other then some now else (state.breakers other).resetAt := by
      intro other
      by_cases same : other = backend
      · simp [closeStep, closeBreaker, tripped, same]
      · simp [closeStep, same, Ne.symm same]
    have history : (closeStep state backend now).history = .close backend now :: state.history := by
      simp [closeStep, closeBreaker, tripped]
    have rest : ∀ other, other ≠ backend →
        (closeStep state backend now).breakers other = state.breakers other := by
      intro other different
      simp [closeStep, different]
    have fresh : ∀ later, now ≤ since ((closeStep state backend now).breakers backend) later := by
      intro later
      simp only [since, reset, if_true]
      split <;> omega
    refine ⟨fun file row failed found failedAt => (agrees.rowClock file row failed found failedAt).trans order,
      ?_, ?_, ?_, agrees.stamped, ?_⟩
    · intro file exited code failed member
      rw [history] at member
      rcases List.mem_cons.mp member with event | member
      · cases event
      · exact (agrees.exitClock _ _ _ _ member).trans order
    · intro other
      rw [reset, history, lastClose_close, agrees.reset]
    · intro other closed later after file
      rw [history, unreachableExits_close]
      by_cases same : other = backend
      · subst same
        rw [agrees.no_exit_after other (order.trans (fresh later))]
        simp only [List.not_mem_nil, iff_false]
        exact agrees.no_row_shows other (order.trans (fresh later)) file
      · rw [rest other same] at closed ⊢
        exact agrees.shows other closed later (order.trans after) file
    · intro other closed later after
      rw [history, unreachableExits_close]
      by_cases same : other = backend
      · subst same
        rw [agrees.no_exit_after other (order.trans (fresh later))]
        exact List.nodup_nil
      · rw [rest other same] at closed ⊢
        exact agrees.once other closed later (order.trans after)
  · have same : closeStep state backend now = { state with clock := now } := by
      simp [closeStep, closeBreaker, tripped]
    rw [same]
    exact agrees.replaceRows order
      (fun file row failed found failedAt => (agrees.rowClock file row failed found failedAt).trans order)
      agrees.stamped fun _ _ _ _ _ => Iff.rfl

/-! ### An exit -/

section Exit

variable {rows : Table File CloudJob} {breaker : BackendBreaker File} {backend : BackendId} {file : File}
  {row : CloudJob} {now : Int} {code : Option Int} {failedAt : Option Int}

-- What the code asks before it trips a closed breaker.
def Trips (rows : Table File CloudJob) (breaker : BackendBreaker File) (backend : BackendId) (file : File)
    (now : Int) (code : Option Int) (failedAt : Option Int) : Prop :=
  unreachableAfter (since breaker now) code failedAt = true ∨
    tripDistinctFiles ≤ (otherFiles rows backend file (since breaker now)).card + 1

theorem recordUnreachableExit_resetAt :
    (recordUnreachableExit rows breaker backend file now code failedAt).1.resetAt = breaker.resetAt := by
  unfold recordUnreachableExit
  grind

theorem recordUnreachableExit_held (tripped : breaker.trippedAt ≠ none) :
    (recordUnreachableExit rows breaker backend file now code failedAt).1.trippedAt ≠ none := by
  unfold recordUnreachableExit
  rw [if_pos (Option.isSome_iff_ne_none.mpr tripped)]
  exact tripped

theorem recordUnreachableExit_trips (closed : breaker.trippedAt = none)
    (trips : Trips rows breaker backend file now code failedAt) :
    (recordUnreachableExit rows breaker backend file now code failedAt).1.trippedAt = some now := by
  unfold Trips at trips
  unfold recordUnreachableExit
  grind

theorem recordUnreachableExit_stays (closed : breaker.trippedAt = none)
    (stays : ¬ Trips rows breaker backend file now code failedAt) :
    (recordUnreachableExit rows breaker backend file now code failedAt).1 = breaker := by
  unfold Trips at stays
  unfold recordUnreachableExit
  grind

variable {failure : TerminalFailure}

theorem feed_other (different : failure.exitCode ≠ some unreachableExitCode) :
    feed state file row failure now = (state.breakers, false) := by
  rw [feed, if_neg different]

theorem feed_unreachable (owned : row.backendId = some backend) (unreachable : failure.exitCode = some unreachableExitCode) :
    (feed state file row failure now).1 backend =
      (recordUnreachableExit state.rows (state.breakers backend) backend file now row.lastExitCode row.lastFailedAt).1 := by
  simp [feed, unreachable, owned]

theorem feed_of_ne (different : row.backendId ≠ some backend) :
    (feed state file row failure now).1 backend = state.breakers backend := by
  rw [feed]
  split
  · cases owner : row.backendId with
    | none => rfl
    | some exited =>
      have apart : backend ≠ exited := by
        rintro rfl
        exact different owner
      exact Function.update_of_ne apart _ _
  · rfl

theorem feed_resetAt : ((feed state file row failure now).1 backend).resetAt = (state.breakers backend).resetAt := by
  by_cases owned : row.backendId = some backend
  · by_cases unreachable : failure.exitCode = some unreachableExitCode
    · rw [feed_unreachable owned unreachable, recordUnreachableExit_resetAt]
    · rw [feed_other unreachable]
  · rw [feed_of_ne owned]

-- A breaker that is closed after it was fed is as it was before.
theorem feed_stays (owned : row.backendId = some backend)
    (closed : ((feed state file row failure now).1 backend).trippedAt = none) :
    (feed state file row failure now).1 backend = state.breakers backend ∧
      (failure.exitCode = some unreachableExitCode →
        ¬ Trips state.rows (state.breakers backend) backend file now row.lastExitCode row.lastFailedAt) := by
  by_cases unreachable : failure.exitCode = some unreachableExitCode
  · rw [feed_unreachable owned unreachable] at closed ⊢
    have before : (state.breakers backend).trippedAt = none := by
      by_contra tripped
      exact recordUnreachableExit_held tripped closed
    have stays : ¬ Trips state.rows (state.breakers backend) backend file now row.lastExitCode row.lastFailedAt := by
      intro trips
      rw [recordUnreachableExit_trips before trips] at closed
      cases closed
    exact ⟨recordUnreachableExit_stays before stays, fun _ => stays⟩
  · rw [feed_other unreachable]
    exact ⟨rfl, fun same => absurd same unreachable⟩

theorem exitStep_exits_of_ne (different : row.backendId ≠ some backend) (start : Int) :
    unreachableExits (exitStep state file row failure failedAt now).history backend start =
      unreachableExits state.history backend start := by
  unfold exitStep
  cases owner : row.backendId with
  | none => rfl
  | some exited =>
    have apart : exited ≠ backend := by
      rintro rfl
      exact different owner
    simp [unreachableExits_exit, apart]

theorem exitStep_lastClose : lastClose (exitStep state file row failure failedAt now).history backend =
    lastClose state.history backend := by
  unfold exitStep
  cases row.backendId <;> rfl

theorem exitStep_history (owned : row.backendId = some backend) :
    (exitStep state file row failure failedAt now).history =
      .exit file backend failure.exitCode now :: state.history := by
  simp [exitStep, owned]

-- What is recorded of a failure: its instant, or nothing where it is deferred and not unreachable.
def Recorded (failure : TerminalFailure) (now : Int) (failedAt : Option Int) : Prop :=
  failedAt = some now ∨ failedAt = none ∧ failure.exitCode ≠ some unreachableExitCode

theorem Recorded.clock {failed : Int} (recorded : Recorded failure now failedAt) (stamp : failedAt = some failed) : failed ≤ now := by
  rcases recorded with rfl | ⟨rfl, -⟩
  · cases stamp
    exact le_rfl
  · cases stamp

theorem Recorded.stamped (recorded : Recorded failure now failedAt) (code : failure.exitCode = some unreachableExitCode) :
    failedAt ≠ none := by
  rcases recorded with rfl | ⟨-, other⟩
  · exact Option.some_ne_none now
  · exact absurd code other

theorem Recorded.shows {start : Int} (recorded : Recorded failure now failedAt) :
    unreachableAfter start failure.exitCode failedAt = true ↔ failure.exitCode = some unreachableExitCode ∧ start < now := by
  rcases recorded with rfl | ⟨rfl, other⟩
  · simp [unreachableAfter]
  · simp [unreachableAfter, other]

-- What the rows show after a failure is written.
theorem recorded_rowShows {other : File} {start : Int} (recorded : Recorded failure now failedAt) :
    RowShows (state.rows.insert file (recordFailure row failure failedAt)) backend other start ↔
      if other = file then row.backendId = some backend ∧ failure.exitCode = some unreachableExitCode ∧ start < now
      else RowShows state.rows backend other start := by
  split
  next same =>
    subst same
    rw [rowShows_insert, ← recorded.shows]
    rfl
  next different => exact rowShows_insert_of_ne different

theorem Agrees.recorded_clock (agrees : Agrees state) (order : state.clock ≤ now) (recorded : Recorded failure now failedAt) :
    ∀ other row' failed, (state.rows.insert file (recordFailure row failure failedAt)).lookup other = some row' →
      row'.lastFailedAt = some failed → failed ≤ now := by
  intro other row' failed found stamp
  rcases Table.lookup_insert_some.mp found with ⟨rfl, rfl⟩ | ⟨-, before⟩
  · exact recorded.clock stamp
  · exact (agrees.rowClock _ _ _ before stamp).trans order

theorem Agrees.recorded_stamped (agrees : Agrees state) (recorded : Recorded failure now failedAt) :
    ∀ other row', (state.rows.insert file (recordFailure row failure failedAt)).lookup other = some row' →
      row'.lastExitCode = some unreachableExitCode → row'.lastFailedAt ≠ none := by
  intro other row' found code
  rcases Table.lookup_insert_some.mp found with ⟨rfl, rfl⟩ | ⟨-, before⟩
  · exact recorded.stamped code
  · exact agrees.stamped _ _ before code

theorem agrees_exited (agrees : Agrees state) (order : state.clock ≤ now)
    (found : state.rows.lookup file = some row) (recorded : Recorded failure now failedAt)
    (keeps : failure.exitCode = some unreachableExitCode ∨ ∀ backend ∈ row.backendId, ¬ Evidence state backend row now) :
    Agrees (exitStep state file row failure failedAt now) := by
  refine ⟨agrees.recorded_clock order recorded, ?_, fun backend => ?_, ?_, agrees.recorded_stamped recorded, ?_⟩
  · intro other backend code failed member
    have among : Event.exit other backend code failed ∈ state.history ∨ failed = now := by
      revert member
      cases owner : row.backendId with
      | none => simpa [exitStep, feedStep, owner] using Or.inl
      | some exited => simpa [exitStep, owner] using by tauto
    rcases among with member | rfl
    · exact (agrees.exitClock _ _ _ _ member).trans order
    · exact le_rfl
  · exact feed_resetAt.trans ((agrees.reset backend).trans exitStep_lastClose.symm)
  · intro backend closed later after other
    change ((feed state file row failure now).1 backend).trippedAt = none at closed
    change RowShows (state.rows.insert file (recordFailure row failure failedAt)) backend other
      (since ((feed state file row failure now).1 backend) later) ↔
        other ∈ unreachableExits _ backend (since ((feed state file row failure now).1 backend) later)
    rw [recorded_rowShows recorded]
    by_cases owned : row.backendId = some backend
    · obtain ⟨same, -⟩ := feed_stays owned closed
      rw [same] at closed ⊢
      have before := agrees.shows backend closed later (order.trans after)
      rw [exitStep_history owned, unreachableExits_exit]
      by_cases mine : other = file
      · subst mine
        rw [if_pos rfl]
        by_cases unreachable : failure.exitCode = some unreachableExitCode
        · by_cases inside : since (state.breakers backend) later < now
          · simp [unreachable, inside, owned]
          · rw [agrees.no_exit_after backend (order.trans (not_lt.mp inside))]
            simp [inside]
        · simp only [unreachable, false_and, and_false, if_false, false_iff]
          rw [← before other, rowShows_of_lookup found]
          rintro ⟨-, shown⟩
          have hidden := keeps.resolve_left unreachable backend owned
          exact not_shown_later closed hidden after shown
      · rw [if_neg mine, before other]
        split
        · simp [mine]
        · rfl
    · rw [feed_of_ne owned] at closed ⊢
      rw [exitStep_exits_of_ne owned, ← agrees.shows backend closed later (order.trans after) other]
      split
      next mine =>
        subst mine
        rw [rowShows_of_lookup found]
        simp [owned]
      next => rfl
  · intro backend closed later after
    change ((feed state file row failure now).1 backend).trippedAt = none at closed
    change (unreachableExits _ backend (since ((feed state file row failure now).1 backend) later)).Nodup
    by_cases owned : row.backendId = some backend
    · obtain ⟨same, stays⟩ := feed_stays owned closed
      rw [same] at closed ⊢
      have before := agrees.once backend closed later (order.trans after)
      rw [exitStep_history owned, unreachableExits_exit]
      split
      · rename_i exit
        refine List.nodup_cons.mpr ⟨?_, before⟩
        rw [← agrees.shows backend closed later (order.trans after) file, rowShows_of_lookup found]
        rintro ⟨-, shown⟩
        exact stays exit.2.1 (.inl (unreachableAfter_mono (since_mono _ after) shown))
      · exact before
    · rw [feed_of_ne owned] at closed ⊢
      rw [exitStep_exits_of_ne owned]
      exact agrees.once backend closed later (order.trans after)

-- No breaker hears of a deferred exit again that is not unreachable.
theorem agrees_refed (agrees : Agrees state) (order : state.clock ≤ now) (found : state.rows.lookup file = some row)
    (waits : pending row = some failure) (stamp : failedAt = some now ∨ failedAt = none) :
    Agrees (feedStep state file row failure failedAt now) := by
  obtain ⟨unstamped, reason, -, rfl⟩ : row.lastFailedAt = none ∧ ∃ reason, row.lastFailureReason = some reason ∧
      TerminalFailure.mk row.lastExitCode reason = failure := by
    simpa [pending] using waits
  have other : row.lastExitCode ≠ some unreachableExitCode := fun code => agrees.stamped _ _ found code unstamped
  have recorded : Recorded ⟨row.lastExitCode, reason⟩ now failedAt := stamp.imp_right fun none => ⟨none, other⟩
  rw [feedStep, feed_other other]
  refine agrees.replaceRows order (agrees.recorded_clock order recorded) (agrees.recorded_stamped recorded) ?_
  intro backend _ later _ shown
  rw [recorded_rowShows recorded]
  split
  next mine =>
    subst mine
    rw [rowShows_of_lookup found]
    simp [unreachableAfter, other]
  next => rfl

-- On a closed breaker the code's question is the rule, asked of the history with the exit in it.
theorem trips_iff (agrees : Agrees state) (order : state.clock ≤ now) (found : state.rows.lookup file = some row)
    (owned : row.backendId = some backend) (closed : (state.breakers backend).trippedAt = none) :
    Trips state.rows (state.breakers backend) backend file now row.lastExitCode row.lastFailedAt ↔
      TripRule (.exit file backend (some unreachableExitCode) now :: state.history) backend now := by
  have start : windowStart (.exit file backend (some unreachableExitCode) now :: state.history) backend now =
      since (state.breakers backend) now := (since_eq_windowStart agrees backend now).symm
  have shows := agrees.shows backend closed now order
  have once := agrees.once backend closed now order
  have others : otherFiles state.rows backend file (since (state.breakers backend) now) =
      (unreachableExits state.history backend (since (state.breakers backend) now)).toFinset.erase file := by
    ext other
    rw [Finset.mem_erase, List.mem_toFinset, ← shows other]
    simp only [otherFiles, Table.mem_matching, RowShows, Bool.and_eq_true, decide_eq_true_eq]
    grind
  have repeated : unreachableAfter (since (state.breakers backend) now) row.lastExitCode row.lastFailedAt = true ↔
      file ∈ unreachableExits state.history backend (since (state.breakers backend) now) := by
    rw [← shows file, rowShows_of_lookup found]
    simp [owned]
  unfold Trips TripRule
  simp only [start, unreachableExits_exit, others, repeated, true_and]
  generalize exits : unreachableExits state.history backend (since (state.breakers backend) now) = earlier at *
  by_cases inside : since (state.breakers backend) now < now
  · simp only [inside, if_true, List.toFinset_cons]
    have count : (insert file earlier.toFinset).card = (earlier.toFinset.erase file).card + 1 := by
      rw [← Finset.card_erase_add_one (Finset.mem_insert_self file _), Finset.erase_insert_eq_erase]
    have twice : (∃ other ∈ file :: earlier, 2 ≤ (file :: earlier).count other) ↔ file ∈ earlier := by
      constructor
      · rintro ⟨other, -, enough⟩
        have atMost := List.nodup_iff_count_le_one.mp once other
        by_cases same : file = other
        · subst same
          rw [List.count_cons_self] at enough
          exact List.count_pos_iff.mp (by omega)
        · rw [List.count_cons_of_ne same] at enough
          omega
      · intro member
        refine ⟨file, List.mem_cons_self, ?_⟩
        have := List.count_pos_iff.mpr member
        rw [List.count_cons_self]
        omega
    rw [count, twice, or_comm]
    rfl
  · have silent : earlier = [] := by
      rw [← exits, List.eq_nil_iff_forall_not_mem]
      intro other member
      obtain ⟨failed, member, after⟩ := mem_unreachableExits.mp member
      have := agrees.exitClock _ _ _ _ member
      omega
    subst silent
    simp [inside, tripDistinctFiles]

end Exit

theorem step_agrees (state : State File) (action : Action File) (next : State File) (agrees : Agrees state)
    (keeps : KeepsEvidence state action) (stepped : step state action = some next) : Agrees next := by
  cases action with
  | exited file failure now =>
    simp only [step, Option.ite_none_right_eq_some, Option.map_eq_some_iff] at stepped
    obtain ⟨order, row, found, rfl⟩ := stepped
    exact agrees_exited agrees order found (.inl rfl) (keeps.imp_right fun hidden => hidden row found)
  | deferred file failure now =>
    simp only [step, Option.ite_none_right_eq_some, Option.bind_eq_some_iff, Option.ite_none_left_eq_some,
      Option.some.injEq] at stepped
    obtain ⟨order, row, found, -, rfl⟩ := stepped
    exact agrees_exited agrees order found (.inr ⟨rfl, keeps.1⟩) (.inr (keeps.2 row found))
  | refed file stamped now =>
    simp only [step, Option.ite_none_right_eq_some, Option.bind_eq_some_iff] at stepped
    obtain ⟨order, row, found, failure, waits, refed⟩ := stepped
    cases stamped with
    | true =>
      simp only [if_true, Option.some.injEq] at refed
      subst refed
      exact agrees_refed agrees order found waits (.inl rfl)
    | false =>
      simp only [Bool.false_eq_true, if_false, Option.ite_none_left_eq_some, Option.some.injEq] at refed
      obtain ⟨-, rfl⟩ := refed
      exact agrees_refed agrees order found waits (.inr rfl)
  | closed backend now =>
    simp only [step, Option.ite_none_right_eq_some, Option.some.injEq] at stepped
    obtain ⟨order, rfl⟩ := stepped
    exact agrees_closed agrees backend order
  | dispatched file backend placement now =>
    simp only [step, Option.ite_none_right_eq_some, Option.some.injEq] at stepped
    obtain ⟨order, rfl⟩ := stepped
    exact agrees_dispatched agrees order keeps
  | removed file now =>
    simp only [step, Option.ite_none_right_eq_some, Option.some.injEq] at stepped
    obtain ⟨order, rfl⟩ := stepped
    exact agrees_removed agrees order keeps

end Steps

theorem exitStep_of_stepped {state next : State File} {file : File} {row : CloudJob} {failure : TerminalFailure} {now : Int}
    (found : state.rows.lookup file = some row)
    (stepped : step state (.exited file failure now) = some next ∨ step state (.deferred file failure now) = some next) :
    state.clock ≤ now ∧ ∃ failedAt, next = exitStep state file row failure failedAt now := by
  rcases stepped with stepped | stepped
  · simp only [step, Option.ite_none_right_eq_some, found, Option.map_some, Option.some.injEq] at stepped
    exact ⟨stepped.1, _, stepped.2.symm⟩
  · simp only [step, Option.ite_none_right_eq_some, found, Option.bind_some, Option.ite_none_left_eq_some,
      Option.some.injEq] at stepped
    exact ⟨stepped.1, _, stepped.2.2.symm⟩

open Phaze.Runs in
-- Where every step keeps the evidence, an unreachable exit trips a closed breaker exactly when the rule holds on
-- the history. The exit itself may be deferred.
theorem breaker_trips_iff_rule {state next : State File} (actions : List (Action File))
    (along : Along step KeepsEvidence State.initial actions)
    (ran : run step State.initial actions = some state) (file : File) {row : CloudJob} {backend : BackendId}
    (found : state.rows.lookup file = some row) (owned : row.backendId = some backend)
    (closed : (state.breakers backend).trippedAt = none) {reason : String} {now : Int}
    (stepped : step state (.exited file ⟨some unreachableExitCode, reason⟩ now) = some next ∨
      step state (.deferred file ⟨some unreachableExitCode, reason⟩ now) = some next) :
    (next.breakers backend).trippedAt.isSome ↔ TripRule next.history backend now := by
  have agrees : Agrees state := run_keeps step_agrees actions along agrees_initial ran
  obtain ⟨order, failedAt, rfl⟩ := exitStep_of_stepped found stepped
  rw [exitStep_history owned, ← trips_iff agrees order found owned closed]
  have record : (exitStep state file row ⟨some unreachableExitCode, reason⟩ failedAt now).breakers backend =
      (recordUnreachableExit state.rows (state.breakers backend) backend file now row.lastExitCode
        row.lastFailedAt).1 := feed_unreachable owned rfl
  rw [record]
  by_cases trips : Trips state.rows (state.breakers backend) backend file now row.lastExitCode row.lastFailedAt
  · simp [recordUnreachableExit_trips closed trips, trips]
  · simp [recordUnreachableExit_stays closed trips, trips, closed]

namespace Exits

open Phaze.Runs

def unreachable : TerminalFailure := ⟨some 14, "Error"⟩

def crashed : TerminalFailure := ⟨some 1, "Error"⟩

def dispatchAll : List (Action Nat) :=
  [.dispatched 1 "burst" (.kueue "1" "a" "staging") 0, .dispatched 2 "burst" (.kueue "2" "b" "staging") 0,
    .dispatched 3 "burst" (.kueue "3" "c" "staging") 0]

def twoExits : List (Action Nat) :=
  dispatchAll ++ [.exited 1 unreachable (seconds 60), .exited 2 unreachable (seconds 120)]

theorem three_files_trip :
    ∃ state next, run step State.initial twoExits = some state ∧
      step state (.exited 3 unreachable (seconds 180)) = some next ∧
      ((next.breakers "burst").trippedAt.isSome ↔ TripRule next.history "burst" (seconds 180)) ∧
      (next.breakers "burst").trippedAt = some (seconds 180) :=
  ⟨_, _, rfl, rfl, breaker_trips_iff_rule twoExits (by decide) rfl 3 rfl rfl rfl (.inl rfl), by decide⟩

-- The first file fails again with another code before the third exits: the rule holds, and the breaker stays closed.
theorem overwritten_exit_is_lost :
    ∃ state next, run step State.initial (dispatchAll ++ [.exited 1 unreachable (seconds 60),
        .exited 1 crashed (seconds 90), .exited 2 unreachable (seconds 120)]) = some state ∧
      (state.breakers "burst").trippedAt = none ∧
      step state (.exited 3 unreachable (seconds 180)) = some next ∧
      TripRule next.history "burst" (seconds 180) ∧ (next.breakers "burst").trippedAt = none :=
  ⟨_, _, rfl, rfl, rfl, by decide, by decide⟩

-- The three exits come in one tick, while their Jobs are still terminating.
theorem deferred_exits_are_lost :
    ∃ state next, run step State.initial (dispatchAll ++ [.deferred 1 unreachable (seconds 60),
        .deferred 2 unreachable (seconds 60)]) = some state ∧
      (state.breakers "burst").trippedAt = none ∧
      step state (.deferred 3 unreachable (seconds 60)) = some next ∧
      TripRule next.history "burst" (seconds 60) ∧ (next.breakers "burst").trippedAt = none :=
  ⟨_, _, rfl, rfl, rfl, by decide, by decide⟩

end Exits

end Phaze.Cloud.Breaker
