import Phaze.Watcher.Fates

set_option autoImplicit false

/-!
# How long a path is held back

What the law of the events gives of a whole run: no path is dropped before it was unsettled at two crossings of the cap,
and where the sweeps keep coming none is held much longer than two caps.
-/

namespace Phaze.Watcher

open Runs

variable {Path : Type} [DecidableEq Path]

def Event.time : Event Path → Option ℚ
  | .touched _ time _ | .graced _ time | .ready _ time | .evicted _ time | .swept time => some time
  | .left _ | .posting _ _ => none

section Bound

variable (settlePeriod maxPending gap : ℚ)

-- Never more than `gap` passes between two sweeps, or since the last; `waited` has passed already.
def Prompt : ℚ → List (Action Path) → Prop
  | _, [] => True
  | waited, .elapse seconds :: rest => waited + seconds ≤ gap ∧ Prompt (waited + seconds) rest
  | _, .sweep :: rest => Prompt 0 rest
  | waited, .touch _ _ :: rest | waited, .move _ _ _ :: rest | waited, .posted :: rest => Prompt waited rest

def Stay.limit (stay : Stay) : ℚ := max 0 (stay.cap settlePeriod maxPending)

structure Stay.Timely (now waited : ℚ) (stay : Stay) : Prop where
  recent : now - stay.graced.getD stay.since ≤ stay.limit settlePeriod maxPending + waited
  crossed : ∀ grace, stay.graced = some grace → grace - stay.since ≤ stay.limit settlePeriod maxPending + gap

def Timely (now waited : ℚ) (stays : Path → Option Stay) : Prop :=
  ∀ path stay, stays path = some stay → stay.Timely settlePeriod maxPending gap now waited

end Bound

variable {settlePeriod maxPending gap now waited : ℚ} {earlier later : List (Event Path)} {event : Event Path} {path : Path}

omit [DecidableEq Path] in
theorem Timely.elapsed {stays : Path → Option Stay} (timely : Timely settlePeriod maxPending gap now waited stays) (seconds : ℚ) :
    Timely settlePeriod maxPending gap (now + seconds) (waited + seconds) stays := by
  intro path stay found
  obtain ⟨recent, crossed⟩ := timely path stay found
  exact ⟨by linarith, crossed⟩

theorem Timely.snoc (timely : Timely settlePeriod maxPending gap now waited (stay earlier))
    (lawful : Lawful settlePeriod maxPending (stay earlier) event) (timed : ∀ time, event.time = some time → time = now)
    (started : 0 ≤ waited) (prompt : waited ≤ gap) :
    Timely settlePeriod maxPending gap now waited (stay (earlier ++ [event])) := by
  intro path staying found
  rw [stay_snoc] at found
  cases event with
  | touched other time policy =>
    obtain rfl := timed time rfl
    rw [Stay.next] at found
    split at found
    next =>
      obtain rfl := Option.some.inj found
      cases before : stay earlier path with
      | none =>
        refine ⟨?_, fun grace graced => by cases graced⟩
        have bounded : (0 : ℚ) ≤ Stay.limit settlePeriod maxPending (Stay.touched none time policy) := le_max_left _ _
        simp only [Stay.touched, Option.getD_none, sub_self] at bounded ⊢
        linarith
      | some held =>
        obtain ⟨recent, crossed⟩ := timely path held before
        exact ⟨recent, crossed⟩
    next => exact timely path staying found
  | graced other time =>
    obtain rfl := timed time rfl
    rw [Stay.next] at found
    split at found
    next same =>
      subst same
      obtain ⟨held, before, rfl⟩ := Option.map_eq_some_iff.mp found
      obtain ⟨recent, -⟩ := timely other held before
      obtain ⟨same, known, fresh, -, -⟩ := lawful
      obtain rfl := Option.some.inj (known.symm.trans before)
      rw [fresh, Option.getD_none] at recent
      have bounded : 0 ≤ Stay.limit settlePeriod maxPending same := le_max_left _ _
      refine ⟨?_, ?_⟩
      · change time - time ≤ Stay.limit settlePeriod maxPending same + waited
        linarith
      · rintro grace ⟨⟩
        change time - same.since ≤ Stay.limit settlePeriod maxPending same + gap
        linarith
    next => exact timely path staying found
  | left other | ready other time | evicted other time =>
    rw [Stay.next] at found
    split at found
    next => cases found
    next => exact timely path staying found
  | swept time | posting other previousPaths => exact timely path staying found

theorem Timely.append (timely : Timely settlePeriod maxPending gap now waited (stay earlier))
    (lawful : AllLawful settlePeriod maxPending (earlier ++ later))
    (timed : ∀ event ∈ later, ∀ time, event.time = some time → time = now)
    (started : 0 ≤ waited) (prompt : waited ≤ gap) :
    Timely settlePeriod maxPending gap now waited (stay (earlier ++ later)) := by
  induction later generalizing earlier with
  | nil => simpa using timely
  | cons event rest ih =>
    have next := timely.snoc (lawful earlier event rest rfl) (timed event List.mem_cons_self) started prompt
    rw [List.append_cons] at lawful ⊢
    exact ih next lawful fun other member => timed other (List.mem_cons_of_mem event member)

theorem Timely.swept (timely : Timely settlePeriod maxPending gap now waited (stay earlier))
    (lawful : Lawful settlePeriod maxPending (stay earlier) (.swept now)) :
    Timely settlePeriod maxPending gap now 0 (stay earlier) := by
  intro path staying found
  obtain ⟨-, recent⟩ := lawful path staying found
  exact ⟨by rw [add_zero]; exact recent, (timely path staying found).crossed⟩

theorem graced_late (lawful : AllLawful settlePeriod maxPending earlier) {staying : Stay} {grace : ℚ}
    (found : stay earlier path = some staying) (graced : staying.graced = some grace) :
    staying.cap settlePeriod maxPending < grace - staying.since := by
  induction earlier using List.reverseRecOn generalizing staying with
  | nil => cases found
  | append_singleton history event ih =>
    have before := lawful.before
    have current := lawful.last
    rw [stay_snoc] at found
    cases event with
    | touched other time policy =>
      rw [Stay.next] at found
      split at found
      next =>
        cases held : stay history path with
        | none =>
          rw [held] at found
          obtain rfl := Option.some.inj found
          cases graced
        | some stayed =>
          rw [held] at found
          obtain rfl := Option.some.inj found
          exact @ih before stayed held graced
      next => exact ih before found graced
    | graced other time =>
      rw [Stay.next] at found
      split at found
      next same =>
        subst same
        obtain ⟨held, known, rfl⟩ := Option.map_eq_some_iff.mp found
        obtain ⟨same, known', -, -, crossing⟩ := current
        obtain rfl := Option.some.inj (known'.symm.trans known)
        obtain rfl := Option.some.inj graced
        exact crossing
      next => exact ih before found graced
    | left other | ready other time | evicted other time =>
      rw [Stay.next] at found
      split at found
      next => cases found
      next => exact ih before found graced
    | swept time | posting other previousPaths => exact ih before found graced

/-! ## Along a run -/

omit [DecidableEq Path] in
theorem sweepEvents_timed (items : List (Path × PendingEntry)) :
    ∀ event ∈ sweepEvents settlePeriod maxPending now items, ∀ time, event.time = some time → time = now := by
  intro event member time timed
  obtain ⟨item, -, inside⟩ := List.mem_flatMap.mp member
  cases verdict : judge now settlePeriod maxPending item.2 <;> rw [verdict] at inside <;>
    simp only [verdictEvents, List.mem_singleton, List.not_mem_nil] at inside <;>
    simp_all [Event.time]

theorem stay_start (sweeper : Sweeper Path) : stay (earlier ++ startEvents sweeper) path = stay earlier path := by
  cases sweeper <;> simp [startEvents, Stay.next]

theorem step_timely {state next : State Path} {action : Action Path} {rest : List (Action Path)}
    (accounted : Accounted settlePeriod maxPending state earlier)
    (timely : Timely settlePeriod maxPending gap state.now waited (stay earlier)) (started : 0 ≤ waited) (within : waited ≤ gap)
    (prompt : Prompt gap waited (action :: rest)) (stepped : step settlePeriod maxPending state action = some next) :
    ∃ waiting, 0 ≤ waiting ∧ waiting ≤ gap ∧ Prompt gap waiting rest ∧
      Timely settlePeriod maxPending gap next.now waiting (stay (earlier ++ events settlePeriod maxPending state next action)) := by
  have lawful := (step_accounted accounted stepped).accounts.lawful
  cases action with
  | elapse seconds =>
    simp only [step] at stepped
    split at stepped
    next forward =>
      obtain rfl := Option.some.inj stepped
      refine ⟨waited + seconds, by linarith, prompt.1, prompt.2, ?_⟩
      rw [events, List.append_nil]
      exact timely.elapsed seconds
    next => cases stepped
  | touch policy path =>
    obtain rfl := Option.some.inj stepped
    refine ⟨waited, started, within, prompt, timely.append lawful ?_ started within⟩
    simp [events, Event.time]
  | move policy src dest =>
    obtain rfl := Option.some.inj stepped
    refine ⟨waited, started, within, prompt, timely.append lawful ?_ started within⟩
    simp only [events]
    split <;> simp [Event.time]
  | sweep =>
    simp only [step] at stepped
    split at stepped
    next => cases stepped
    next =>
      obtain rfl := Option.some.inj stepped
      refine ⟨0, le_refl 0, started.trans within, prompt, ?_⟩
      rw [events, ← List.append_assoc, ← List.append_assoc] at lawful ⊢
      have after := timely.append lawful.before.before (sweepEvents_timed _) started within
      have swept := after.swept lawful.before.last
      intro path staying found
      rw [stay_start, stay_snoc] at found
      exact swept path staying found
  | posted =>
    simp only [step] at stepped
    split at stepped
    next => cases stepped
    next =>
      obtain rfl := Option.some.inj stepped
      refine ⟨waited, started, within, prompt, ?_⟩
      intro path staying found
      rw [events, stay_start] at found
      exact timely path staying found

theorem run_timely {state final : State Path} {actions : List (Action Path)}
    (accounted : Accounted settlePeriod maxPending state earlier)
    (timely : Timely settlePeriod maxPending gap state.now waited (stay earlier)) (started : 0 ≤ waited) (within : waited ≤ gap)
    (prompt : Prompt gap waited actions) (ran : run (step settlePeriod maxPending) state actions = some final) :
    ∃ waiting, waiting ≤ gap ∧
      Timely settlePeriod maxPending gap final.now waiting (stay (earlier ++ history settlePeriod maxPending state actions)) := by
  induction actions generalizing state earlier waited with
  | nil =>
    obtain rfl := Option.some.inj ran
    exact ⟨waited, within, by simpa [history] using timely⟩
  | cons action rest ih =>
    obtain ⟨next, stepped, ran⟩ := run_cons.mp ran
    obtain ⟨waiting, started, within, prompt, timely⟩ := step_timely accounted timely started within prompt stepped
    obtain ⟨later, within, timely⟩ := ih (step_accounted accounted stepped) timely started within prompt ran
    refine ⟨later, within, ?_⟩
    rw [history, stepped]
    rwa [List.append_assoc] at timely

theorem changed_paths_are_accounted {start : ℚ} {state : State Path} {actions : List (Action Path)}
    (ran : run (step settlePeriod maxPending) (State.new start) actions = some state) :
    (∀ path, state.debouncer.pending.get? path =
      (stay (history settlePeriod maxPending (State.new start) actions) path).map Stay.entry) ∧
    AllLawful settlePeriod maxPending (history settlePeriod maxPending (State.new start) actions) ∧
    (∀ earlier path time later,
      history settlePeriod maxPending (State.new start) actions = earlier ++ .evicted path time :: later →
        ∃ staying, stay earlier path = some staying ∧ time - staying.last < staying.settle settlePeriod maxPending ∧
          2 * staying.cap settlePeriod maxPending < time - staying.since) ∧
    readyPaths (history settlePeriod maxPending (State.new start) actions) =
      startedPaths (history settlePeriod maxPending (State.new start) actions) ++ state.sweeper.rest := by
  obtain ⟨⟨pending, lawful⟩, posted⟩ := run_new ran
  refine ⟨pending, lawful, ?_, posted⟩
  intro earlier path time later split
  obtain ⟨staying, grace, found, graced, unsettled, crossed⟩ := lawful earlier _ later split
  rw [split] at lawful
  have late := graced_late lawful.before found graced
  exact ⟨staying, found, unsettled, by linarith⟩

-- Path 1 keeps changing and is dropped; path 2 is left alone and posted.
def stuckAndQuiet : List (Action Nat) :=
  [.touch none 1, .touch none 2, .elapse 10, .touch none 1, .sweep, .posted, .elapse 15, .touch none 1, .sweep, .elapse 25, .touch none 1,
    .sweep]

theorem stuck_and_quiet_are_accounted : ∃ state, run (step 10 20) (State.new 0) stuckAndQuiet = some state ∧
    (∀ path, state.debouncer.pending.get? path = (stay (history 10 20 (State.new 0) stuckAndQuiet) path).map Stay.entry) ∧
    readyPaths (history 10 20 (State.new 0) stuckAndQuiet) = [2] ∧
    .evicted 1 50 ∈ history 10 20 (State.new 0) stuckAndQuiet := by
  obtain ⟨state, ran⟩ := Option.isSome_iff_exists.mp
    (show (run (step 10 20) (State.new 0) stuckAndQuiet).isSome = true by decide +kernel)
  have accounted := changed_paths_are_accounted ran
  exact ⟨state, ran, accounted.1, by decide +kernel, by decide +kernel⟩

theorem no_path_waits_longer {start : ℚ} {state : State Path} {actions : List (Action Path)} (started : 0 ≤ gap)
    (prompt : Prompt gap 0 actions) (ran : run (step settlePeriod maxPending) (State.new start) actions = some state)
    {entry : PendingEntry} (pending : state.debouncer.pending.get? path = some entry) :
    ∃ staying, stay (history settlePeriod maxPending (State.new start) actions) path = some staying ∧ staying.entry = entry ∧
      state.now - staying.since ≤ 2 * (staying.limit settlePeriod maxPending + gap) := by
  have accounted := run_new ran
  rw [accounted.accounts.pending path] at pending
  obtain ⟨staying, found, held⟩ := Option.map_eq_some_iff.mp pending
  refine ⟨staying, found, held, ?_⟩
  have began : Timely settlePeriod maxPending gap start 0 (stay ([] : List (Event Path))) := by
    intro path staying found
    cases found
  obtain ⟨waiting, within, timely⟩ := run_timely ⟨.new, rfl⟩ began le_rfl started prompt ran
  obtain ⟨recent, crossed⟩ := timely path staying found
  cases graced : staying.graced with
  | none =>
    rw [graced, Option.getD_none] at recent
    have bounded : 0 ≤ staying.limit settlePeriod maxPending := le_max_left _ _
    linarith
  | some grace =>
    have earlier := crossed grace graced
    rw [graced, Option.getD_some] at recent
    linarith

theorem stuck_path_waits : ∃ state, run (step 10 20) (State.new 0) (stuckAndQuiet.take 8) = some state ∧
    ∃ staying, stay (history 10 20 (State.new 0) (stuckAndQuiet.take 8)) 1 = some staying ∧
      state.now - staying.since ≤ 2 * (staying.limit 10 20 + 25) := by
  obtain ⟨state, ran⟩ := Option.isSome_iff_exists.mp
    (show (run (step 10 20) (State.new 0) (stuckAndQuiet.take 8)).isSome = true by decide +kernel)
  have found : ((run (step 10 20) (State.new 0) (stuckAndQuiet.take 8)).bind fun state => state.debouncer.pending.get? 1).isSome := by
    decide +kernel
  rw [ran, Option.bind_some] at found
  obtain ⟨entry, pending⟩ := Option.isSome_iff_exists.mp found
  obtain ⟨staying, known, -, bounded⟩ := no_path_waits_longer (show (0 : ℚ) ≤ 25 by norm_num)
    (by norm_num [Prompt, stuckAndQuiet]) ran pending
  exact ⟨state, ran, staying, known, bounded⟩

end Phaze.Watcher
