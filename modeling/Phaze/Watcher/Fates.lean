import Mathlib.Tactic.Linarith
import Phaze.Watcher.Debouncer

set_option autoImplicit false

/-!
# What becomes of a changed path

The events of a run, and from them alone the stay of each path: from its first change on, until it is moved away, posted
or dropped.
-/

namespace Phaze.Watcher

open Runs

inductive Event (Path : Type) where
  | touched (path : Path) (time : ℚ) (policy : Option (ℚ × ℚ))
  | left (path : Path)
  | graced (path : Path) (time : ℚ)
  | ready (path : Path) (time : ℚ)
  | evicted (path : Path) (time : ℚ)
  | swept (time : ℚ)
  | posting (path : Path) (previousPaths : List Path)
deriving DecidableEq

structure Stay where
  since : ℚ
  last : ℚ
  policy : Option (ℚ × ℚ)
  graced : Option ℚ
deriving DecidableEq

variable {Path : Type} [DecidableEq Path]

def Stay.touched (stay : Option Stay) (time : ℚ) (policy : Option (ℚ × ℚ)) : Stay :=
  match stay with
  | none => { since := time, last := time, policy, graced := none }
  | some stay => { stay with last := time }

def Stay.next (path : Path) (stay : Option Stay) : Event Path → Option Stay
  | .touched other time policy => if other = path then some (Stay.touched stay time policy) else stay
  | .graced other time => if other = path then stay.map ({ · with graced := some time }) else stay
  | .left other | .ready other _ | .evicted other _ => if other = path then none else stay
  | .swept _ | .posting _ _ => stay

def stay (history : List (Event Path)) (path : Path) : Option Stay := history.foldl (Stay.next path) none

/-! ## The events of a step -/

inductive Verdict where
  | ready
  | evicted
  | graced
  | kept
deriving DecidableEq

def judge (now settlePeriod maxPending : ℚ) (entry : PendingEntry) : Verdict :=
  let (entrySettle, entryCap) := entry.policy.getD (settlePeriod, maxPending)
  if entrySettle ≤ now - entry.lastChangeAt then .ready
  else if entryCap < now - entry.firstSeenAt then
    if entry.capGraceUsed then .evicted else .graced
  else .kept

def verdictEvents (now : ℚ) (path : Path) : Verdict → List (Event Path)
  | .ready => [.ready path now]
  | .evicted => [.evicted path now]
  | .graced => [.graced path now]
  | .kept => []

def startEvents : Sweeper Path → List (Event Path)
  | .sleeping => []
  | .posting path previousPaths _ => [.posting path previousPaths]

section Events

variable (settlePeriod maxPending : ℚ)

def sweepEvents (now : ℚ) (items : List (Path × PendingEntry)) : List (Event Path) :=
  items.flatMap fun item => verdictEvents now item.1 (judge now settlePeriod maxPending item.2)

def events (state next : State Path) : Action Path → List (Event Path)
  | .elapse _ => []
  | .touch policy path => [.touched path state.now policy]
  | .move policy src dest =>
    (if (state.debouncer.pending.get? src).isSome then [.left src] else []) ++ [.touched dest state.now policy]
  | .sweep =>
    sweepEvents settlePeriod maxPending state.now state.debouncer.pending.items ++ [.swept state.now] ++
      startEvents next.sweeper
  | .posted => startEvents next.sweeper

def history : State Path → List (Action Path) → List (Event Path)
  | _, [] => []
  | state, action :: rest =>
    match step settlePeriod maxPending state action with
    | none => []
    | some next => events settlePeriod maxPending state next action ++ history next rest

end Events

/-! ## The law the events keep -/

def Stay.settle (settlePeriod maxPending : ℚ) (stay : Stay) : ℚ := (stay.policy.getD (settlePeriod, maxPending)).1

def Stay.cap (settlePeriod maxPending : ℚ) (stay : Stay) : ℚ := (stay.policy.getD (settlePeriod, maxPending)).2

section Law

variable (settlePeriod maxPending : ℚ)

-- What must be true of the stays before an event.
def Lawful (stays : Path → Option Stay) : Event Path → Prop
  | .touched _ _ _ | .posting _ _ => True
  | .left path => (stays path).isSome
  | .ready path time => ∃ stay, stays path = some stay ∧ stay.settle settlePeriod maxPending ≤ time - stay.last
  | .graced path time =>
    ∃ stay, stays path = some stay ∧ stay.graced = none ∧ time - stay.last < stay.settle settlePeriod maxPending ∧
      stay.cap settlePeriod maxPending < time - stay.since
  | .evicted path time =>
    ∃ stay grace, stays path = some stay ∧ stay.graced = some grace ∧ time - stay.last < stay.settle settlePeriod maxPending ∧
      stay.cap settlePeriod maxPending < time - grace
  | .swept time =>
    ∀ path stay, stays path = some stay → time - stay.last < stay.settle settlePeriod maxPending ∧
      time - stay.graced.getD stay.since ≤ max 0 (stay.cap settlePeriod maxPending)

def AllLawful (history : List (Event Path)) : Prop :=
  ∀ earlier event later, history = earlier ++ event :: later → Lawful settlePeriod maxPending (stay earlier) event

end Law

/-! ## Debouncer and history in step -/

def Stay.entry (stay : Stay) : PendingEntry where
  firstSeenAt := stay.graced.getD stay.since
  lastChangeAt := stay.last
  policy := stay.policy
  capGraceUsed := stay.graced.isSome

variable {settlePeriod maxPending now time : ℚ} {policy : Option (ℚ × ℚ)} {path other : Path} {entry : PendingEntry}
  {debouncer : Debouncer Path} {earlier later : List (Event Path)} {event : Event Path}

theorem stay_append : stay (earlier ++ later) path = later.foldl (Stay.next path) (stay earlier path) := by
  rw [stay, stay, List.foldl_append]

@[simp]
theorem stay_snoc : stay (earlier ++ [event]) path = Stay.next path (stay earlier path) event := stay_append

theorem AllLawful.nil : AllLawful settlePeriod maxPending ([] : List (Event Path)) := by
  intro earlier event later split
  simp at split

theorem AllLawful.snoc (before : AllLawful settlePeriod maxPending earlier)
    (lawful : Lawful settlePeriod maxPending (stay earlier) event) : AllLawful settlePeriod maxPending (earlier ++ [event]) := by
  intro first middle last split
  obtain ⟨rest, rfl, whole⟩ | ⟨rest, rfl, whole⟩ := List.append_eq_append_iff.mp split
  · cases rest with
    | nil =>
      obtain ⟨rfl, rfl⟩ : event = middle ∧ last = [] := by simpa using whole
      simpa using lawful
    | cons _ _ => simp at whole
  · cases rest with
    | nil =>
      obtain ⟨rfl, rfl⟩ : middle = event ∧ last = [] := by simpa using whole
      simpa using lawful
    | cons head rest =>
      obtain ⟨rfl, -⟩ : middle = head ∧ last = rest ++ [event] := by simpa using whole
      exact before first middle rest rfl

theorem AllLawful.before (lawful : AllLawful settlePeriod maxPending (earlier ++ later)) :
    AllLawful settlePeriod maxPending earlier := by
  intro first middle last split
  refine lawful first middle (last ++ later) ?_
  rw [split, List.append_assoc, List.cons_append]

theorem AllLawful.last (lawful : AllLawful settlePeriod maxPending (earlier ++ [event])) :
    Lawful settlePeriod maxPending (stay earlier) event :=
  lawful earlier event [] rfl

structure Accounts (settlePeriod maxPending : ℚ) (debouncer : Debouncer Path) (history : List (Event Path)) : Prop where
  pending : ∀ path, debouncer.pending.get? path = (stay history path).map Stay.entry
  lawful : AllLawful settlePeriod maxPending history

theorem Accounts.new : Accounts settlePeriod maxPending (.new : Debouncer Path) [] where
  pending := fun _ => rfl
  lawful := .nil

theorem Accounts.touch (accounts : Accounts settlePeriod maxPending debouncer earlier) (now : ℚ) (policy : Option (ℚ × ℚ)) (path : Path) :
    Accounts settlePeriod maxPending (debouncer.touch now policy path) (earlier ++ [.touched path now policy]) where
  pending := by
    intro other
    have before := accounts.pending path
    rw [stay_snoc, Stay.next, Debouncer.touch]
    cases staying : stay earlier path with
    | none =>
      rw [staying, Option.map_none] at before
      by_cases same : other = path
      next => simp [before, same, staying, Stay.touched, Stay.entry]
      next => simp [before, same, Ne.symm same, accounts.pending other]
    | some held =>
      rw [staying, Option.map_some] at before
      by_cases same : other = path
      next => simp [before, same, staying, Stay.touched, Stay.entry]
      next => simp [before, same, Ne.symm same, accounts.pending other]
  lawful := accounts.lawful.snoc trivial

theorem Accounts.leave (accounts : Accounts settlePeriod maxPending debouncer earlier) (staying : (debouncer.pending.get? path).isSome) :
    Accounts settlePeriod maxPending (debouncer.drop path) (earlier ++ [.left path]) where
  pending := by
    intro other
    rw [stay_snoc, Stay.next, Debouncer.drop]
    by_cases same : other = path
    next => simp [same]
    next => simp [same, Ne.symm same, accounts.pending other]
  lawful := by
    refine accounts.lawful.snoc ?_
    rw [accounts.pending path, Option.isSome_map] at staying
    exact staying

theorem touch_lineage : (debouncer.touch now policy path).lineage = debouncer.lineage := by
  rw [Debouncer.touch]
  split <;> rfl

theorem Accounts.of_pending {others : Debouncer Path} (accounts : Accounts settlePeriod maxPending debouncer earlier)
    (same : others.pending = debouncer.pending) : Accounts settlePeriod maxPending others earlier :=
  ⟨same ▸ accounts.pending, accounts.lawful⟩

theorem Accounts.move (accounts : Accounts settlePeriod maxPending debouncer earlier) (now : ℚ) (policy : Option (ℚ × ℚ)) (src dest : Path) :
    Accounts settlePeriod maxPending (debouncer.move now policy src dest)
      (earlier ++ ((if (debouncer.pending.get? src).isSome then [.left src] else []) ++ [.touched dest now policy])) := by
  rw [← List.append_assoc, Debouncer.move]
  split
  next staying => exact ((accounts.leave staying).touch now policy dest).of_pending rfl
  next =>
    rw [List.append_nil]
    exact (accounts.touch now policy dest).of_pending rfl

/-! ## A sweep -/

def remains (now : ℚ) (entry : PendingEntry) : Verdict → Option PendingEntry
  | .ready | .evicted => none
  | .graced => some { entry with capGraceUsed := true, firstSeenAt := now }
  | .kept => some entry

section Round

open Debouncer (Swept sweepEntry)

variable {swept : Swept Path}

theorem sweepEntry_pending (found : swept.debouncer.pending.get? path = some entry) :
    (sweepEntry now settlePeriod maxPending swept path entry).debouncer.pending.get? other =
      if other = path then remains now entry (judge now settlePeriod maxPending entry) else swept.debouncer.pending.get? other := by
  unfold sweepEntry judge
  dsimp only
  split
  next => simp [remains]
  next =>
    split
    next =>
      split
      next => simp [remains, Debouncer.drop]
      next => simp [remains]
    next =>
      by_cases same : other = path
      next => simp [remains, same, found]
      next => simp [same]

theorem sweepEntry_ready : (sweepEntry now settlePeriod maxPending swept path entry).ready =
    swept.ready ++ if judge now settlePeriod maxPending entry = .ready then [path] else [] := by
  unfold sweepEntry judge
  dsimp only
  split
  next => simp
  next =>
    split
    next => split <;> simp
    next => simp

theorem sweepEntry_accounts (accounts : Accounts settlePeriod maxPending swept.debouncer earlier)
    (found : swept.debouncer.pending.get? path = some entry) :
    Accounts settlePeriod maxPending (sweepEntry now settlePeriod maxPending swept path entry).debouncer
      (earlier ++ verdictEvents now path (judge now settlePeriod maxPending entry)) := by
  have held := accounts.pending path
  rw [found] at held
  obtain ⟨staying, before, rfl⟩ := Option.map_eq_some_iff.mp held.symm
  refine ⟨fun other => ?_, ?_⟩
  · rw [sweepEntry_pending found]
    by_cases same : other = path
    next =>
      subst same
      rw [if_pos rfl]
      cases judge now settlePeriod maxPending staying.entry <;>
        simp [verdictEvents, remains, Stay.next, before, Stay.entry]
    next =>
      rw [if_neg same, accounts.pending other]
      cases judge now settlePeriod maxPending staying.entry <;>
        simp [verdictEvents, Stay.next, Ne.symm same]
  · have settled : staying.settle settlePeriod maxPending = (staying.entry.policy.getD (settlePeriod, maxPending)).1 := rfl
    have capped : staying.cap settlePeriod maxPending = (staying.entry.policy.getD (settlePeriod, maxPending)).2 := rfl
    unfold judge
    dsimp only
    rw [← settled, ← capped]
    split
    next quiet => exact accounts.lawful.snoc ⟨staying, before, quiet⟩
    next unsettled =>
      split
      next crossed =>
        cases graced : staying.graced with
        | none =>
          have used : staying.entry.capGraceUsed = false := by simp [Stay.entry, graced]
          rw [used]
          refine accounts.lawful.snoc ⟨staying, before, graced, not_le.mp unsettled, ?_⟩
          simpa [Stay.entry, graced] using crossed
        | some grace =>
          have used : staying.entry.capGraceUsed = true := by simp [Stay.entry, graced]
          rw [used]
          refine accounts.lawful.snoc ⟨staying, grace, before, graced, not_le.mp unsettled, ?_⟩
          simpa [Stay.entry, graced] using crossed
      next => simpa [verdictEvents] using accounts.lawful

-- What a sweep leaves pending.
def Unsettled (settlePeriod maxPending now : ℚ) (entry : PendingEntry) : Prop :=
  now - entry.lastChangeAt < (entry.policy.getD (settlePeriod, maxPending)).1 ∧
    now - entry.firstSeenAt ≤ max 0 (entry.policy.getD (settlePeriod, maxPending)).2

theorem unsettled_of_remains {left : PendingEntry}
    (kept : remains now entry (judge now settlePeriod maxPending entry) = some left) :
    Unsettled settlePeriod maxPending now left := by
  unfold judge at kept
  dsimp only at kept
  split at kept
  next => simp [remains] at kept
  next unsettled =>
    split at kept
    next =>
      split at kept
      next => simp [remains] at kept
      next =>
        obtain rfl := Option.some.inj kept
        exact ⟨not_le.mp unsettled, by simp⟩
    next young =>
      obtain rfl := Option.some.inj kept
      exact ⟨not_le.mp unsettled, (not_lt.mp young).trans (le_max_right _ _)⟩

def readyPaths (history : List (Event Path)) : List Path :=
  history.filterMap fun | .ready path _ => some path | _ => none

def startedPaths (history : List (Event Path)) : List Path :=
  history.filterMap fun | .posting path _ => some path | _ => none

omit [DecidableEq Path] in
@[simp]
theorem readyPaths_append : readyPaths (earlier ++ later) = readyPaths earlier ++ readyPaths later := List.filterMap_append

omit [DecidableEq Path] in
@[simp]
theorem startedPaths_append : startedPaths (earlier ++ later) = startedPaths earlier ++ startedPaths later :=
  List.filterMap_append

omit [DecidableEq Path] in
theorem readyPaths_verdictEvents (verdict : Verdict) :
    readyPaths (verdictEvents now path verdict) = if verdict = .ready then [path] else [] := by
  cases verdict <;> rfl

omit [DecidableEq Path] in
theorem sweepEvents_cons (item : Path × PendingEntry) (items : List (Path × PendingEntry)) :
    sweepEvents settlePeriod maxPending now (item :: items) =
      verdictEvents now item.1 (judge now settlePeriod maxPending item.2) ++ sweepEvents settlePeriod maxPending now items :=
  List.flatMap_cons

omit [DecidableEq Path] in
theorem startedPaths_sweepEvents (items : List (Path × PendingEntry)) :
    startedPaths (sweepEvents settlePeriod maxPending now items) = [] := by
  induction items with
  | nil => rfl
  | cons item rest ih =>
    rw [sweepEvents_cons, startedPaths_append, ih]
    cases judge now settlePeriod maxPending item.2 <;> rfl

theorem sweepFrom_accounts (now : ℚ) (swept : Swept Path) (items : List (Path × PendingEntry)) (distinct : (items.map Prod.fst).Nodup)
    (each : ∀ item ∈ items, swept.debouncer.pending.get? item.1 = some item.2)
    (rest : ∀ path entry, swept.debouncer.pending.get? path = some entry → path ∉ items.map Prod.fst →
      Unsettled settlePeriod maxPending now entry)
    (accounts : Accounts settlePeriod maxPending swept.debouncer earlier) :
    let final := items.foldl (fun swept item => sweepEntry now settlePeriod maxPending swept item.1 item.2) swept
    Accounts settlePeriod maxPending final.debouncer (earlier ++ sweepEvents settlePeriod maxPending now items) ∧
      final.ready = swept.ready ++ readyPaths (sweepEvents settlePeriod maxPending now items) ∧
      ∀ path entry, final.debouncer.pending.get? path = some entry → Unsettled settlePeriod maxPending now entry := by
  induction items generalizing swept earlier with
  | nil =>
    refine ⟨by simpa [sweepEvents] using accounts, by simp [sweepEvents, readyPaths], ?_⟩
    intro path entry found
    exact rest path entry found (by simp)
  | cons item later ih =>
    obtain ⟨fresh, distinct⟩ := List.nodup_cons.mp distinct
    have found := each item List.mem_cons_self
    obtain ⟨holds, ready, settled⟩ := ih (sweepEntry now settlePeriod maxPending swept item.1 item.2) distinct
      (by
        intro other member
        have apart : other.1 ≠ item.1 := fun same => fresh (same ▸ List.mem_map_of_mem member)
        rw [sweepEntry_pending found, if_neg apart]
        exact each other (List.mem_cons_of_mem item member))
      (by
        intro path entry remaining outside
        rw [sweepEntry_pending found] at remaining
        split at remaining
        next => exact unsettled_of_remains remaining
        next apart =>
          refine rest path entry remaining ?_
          rw [List.map_cons, List.mem_cons]
          exact fun member => member.elim apart outside)
      (sweepEntry_accounts accounts found)
    rw [List.append_assoc, ← sweepEvents_cons] at holds
    refine ⟨holds, ?_, settled⟩
    rw [List.foldl_cons, ready, sweepEntry_ready, List.append_assoc, sweepEvents_cons, readyPaths_append,
      readyPaths_verdictEvents]

end Round

/-! ## Whole runs -/

-- The paths that `_post_ready_paths` has not come to.
def Sweeper.rest : Sweeper Path → List Path
  | .sleeping => []
  | .posting _ _ rest => rest

structure Accounted (settlePeriod maxPending : ℚ) (state : State Path) (history : List (Event Path)) : Prop where
  accounts : Accounts settlePeriod maxPending state.debouncer history
  posted : readyPaths history = startedPaths history ++ state.sweeper.rest

theorem startedPaths_startEvents (debouncer : Debouncer Path) (paths : List Path) :
    startedPaths (startEvents (postNext debouncer paths)) ++ (postNext debouncer paths).rest = paths := by
  cases paths <;> rfl

omit [DecidableEq Path] in
theorem readyPaths_startEvents (sweeper : Sweeper Path) : readyPaths (startEvents sweeper) = [] := by
  cases sweeper <;> rfl

theorem Accounts.start (accounts : Accounts settlePeriod maxPending debouncer earlier) (sweeper : Sweeper Path) :
    Accounts settlePeriod maxPending debouncer (earlier ++ startEvents sweeper) := by
  cases sweeper with
  | sleeping => simpa [startEvents] using accounts
  | posting path previousPaths rest =>
    refine ⟨fun other => ?_, accounts.lawful.snoc trivial⟩
    rw [startEvents, stay_snoc, accounts.pending other]
    rfl

theorem Accounts.swept (accounts : Accounts settlePeriod maxPending debouncer earlier)
    (settled : ∀ path entry, debouncer.pending.get? path = some entry → Unsettled settlePeriod maxPending now entry) :
    Accounts settlePeriod maxPending debouncer (earlier ++ [.swept now]) where
  pending := by
    intro other
    rw [stay_snoc, accounts.pending other]
    rfl
  lawful := by
    refine accounts.lawful.snoc fun path staying found => ?_
    refine settled path staying.entry ?_
    rw [accounts.pending path, found]
    rfl

theorem step_accounted {state next : State Path} {action : Action Path}
    (accounted : Accounted settlePeriod maxPending state earlier)
    (stepped : step settlePeriod maxPending state action = some next) :
    Accounted settlePeriod maxPending next (earlier ++ events settlePeriod maxPending state next action) := by
  obtain ⟨accounts, posted⟩ := accounted
  cases action with
  | elapse seconds =>
    simp only [step] at stepped
    split at stepped
    next =>
      obtain rfl := Option.some.inj stepped
      rw [events, List.append_nil]
      exact ⟨accounts, posted⟩
    next => cases stepped
  | touch policy path =>
    obtain rfl := Option.some.inj stepped
    exact ⟨accounts.touch state.now policy path, by simpa [events, readyPaths, startedPaths] using posted⟩
  | move policy src dest =>
    obtain rfl := Option.some.inj stepped
    refine ⟨accounts.move state.now policy src dest, ?_⟩
    simp only [events]
    split <;> simpa [readyPaths, startedPaths] using posted
  | sweep =>
    simp only [step] at stepped
    split at stepped
    next => cases stepped
    next sleeping =>
      obtain rfl := Option.some.inj stepped
      obtain ⟨holds, ready, settled⟩ := sweepFrom_accounts state.now ⟨state.debouncer, [], []⟩ state.debouncer.pending.items
        state.debouncer.pending.distinct (fun item member => Dict.mem_items.mp member)
        (by
          intro path entry found outside
          exact absurd (Dict.mem_keys.mpr ⟨entry, found⟩) outside)
        accounts
      refine ⟨?_, ?_⟩
      · rw [events, ← List.append_assoc, ← List.append_assoc]
        exact (holds.swept settled).start _
      · have waiting : readyPaths earlier = startedPaths earlier := by simpa [sleeping, Sweeper.rest] using posted
        have started := startedPaths_startEvents (state.debouncer.sweep state.now settlePeriod maxPending).debouncer
          (state.debouncer.sweep state.now settlePeriod maxPending).ready
        simp only [events, readyPaths_append, startedPaths_append, readyPaths_startEvents, startedPaths_sweepEvents, waiting,
          List.append_assoc]
        rw [List.append_cancel_left_eq]
        simpa [readyPaths, startedPaths, Debouncer.sweep, ready] using started.symm
  | posted =>
    simp only [step] at stepped
    split at stepped
    next => cases stepped
    next path previousPaths rest posting =>
      obtain rfl := Option.some.inj stepped
      refine ⟨?_, ?_⟩
      · have forgotten : Accounts settlePeriod maxPending (state.debouncer.forget path) earlier := accounts.of_pending rfl
        exact forgotten.start _
      · have started := startedPaths_startEvents (state.debouncer.forget path) rest
        rw [posting] at posted
        simp only [events, readyPaths_append, startedPaths_append, readyPaths_startEvents, List.append_assoc, List.append_nil, posted]
        rw [List.append_cancel_left_eq]
        exact started.symm

theorem run_accounted {state final : State Path} {actions : List (Action Path)}
    (accounted : Accounted settlePeriod maxPending state earlier)
    (ran : run (step settlePeriod maxPending) state actions = some final) :
    Accounted settlePeriod maxPending final (earlier ++ history settlePeriod maxPending state actions) := by
  induction actions generalizing state earlier with
  | nil =>
    obtain rfl := Option.some.inj ran
    simpa [history] using accounted
  | cons action rest ih =>
    obtain ⟨next, stepped, ran⟩ := run_cons.mp ran
    have later := ih (step_accounted accounted stepped) ran
    rw [history, stepped]
    rwa [List.append_assoc] at later

theorem run_new {start : ℚ} {state : State Path} {actions : List (Action Path)}
    (ran : run (step settlePeriod maxPending) (State.new start) actions = some state) :
    Accounted settlePeriod maxPending state (history settlePeriod maxPending (State.new start) actions) := by
  have started : Accounted settlePeriod maxPending (.new start : State Path) [] := ⟨.new, rfl⟩
  simpa using run_accounted started ran

end Phaze.Watcher
