import Phaze.Watcher.Waiting

set_option autoImplicit false

/-!
# The names a moved path is posted with

What a path was moved away from is held until its post has finished. A move onto a path whose post is under way is
forgotten with that post.
-/

namespace Phaze.Watcher

open Runs
open Debouncer (Swept sweepEntry)

variable {Path : Type} [DecidableEq Path] {settlePeriod maxPending now : ℚ} {policy : Option (ℚ × ℚ)} {path other src dest : Path}
  {entry : PendingEntry} {debouncer : Debouncer Path} {state next : State Path} {action : Action Path}

/-! ## What each operation does to the lineages -/

theorem move_lineage : (debouncer.move now policy src dest).lineage.get? other =
    if other = dest then some (debouncer.lineageOf src ++ [src])
    else if other = src ∧ (debouncer.pending.get? src).isSome then none else debouncer.lineage.get? other := by
  rw [Debouncer.move]
  dsimp only
  rw [Dict.get?_set, touch_lineage]
  by_cases reached : other = dest
  next => rw [if_pos reached, if_pos reached]
  next =>
    rw [if_neg reached, if_neg reached]
    split
    next left => simp [Debouncer.drop, left]
    next stays => simp [stays]

theorem sweepEntry_lineage {swept : Swept Path} :
    (sweepEntry now settlePeriod maxPending swept path entry).debouncer.lineage.get? other =
      if other = path ∧ judge now settlePeriod maxPending entry = .evicted then none else swept.debouncer.lineage.get? other := by
  unfold sweepEntry judge
  dsimp only
  split
  next => simp
  next =>
    split
    next =>
      split
      next => simp [Debouncer.drop]
      next => simp
    next => simp

theorem sweepFrom_lineage (swept : Swept Path) (items : List (Path × PendingEntry))
    (spared : ∀ time, .evicted other time ∉ sweepEvents settlePeriod maxPending now items) :
    (items.foldl (fun swept item => sweepEntry now settlePeriod maxPending swept item.1 item.2) swept).debouncer.lineage.get? other =
      swept.debouncer.lineage.get? other := by
  induction items generalizing swept with
  | nil => rfl
  | cons item rest ih =>
    rw [List.foldl_cons, ih, sweepEntry_lineage, if_neg]
    · rintro ⟨rfl, evicted⟩
      refine spared now ?_
      rw [sweepEvents_cons, evicted]
      exact List.mem_append_left _ (List.mem_singleton_self _)
    · intro time member
      refine spared time ?_
      rw [sweepEvents_cons]
      exact List.mem_append_right _ member

/-! ## From the move to the post -/

-- The step moves neither onto nor away from `dest` and does not drop it.
def Spares (dest : Path) (action : Action Path) (events : List (Event Path)) : Prop :=
  (∀ policy src other, action = .move policy src other → src ≠ dest ∧ other ≠ dest) ∧ ∀ time, .evicted dest time ∉ events

-- Nor does any step of the run so far start its post.
def Undisturbed (settlePeriod maxPending : ℚ) (dest : Path) (state : State Path) (action : Action Path) : Prop :=
  ∀ next, step settlePeriod maxPending state action = some next →
    Spares dest action (events settlePeriod maxPending state next action) ∧
      ∀ names, .posting dest names ∉ events settlePeriod maxPending state next action

def Sweeper.Flying (sweeper : Sweeper Path) (path : Path) : Prop := ∃ names rest, sweeper = .posting path names rest

-- A post under way ends with the names forgotten; nothing else takes them.
theorem step_lineage (stepped : step settlePeriod maxPending state action = some next)
    (spares : Spares dest action (events settlePeriod maxPending state next action)) :
    (next.debouncer.lineage.get? dest = state.debouncer.lineage.get? dest ∧
        (state.sweeper.Flying dest → next.sweeper.Flying dest)) ∨
      state.sweeper.Flying dest ∧ next.debouncer.lineage.get? dest = none := by
  cases action with
  | elapse seconds =>
    simp only [step] at stepped
    split at stepped
    next =>
      obtain rfl := Option.some.inj stepped
      exact .inl ⟨rfl, id⟩
    next => cases stepped
  | touch policy path =>
    obtain rfl := Option.some.inj stepped
    exact .inl ⟨by rw [touch_lineage], id⟩
  | move policy src other =>
    obtain rfl := Option.some.inj stepped
    obtain ⟨apart, aside⟩ := spares.1 policy src other rfl
    refine .inl ⟨?_, id⟩
    rw [move_lineage, if_neg (Ne.symm aside), if_neg fun both => apart both.1.symm]
  | sweep =>
    simp only [step] at stepped
    split at stepped
    next => cases stepped
    next sleeping =>
      obtain rfl := Option.some.inj stepped
      refine .inl ⟨sweepFrom_lineage _ _ fun time member => spares.2 time ?_, ?_⟩
      · exact List.mem_append_left _ (List.mem_append_left _ member)
      · rintro ⟨names, rest, posting⟩
        rw [sleeping] at posting
        cases posting
  | posted =>
    simp only [step] at stepped
    split at stepped
    next => cases stepped
    next current names rest posting =>
      obtain rfl := Option.some.inj stepped
      by_cases same : dest = current
      next => exact .inr ⟨⟨names, rest, same ▸ posting⟩, by simp [Debouncer.forget, same]⟩
      next =>
        refine .inl ⟨by simp [Debouncer.forget, same], ?_⟩
        rintro ⟨names, later, flies⟩
        rw [posting] at flies
        exact absurd (Sweeper.posting.inj flies).1.symm same

omit [DecidableEq Path] in
theorem posting_notMem_sweepEvents {items : List (Path × PendingEntry)} {names : List Path} :
    .posting path names ∉ sweepEvents settlePeriod maxPending now items := by
  intro member
  obtain ⟨item, -, inside⟩ := List.mem_flatMap.mp member
  cases verdict : judge now settlePeriod maxPending item.2 <;> simp [verdict, verdictEvents] at inside

theorem postNext_starts {paths : List Path} {names : List Path}
    (starts : .posting path names ∈ startEvents (postNext debouncer paths)) : names = debouncer.lineageOf path := by
  cases paths with
  | nil => cases starts
  | cons first rest =>
    obtain ⟨rfl, rfl⟩ : path = first ∧ names = debouncer.lineageOf first := by simpa [postNext, startEvents] using starts
    rfl

theorem step_starts {names : List Path} (stepped : step settlePeriod maxPending state action = some next)
    (starts : .posting dest names ∈ events settlePeriod maxPending state next action) :
    names = next.debouncer.lineageOf dest ∧ (state.sweeper.Flying dest → next.debouncer.lineage.get? dest = none) := by
  cases action with
  | elapse seconds => cases starts
  | touch policy path => simp [events] at starts
  | move policy src other =>
    simp only [events] at starts
    split at starts <;> simp at starts
  | sweep =>
    simp only [step] at stepped
    split at stepped
    next => cases stepped
    next sleeping =>
      obtain rfl := Option.some.inj stepped
      refine ⟨?_, fun flying => ?_⟩
      · obtain before | starts := List.mem_append.mp starts
        · obtain judged | last := List.mem_append.mp before
          · exact absurd judged posting_notMem_sweepEvents
          · simp at last
        · exact postNext_starts starts
      · obtain ⟨names, rest, posting⟩ := flying
        rw [sleeping] at posting
        cases posting
  | posted =>
    simp only [step] at stepped
    split at stepped
    next => cases stepped
    next current previousPaths rest posting =>
      obtain rfl := Option.some.inj stepped
      refine ⟨postNext_starts starts, fun flying => ?_⟩
      obtain ⟨names, later, flies⟩ := flying
      rw [posting] at flies
      obtain ⟨rfl, -⟩ := Sweeper.posting.inj flies
      simp [Debouncer.forget]

theorem flying_of_step (stepped : step settlePeriod maxPending state action = some next) (flying : next.sweeper.Flying dest) :
    state.sweeper.Flying dest ∨ ∃ names, .posting dest names ∈ events settlePeriod maxPending state next action := by
  obtain ⟨names, rest, posting⟩ := flying
  cases action with
  | elapse seconds =>
    simp only [step] at stepped
    split at stepped
    next =>
      obtain rfl := Option.some.inj stepped
      exact .inl ⟨names, rest, posting⟩
    next => cases stepped
  | touch policy path =>
    obtain rfl := Option.some.inj stepped
    exact .inl ⟨names, rest, posting⟩
  | move policy src other =>
    obtain rfl := Option.some.inj stepped
    exact .inl ⟨names, rest, posting⟩
  | sweep | posted =>
    refine .inr ⟨names, ?_⟩
    simp [events, posting, startEvents]

-- What the next post of `dest` will carry: nothing where the post that was under way at the move is or was to finish first.
def Owed (dest : Path) (names : List Path) (flew : Prop) (state : State Path) : Prop :=
  (¬ flew → ¬ state.sweeper.Flying dest ∧ state.debouncer.lineageOf dest = names) ∧
    (flew → state.sweeper.Flying dest ∨ state.debouncer.lineage.get? dest = none)

theorem step_owed {names : List Path} {flew : Prop} (owed : Owed dest names flew state)
    (undisturbed : Undisturbed settlePeriod maxPending dest state action)
    (stepped : step settlePeriod maxPending state action = some next) : Owed dest names flew next := by
  obtain ⟨spares, silent⟩ := undisturbed next stepped
  have lineage := step_lineage stepped spares
  constructor
  · intro grounded
    obtain ⟨before, carried⟩ := owed.1 grounded
    refine ⟨fun flying => ?_, ?_⟩
    · obtain earlier | ⟨names, starts⟩ := flying_of_step stepped flying
      · exact before earlier
      · exact silent names starts
    · obtain ⟨same, -⟩ | ⟨flying, -⟩ := lineage
      · rw [Debouncer.lineageOf, same]
        exact carried
      · exact absurd flying before
  · intro flew
    obtain ⟨same, stays⟩ | ⟨-, gone⟩ := lineage
    · exact (owed.2 flew).imp stays same.trans
    · exact .inr gone

theorem run_owed {final : State Path} {names : List Path} {flew : Prop} {actions : List (Action Path)} (owed : Owed dest names flew state)
    (along : Along (step settlePeriod maxPending) (Undisturbed settlePeriod maxPending dest) state actions)
    (ran : run (step settlePeriod maxPending) state actions = some final) : Owed dest names flew final :=
  run_keeps (fun _ _ _ owed undisturbed stepped => step_owed owed undisturbed stepped) actions along owed ran

theorem move_owed (stepped : step settlePeriod maxPending state (.move policy src dest) = some next) :
    Owed dest (state.debouncer.lineageOf src ++ [src]) (state.sweeper.Flying dest) next := by
  obtain rfl := Option.some.inj stepped
  refine ⟨fun grounded => ⟨grounded, ?_⟩, .inl⟩
  rw [Debouncer.lineageOf, move_lineage, if_pos rfl, Option.getD_some]

theorem first_post_carries {before after : State Path} {actions : List (Action Path)} {last : Action Path} {carried : List Path}
    (moved : step settlePeriod maxPending state (.move policy src dest) = some next)
    (along : Along (step settlePeriod maxPending) (Undisturbed settlePeriod maxPending dest) next actions)
    (ran : run (step settlePeriod maxPending) next actions = some before)
    (stepped : step settlePeriod maxPending before last = some after)
    (spares : Spares dest last (events settlePeriod maxPending before after last))
    (starts : .posting dest carried ∈ events settlePeriod maxPending before after last) :
    (¬ state.sweeper.Flying dest → carried = state.debouncer.lineageOf src ++ [src]) ∧
      (state.sweeper.Flying dest → carried = []) := by
  have owed := run_owed (move_owed moved) along ran
  obtain ⟨rfl, finished⟩ := step_starts stepped starts
  have lineage := step_lineage stepped spares
  constructor
  · intro grounded
    obtain ⟨waits, names⟩ := owed.1 grounded
    obtain ⟨same, -⟩ | ⟨flying, -⟩ := lineage
    · rw [Debouncer.lineageOf, same]
      exact names
    · exact absurd flying waits
  · intro flew
    have gone : after.debouncer.lineage.get? dest = none := by
      obtain flying | gone := owed.2 flew
      · exact finished flying
      · obtain ⟨same, -⟩ | ⟨-, gone⟩ := lineage
        · exact same.trans gone
        · exact gone
    rw [Debouncer.lineageOf, gone, Option.getD_none]

theorem elapse_undisturbed (seconds : ℚ) : Undisturbed settlePeriod maxPending dest state (.elapse seconds) := by
  intro next _
  refine ⟨⟨?_, ?_⟩, ?_⟩
  · rintro policy src other ⟨⟩
  · simp [events]
  · simp [events]

-- A file posted as 1 is moved to 2, and on to 3 before 2 is posted.
def movedOnce : State Nat :=
  (run (step 10 20) (State.new 0) [.touch none 1, .elapse 10, .sweep, .posted, .move none 1 2]).get (by decide +kernel)

def movedTwice : State Nat := (step 10 20 movedOnce (.move none 2 3)).get (by decide +kernel)

def settledTwice : State Nat := (step 10 20 movedTwice (.elapse 10)).get (by decide +kernel)

def postingTwice : State Nat := (step 10 20 settledTwice .sweep).get (by decide +kernel)

theorem posting_carries_both : ∃ carried, .posting 3 carried ∈ events 10 20 settledTwice postingTwice .sweep ∧
    carried = movedOnce.debouncer.lineageOf 2 ++ [2] := by
  have moved : step 10 20 movedOnce (.move none 2 3) = some movedTwice := (Option.some_get _).symm
  have waited : step 10 20 movedTwice (.elapse 10) = some settledTwice := (Option.some_get _).symm
  have swept : step 10 20 settledTwice .sweep = some postingTwice := (Option.some_get _).symm
  have ran : run (step 10 20) movedTwice [.elapse 10] = some settledTwice := run_cons.mpr ⟨settledTwice, waited, rfl⟩
  have along : Along (step 10 20) (Undisturbed 10 20 3) movedTwice [.elapse 10] := .cons (elapse_undisturbed 10) waited trivial
  have happened : events 10 20 settledTwice postingTwice .sweep = [.ready 3 20, .swept 20, .posting 3 [1, 2]] := by
    decide +kernel
  have starts : .posting 3 [1, 2] ∈ events 10 20 settledTwice postingTwice .sweep := by simp [happened]
  have spares : Spares 3 .sweep (events 10 20 settledTwice postingTwice .sweep) := by
    refine ⟨?_, ?_⟩
    · rintro policy src other ⟨⟩
    · simp [happened]
  have asleep : movedOnce.sweeper = .sleeping := by decide +kernel
  have grounded : ¬ movedOnce.sweeper.Flying 3 := by
    rintro ⟨names, rest, flies⟩
    rw [asleep] at flies
    cases flies
  exact ⟨[1, 2], starts, (first_post_carries moved along ran swept spares starts).1 grounded⟩

/-! ## Nothing is held for a path that is gone -/

def Swept.Holds (swept : Swept Path) (path : Path) : Prop :=
  (swept.debouncer.lineage.get? path).isSome → (swept.debouncer.pending.get? path).isSome ∨ path ∈ swept.ready

theorem sweepEntry_holds {swept : Swept Path} (holds : Swept.Holds swept other) :
    Swept.Holds (sweepEntry now settlePeriod maxPending swept path entry) other := by
  by_cases same : other = path
  next =>
    subst same
    unfold sweepEntry
    dsimp only
    split
    next => simp [Swept.Holds]
    next =>
      split
      next =>
        split
        next => simp [Swept.Holds, Debouncer.drop]
        next => simp [Swept.Holds]
      next => exact holds
  next =>
    unfold sweepEntry
    dsimp only
    split
    next => simpa [Swept.Holds, same] using holds
    next =>
      split
      next =>
        split
        next => simpa [Swept.Holds, Debouncer.drop, same] using holds
        next => simpa [Swept.Holds, same] using holds
      next => exact holds

theorem sweepFrom_holds (swept : Swept Path) (items : List (Path × PendingEntry)) (holds : Swept.Holds swept other) :
    Swept.Holds (items.foldl (fun swept item => sweepEntry now settlePeriod maxPending swept item.1 item.2) swept) other := by
  induction items generalizing swept with
  | nil => exact holds
  | cons item rest ih => exact ih _ (sweepEntry_holds holds)

-- Pending, being posted or waiting for the posts before it.
def Held (state : State Path) (path : Path) : Prop :=
  (state.debouncer.pending.get? path).isSome ∨ state.sweeper.Flying path ∨ path ∈ state.sweeper.rest

theorem held_postNext {paths : List Path} (member : path ∈ paths) (state : State Path) (starts : state.sweeper = postNext debouncer paths) :
    Held state path := by
  cases paths with
  | nil => cases member
  | cons first rest =>
    obtain rfl | later := List.mem_cons.mp member
    · exact .inr (.inl ⟨_, _, starts⟩)
    · refine .inr (.inr ?_)
      rw [starts]
      exact later

theorem touch_pending : ((debouncer.touch now policy path).pending.get? other).isSome ↔
    other = path ∨ (debouncer.pending.get? other).isSome := by
  rw [Debouncer.touch]
  cases found : debouncer.pending.get? path with
  | none =>
    by_cases same : other = path
    next => simp [same]
    next => simp [same]
  | some entry =>
    by_cases same : other = path
    next => simp [same]
    next => simp [same]

theorem move_pending : ((debouncer.move now policy src dest).pending.get? other).isSome ↔
    other = dest ∨ other ≠ src ∧ (debouncer.pending.get? other).isSome := by
  rw [Debouncer.move]
  dsimp only
  rw [touch_pending]
  split
  next => by_cases same : other = src <;> simp [Debouncer.drop, same]
  next stays =>
    by_cases same : other = src
    next =>
      subst same
      simp [stays]
    next => simp [same]

theorem step_holds (stepped : step settlePeriod maxPending state action = some next)
    (holds : ∀ path, (state.debouncer.lineage.get? path).isSome → Held state path) :
    ∀ path, (next.debouncer.lineage.get? path).isSome → Held next path := by
  intro path kept
  cases action with
  | elapse seconds =>
    simp only [step] at stepped
    split at stepped
    next =>
      obtain rfl := Option.some.inj stepped
      exact holds path kept
    next => cases stepped
  | touch policy other =>
    obtain rfl := Option.some.inj stepped
    rw [touch_lineage] at kept
    exact (holds path kept).imp_left fun pending => touch_pending.mpr (.inr pending)
  | move policy src dest =>
    obtain rfl := Option.some.inj stepped
    rw [move_lineage] at kept
    split at kept
    next reached => exact .inl (move_pending.mpr (.inl reached))
    next =>
      split at kept
      next => cases kept
      next stays =>
        refine (holds path kept).imp_left fun pending => move_pending.mpr (.inr ⟨?_, pending⟩)
        rintro rfl
        exact stays ⟨rfl, pending⟩
  | sweep =>
    simp only [step] at stepped
    split at stepped
    next => cases stepped
    next sleeping =>
      obtain rfl := Option.some.inj stepped
      have before : Swept.Holds ⟨state.debouncer, [], []⟩ path := by
        intro earlier
        obtain pending | ⟨names, rest, posting⟩ | waiting := holds path earlier
        · exact .inl pending
        · rw [sleeping] at posting
          cases posting
        · rw [sleeping] at waiting
          cases waiting
      obtain pending | ready := sweepFrom_holds _ state.debouncer.pending.items before kept
      · exact .inl pending
      · exact held_postNext ready _ rfl
  | posted =>
    simp only [step] at stepped
    split at stepped
    next => cases stepped
    next current names rest posting =>
      obtain rfl := Option.some.inj stepped
      rw [Debouncer.forget, Dict.get?_pop] at kept
      split at kept
      next => cases kept
      next other =>
        obtain pending | ⟨names, later, flies⟩ | waiting := holds path kept
        · exact .inl pending
        · rw [posting] at flies
          exact absurd (Sweeper.posting.inj flies).1.symm other
        · rw [posting] at waiting
          exact held_postNext waiting _ rfl

theorem lineages_are_held {start : ℚ} {actions : List (Action Path)}
    (ran : run (step settlePeriod maxPending) (State.new start) actions = some state)
    (kept : (state.debouncer.lineage.get? path).isSome) : Held state path := by
  refine run_invariant (fun _ _ _ holds stepped => step_holds stepped holds) actions ?_ ran path kept
  intro path kept
  cases kept

theorem moved_path_is_held : Held movedOnce 2 :=
  lineages_are_held (Option.some_get _).symm (by decide +kernel)

end Phaze.Watcher
