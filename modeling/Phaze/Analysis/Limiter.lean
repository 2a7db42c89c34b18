import Mathlib
import Phaze.Shared.Runs

set_option autoImplicit false

/-!
# The resizable limiter

`services/resizable_limiter.py` on one event loop. A task is one call of `acquire`, named by the order of the calls; a
cancellation reaches its future at once and the task itself when it is resumed.
-/

namespace Phaze.Analysis.Limiter

open Runs

inductive Phase where
  -- The future is pending.
  | waiting
  -- The future has its result; the cancellation of the task may be on its way.
  | granted (cancelled : Bool)
  -- The future is cancelled; the task has not been resumed.
  | cancelled
  | holding
  | ended
deriving DecidableEq

structure Grant where
  task : Nat
  borrowed : Int
  total : Int
deriving DecidableEq

structure State where
  total : Int
  borrowed : Int
  waiters : List Nat
  tasks : List Phase
  -- The tokens that were granted, with the counts at that moment; not a field of the limiter.
  grants : List Grant
deriving DecidableEq

-- `__init__`
def State.new (total : Int) : Option State :=
  if total < 1 then none else some { total, borrowed := 0, waiters := [], tasks := [], grants := [] }

def State.available (state : State) : Int := max 0 (state.total - state.borrowed)

def State.locked (state : State) : Bool :=
  state.available ≤ 0 || state.waiters.any fun task => state.tasks[task]? ≠ some .cancelled

def State.grant (state : State) (task : Nat) : State :=
  { state with
    borrowed := state.borrowed + 1
    grants := state.grants ++ [{ task, borrowed := state.borrowed, total := state.total }] }

def State.move (state : State) (task : Nat) (phase : Phase) : State :=
  { state with tasks := state.tasks.set task phase }

-- `_wake_next`: the first waiter that is not done
def State.wakeNext (state : State) : Option State :=
  (state.waiters.find? fun task => state.tasks[task]? = some .waiting).map fun task =>
    { (state.grant task).move task (.granted false) with waiters := state.waiters.erase task }

def State.wakeWhile : Nat → State → State
  | 0, state => state
  | fuel + 1, state =>
      if 0 < state.available then
        match state.wakeNext with
        | some next => next.wakeWhile fuel
        | none => state
      else state

-- `_wake_eligible_waiters`: each round takes one waiter
def State.wakeEligible (state : State) : State := state.wakeWhile state.waiters.length

inductive Action where
  | acquire
  | resume (task : Nat)
  | cancel (task : Nat)
  | release (task : Nat)
  | resize (total : Int)
deriving DecidableEq

def acquireStep (state : State) : State :=
  let task := state.tasks.length
  if state.locked then { state with tasks := state.tasks ++ [.waiting], waiters := state.waiters ++ [task] }
  else { state.grant task with tasks := state.tasks ++ [.holding] }

-- What follows the `await`, whichever way it ends.
def resumeStep (state : State) (task : Nat) : Phase → Option State
  | .granted false => some (({ state with waiters := state.waiters.erase task }.move task .holding).wakeEligible)
  | .granted true =>
      let returned := { state with waiters := state.waiters.erase task, borrowed := state.borrowed - 1 }
      some ((returned.move task .ended).wakeEligible)
  | .cancelled => some (({ state with waiters := state.waiters.erase task }.move task .ended).wakeEligible)
  | .waiting | .holding | .ended => none

def cancelStep (state : State) (task : Nat) : Phase → Option State
  | .waiting | .cancelled => some (state.move task .cancelled)
  | .granted _ => some (state.move task (.granted true))
  | .holding | .ended => none

def step (state : State) : Action → Option State
  | .acquire => some (acquireStep state)
  | .resume task => (state.tasks[task]?).bind (resumeStep state task)
  | .cancel task => (state.tasks[task]?).bind (cancelStep state task)
  | .release task =>
      if state.tasks[task]? = some .holding then
        if state.borrowed ≤ 0 then none
        else some (({ state with borrowed := state.borrowed - 1 }.move task .ended).wakeEligible)
      else none
  | .resize total => if total < 1 then none else some ({ state with total }.wakeEligible)

/-! ## What holds of the limiter -/

def Phase.takes : Phase → Bool
  | .granted _ | .holding => true
  | .waiting | .cancelled | .ended => false

structure Sound (state : State) : Prop where
  accounted : state.borrowed = state.tasks.countP Phase.takes
  queued : ∀ task, state.tasks[task]? = some .waiting → task ∈ state.waiters
  asleep : ∀ task ∈ state.waiters, state.tasks[task]? = some .waiting ∨ state.tasks[task]? = some .cancelled
  ordered : state.waiters.Pairwise (· < ·)
  admitted : ∀ grant ∈ state.grants, grant.borrowed < grant.total
  inTurn : state.grants.Pairwise fun one other => one.task < other.task
  later : ∀ grant ∈ state.grants, grant.task < state.tasks.length ∧
    ∀ task, state.tasks[task]? = some .waiting → grant.task < task

-- No token is free while a future is pending.
def State.Settled (state : State) : Prop :=
  0 < state.available → ∀ task ∈ state.waiters, state.tasks[task]? ≠ some .waiting

variable {state next : State} {task : Nat} {old new : Phase}

theorem takes_set (found : state.tasks[task]? = some old) (new : Phase) :
    (((state.tasks.set task new).countP Phase.takes : Nat) : Int) =
      state.tasks.countP Phase.takes - (if old.takes then 1 else 0) + if new.takes then 1 else 0 := by
  obtain ⟨inside, same⟩ := List.getElem?_eq_some_iff.mp found
  have least : old.takes = true → 0 < state.tasks.countP Phase.takes := by
    intro takes
    exact List.countP_pos_iff.mpr ⟨old, List.mem_of_getElem? found, takes⟩
  rw [List.countP_set inside, same]
  split <;> split <;> simp_all

theorem getElem?_move (other : Nat) : (state.move task new).tasks[other]? =
    if task = other then (state.tasks[other]?).map fun _ => new else state.tasks[other]? := by
  simp only [State.move, List.getElem?_set]
  by_cases same : task = other
  next =>
    subst same
    by_cases inside : task < state.tasks.length
    · simp [inside]
    · simp [inside]
  next => simp [same]

theorem Sound.nodup (sound : Sound state) : state.waiters.Nodup := sound.ordered.imp fun before => before.ne

-- A task that does not wait any more, or has given up waiting.
theorem Sound.moved (sound : Sound state) (found : state.tasks[task]? = some old) (new : Phase) (awake : new ≠ .waiting)
    {waiters : List Nat}
    (waiters' : waiters = state.waiters ∧ new = .cancelled ∨ waiters = state.waiters.erase task) {borrowed : Int}
    (counts : borrowed = state.borrowed - (if old.takes then 1 else 0) + if new.takes then 1 else 0) :
    Sound { state.move task new with waiters, borrowed } := by
  have waits : ∀ other, (state.move task new).tasks[other]? = some .waiting →
      task ≠ other ∧ state.tasks[other]? = some .waiting := by
    intro other waiting
    rw [getElem?_move] at waiting
    split at waiting
    next =>
      obtain ⟨phase, -, same⟩ := Option.map_eq_some_iff.mp waiting
      exact absurd same awake
    next differs => exact ⟨differs, waiting⟩
  constructor
  case accounted =>
    rw [counts, sound.accounted]
    exact (takes_set found new).symm
  case queued =>
    intro other waiting
    obtain ⟨differs, before⟩ := waits other waiting
    have listed := sound.queued other before
    rcases waiters' with ⟨rfl, -⟩ | rfl
    · exact listed
    · exact (List.mem_erase_of_ne differs.symm).mpr listed
  case asleep =>
    intro other listed
    rw [getElem?_move]
    rcases waiters' with ⟨rfl, rfl⟩ | rfl
    · split
      next same =>
        subst same
        simp [found]
      next => exact sound.asleep other listed
    · obtain ⟨differs, before⟩ := (sound.nodup.mem_erase_iff).mp listed
      rw [if_neg differs.symm]
      exact sound.asleep other before
  case ordered =>
    rcases waiters' with ⟨rfl, -⟩ | rfl
    · exact sound.ordered
    · exact sound.ordered.sublist List.erase_sublist
  case admitted => exact sound.admitted
  case inTurn => exact sound.inTurn
  case later =>
    intro grant member
    obtain ⟨inside, after⟩ := sound.later grant member
    exact ⟨by simpa [State.move] using inside, fun other waiting => after other (waits other waiting).2⟩

/-! ## Waking -/

theorem wakeNext_first (sound : Sound state) (woke : state.wakeNext = some next) :
    ∃ task, state.tasks[task]? = some .waiting ∧ task ∈ state.waiters ∧
      (∀ other, state.tasks[other]? = some .waiting → task ≤ other) ∧
      next = { (state.grant task).move task (.granted false) with waiters := state.waiters.erase task } := by
  obtain ⟨task, first, rfl⟩ := Option.map_eq_some_iff.mp woke
  obtain ⟨waiting, before, after, whole, skipped⟩ := List.find?_eq_some_iff_append.mp first
  refine ⟨task, by simpa using waiting, by simp [whole], fun other waits => ?_, rfl⟩
  have listed := sound.queued other waits
  have ordered := sound.ordered
  rw [whole] at listed ordered
  rcases List.mem_append.mp listed with early | later
  · exact absurd waits (by simpa using skipped other early)
  · rcases List.mem_cons.mp later with rfl | behind
    · exact le_rfl
    · exact ((List.pairwise_cons.mp (List.pairwise_append.mp ordered).2.1).1 other behind).le

theorem wakeNext_sound (sound : Sound state) (free : 0 < state.available) (woke : state.wakeNext = some next) :
    Sound next := by
  obtain ⟨task, waiting, listed, least, rfl⟩ := wakeNext_first sound woke
  have moved : Sound { state.move task (.granted false) with
      waiters := state.waiters.erase task, borrowed := state.borrowed + 1 } :=
    sound.moved waiting _ (by simp) (.inr rfl) (by simp [Phase.takes])
  have room : state.borrowed < state.total := by
    rw [State.available] at free
    omega
  have differs : ∀ other, (state.move task (.granted false)).tasks[other]? = some .waiting → task < other := by
    intro other waits
    rw [getElem?_move] at waits
    split at waits
    next =>
      obtain ⟨phase, -, same⟩ := Option.map_eq_some_iff.mp waits
      cases same
    next apart => exact lt_of_le_of_ne (least other waits) apart
  refine ⟨moved.accounted, moved.queued, moved.asleep, moved.ordered, ?_, ?_, ?_⟩
  · intro grant member
    rcases List.mem_append.mp member with old | new
    · exact sound.admitted grant old
    · obtain rfl := List.mem_singleton.mp new
      exact room
  · refine List.pairwise_append.mpr ⟨sound.inTurn, List.pairwise_singleton _ _, fun grant old other new => ?_⟩
    obtain rfl := List.mem_singleton.mp new
    exact (sound.later grant old).2 task waiting
  · intro grant member
    rcases List.mem_append.mp member with old | new
    · exact moved.later grant old
    · obtain rfl := List.mem_singleton.mp new
      exact ⟨by simpa [State.move, State.grant] using (List.getElem?_eq_some_iff.mp waiting).1, differs⟩

theorem wakeNext_length (sound : Sound state) (woke : state.wakeNext = some next) :
    next.waiters.length + 1 = state.waiters.length := by
  obtain ⟨task, -, listed, -, rfl⟩ := wakeNext_first sound woke
  have some' := List.length_pos_of_mem listed
  simp only [List.length_erase_of_mem listed]
  omega

theorem wakeNext_none (none' : state.wakeNext = none) : ∀ task ∈ state.waiters, state.tasks[task]? ≠ some .waiting := by
  intro task listed
  have first := List.find?_eq_none.mp (Option.map_eq_none_iff.mp none') task listed
  simpa using first

theorem wakeWhile_sound (fuel : Nat) (sound : Sound state) (enough : state.waiters.length ≤ fuel) :
    Sound (state.wakeWhile fuel) ∧ (state.wakeWhile fuel).Settled := by
  induction fuel generalizing state with
  | zero =>
    refine ⟨sound, fun _ task listed => ?_⟩
    rw [State.wakeWhile, List.length_eq_zero_iff.mp (Nat.le_zero.mp enough)] at listed
    cases listed
  | succ fuel ih =>
    rw [State.wakeWhile]
    split
    next free =>
      split
      next next woke =>
        have shorter := wakeNext_length sound woke
        exact ih (wakeNext_sound sound free woke) (by omega)
      next none' => exact ⟨sound, fun _ => wakeNext_none none'⟩
    next taken => exact ⟨sound, fun free => absurd free taken⟩

theorem wakeEligible_sound (sound : Sound state) : Sound state.wakeEligible ∧ state.wakeEligible.Settled :=
  wakeWhile_sound _ sound le_rfl

/-! ## Steps -/

theorem getElem?_push (tasks : List Phase) (phase : Phase) {other : Nat} {found : Phase}
    (there : (tasks ++ [phase])[other]? = some found) :
    tasks[other]? = some found ∨ other = tasks.length ∧ phase = found := by
  rw [List.getElem?_append] at there
  split at there
  next => exact .inl there
  next beyond =>
    obtain ⟨inside, same⟩ := List.getElem?_eq_some_iff.mp there
    simp only [List.length_singleton] at inside
    exact .inr ⟨by omega, by simpa using same⟩

theorem Sound.inside (sound : Sound state) {other : Nat} (listed : other ∈ state.waiters) : other < state.tasks.length := by
  rcases sound.asleep other listed with there | there
  all_goals exact (List.getElem?_eq_some_iff.mp there).1

theorem enqueue_sound (sound : Sound state) :
    Sound { state with tasks := state.tasks ++ [.waiting], waiters := state.waiters ++ [state.tasks.length] } := by
  constructor
  case accounted => simp [sound.accounted, List.countP_append, Phase.takes]
  case queued =>
    intro other waiting
    rcases getElem?_push _ _ waiting with before | ⟨rfl, -⟩
    · exact List.mem_append_left _ (sound.queued other before)
    · exact List.mem_append_right _ (List.mem_singleton_self _)
  case asleep =>
    intro other listed
    rcases List.mem_append.mp listed with before | new
    · have inside := sound.inside before
      simpa [List.getElem?_append_left inside] using sound.asleep other before
    · obtain rfl := List.mem_singleton.mp new
      exact .inl (by simp)
  case ordered =>
    refine List.pairwise_append.mpr ⟨sound.ordered, List.pairwise_singleton _ _, fun other before last new => ?_⟩
    obtain rfl := List.mem_singleton.mp new
    exact sound.inside before
  case admitted => exact sound.admitted
  case inTurn => exact sound.inTurn
  case later =>
    intro grant member
    obtain ⟨inside, after⟩ := sound.later grant member
    refine ⟨by simp only [List.length_append]; omega, fun other waiting => ?_⟩
    rcases getElem?_push _ _ waiting with before | ⟨rfl, -⟩
    · exact after other before
    · exact inside

-- Nobody waits where the fast path is taken.
theorem enter_sound (sound : Sound state) (free : 0 < state.available)
    (nobody : ∀ other : Nat, state.tasks[other]? ≠ some .waiting) :
    Sound { state.grant state.tasks.length with tasks := state.tasks ++ [.holding] } := by
  have still : ∀ other : Nat, (state.tasks ++ [.holding])[other]? ≠ some .waiting := by
    intro other waiting
    rcases getElem?_push _ _ waiting with before | ⟨-, same⟩
    · exact nobody other before
    · cases same
  constructor
  case accounted => simp [State.grant, sound.accounted, List.countP_append, Phase.takes]
  case queued => exact fun other waiting => absurd waiting (still other)
  case asleep =>
    intro other listed
    have inside := sound.inside listed
    simpa [State.grant, List.getElem?_append_left inside] using sound.asleep other listed
  case ordered => exact sound.ordered
  case admitted =>
    intro grant member
    rcases List.mem_append.mp member with old | new
    · exact sound.admitted grant old
    · obtain rfl := List.mem_singleton.mp new
      rw [State.available] at free
      simp only
      omega
  case inTurn =>
    refine List.pairwise_append.mpr ⟨sound.inTurn, List.pairwise_singleton _ _, fun grant old other new => ?_⟩
    obtain rfl := List.mem_singleton.mp new
    exact (sound.later grant old).1
  case later =>
    intro grant member
    refine ⟨?_, fun other waiting => absurd waiting (still other)⟩
    rw [List.length_append, List.length_singleton]
    rcases List.mem_append.mp member with old | new
    · exact Nat.lt_succ_of_lt (sound.later grant old).1
    · obtain rfl := List.mem_singleton.mp new
      exact Nat.lt_succ_self _

theorem acquireStep_sound (sound : Sound state) (settled : state.Settled) :
    Sound (acquireStep state) ∧ (acquireStep state).Settled := by
  have pending : ∀ other ∈ state.waiters, state.tasks[other]? ≠ some .cancelled → state.tasks[other]? = some .waiting :=
    fun other listed awake => (sound.asleep other listed).resolve_right awake
  rw [acquireStep]
  cases locked : state.locked with
  | true =>
    refine ⟨enqueue_sound sound, fun free => ?_⟩
    -- The limiter is not locked for a waiter alone: one would have been woken.
    simp only [State.locked, Bool.or_eq_true, decide_eq_true_eq, List.any_eq_true] at locked
    rcases locked with taken | ⟨other, listed, awake⟩
    · exact absurd free (not_lt.mpr taken)
    · exact absurd (pending other listed awake) (settled free other listed)
  | false =>
    simp only [State.locked, Bool.or_eq_false_iff, decide_eq_false_iff_not, List.any_eq_false, not_le] at locked
    obtain ⟨free, gone⟩ := locked
    have nobody : ∀ other : Nat, state.tasks[other]? ≠ some .waiting := by
      intro other waiting
      exact gone other (sound.queued other waiting) (by simp [waiting])
    refine ⟨enter_sound sound free nobody, fun _ other listed waiting => ?_⟩
    rcases getElem?_push _ _ waiting with before | ⟨-, same⟩
    · exact nobody other before
    · cases same

theorem resumeStep_sound (sound : Sound state) (found : state.tasks[task]? = some old)
    (stepped : resumeStep state task old = some next) : Sound next ∧ next.Settled := by
  cases old with
  | granted cancelled =>
    cases cancelled with
    | false =>
      obtain rfl := Option.some.inj stepped
      exact wakeEligible_sound (sound.moved found _ (by simp) (.inr rfl) (by simp [Phase.takes]))
    | true =>
      obtain rfl := Option.some.inj stepped
      exact wakeEligible_sound (sound.moved found _ (by simp) (.inr rfl) (by simp [Phase.takes]))
  | cancelled =>
    obtain rfl := Option.some.inj stepped
    exact wakeEligible_sound (sound.moved found _ (by simp) (.inr rfl) (by simp [Phase.takes]))
  | waiting => cases stepped
  | holding => cases stepped
  | ended => cases stepped

-- A task with a token is not in the queue.
theorem Sound.absent (sound : Sound state) (found : state.tasks[task]? = some old) (takes : old.takes = true) :
    state.waiters = state.waiters.erase task := by
  refine (List.erase_of_not_mem fun listed => ?_).symm
  rcases sound.asleep task listed with there | there
  all_goals
    obtain rfl := Option.some.inj (there.symm.trans found)
    cases takes

theorem Settled.moved (settled : state.Settled) (awake : new ≠ .waiting) : (state.move task new).Settled := by
  intro free other listed waiting
  rw [getElem?_move] at waiting
  split at waiting
  next =>
    obtain ⟨phase, -, same⟩ := Option.map_eq_some_iff.mp waiting
    exact awake same
  next => exact settled free other listed waiting

theorem cancelStep_sound (sound : Sound state) (settled : state.Settled) (found : state.tasks[task]? = some old)
    (stepped : cancelStep state task old = some next) : Sound next ∧ next.Settled := by
  cases old with
  | granted cancelled =>
    obtain rfl := Option.some.inj stepped
    exact ⟨sound.moved found _ (by simp) (.inr (sound.absent found rfl)) (by simp [Phase.takes]),
      Settled.moved settled (by simp)⟩
  | waiting =>
    obtain rfl := Option.some.inj stepped
    exact ⟨sound.moved found _ (by simp) (.inl ⟨rfl, rfl⟩) (by simp [Phase.takes]), Settled.moved settled (by simp)⟩
  | cancelled =>
    obtain rfl := Option.some.inj stepped
    exact ⟨sound.moved found _ (by simp) (.inl ⟨rfl, rfl⟩) (by simp [Phase.takes]), Settled.moved settled (by simp)⟩
  | holding => cases stepped
  | ended => cases stepped

theorem step_sound (sound : Sound state) (settled : state.Settled) (action : Action)
    (stepped : step state action = some next) : Sound next ∧ next.Settled := by
  cases action with
  | acquire =>
    obtain rfl := Option.some.inj stepped
    exact acquireStep_sound sound settled
  | resume task =>
    obtain ⟨old, found, stepped⟩ := Option.bind_eq_some_iff.mp stepped
    exact resumeStep_sound sound found stepped
  | cancel task =>
    obtain ⟨old, found, stepped⟩ := Option.bind_eq_some_iff.mp stepped
    exact cancelStep_sound sound settled found stepped
  | release task =>
    simp only [step] at stepped
    split at stepped
    next found =>
      split at stepped
      next => cases stepped
      next =>
        obtain rfl := Option.some.inj stepped
        exact wakeEligible_sound
          (sound.moved found _ (by simp) (.inr (sound.absent found rfl)) (by simp [Phase.takes]))
    next => cases stepped
  | resize total =>
    simp only [step] at stepped
    split at stepped
    next => cases stepped
    next =>
      obtain rfl := Option.some.inj stepped
      exact wakeEligible_sound ⟨sound.accounted, sound.queued, sound.asleep, sound.ordered, sound.admitted,
        sound.inTurn, sound.later⟩

/-! ## Runs -/

structure Fair (state : State) : Prop where
  accounted : state.borrowed =
    state.tasks.count .holding + state.tasks.countP fun phase => phase = .granted false ∨ phase = .granted true
  admitted : ∀ grant ∈ state.grants, grant.borrowed < grant.total
  awake : 0 < state.available → ∀ task ∈ state.waiters, state.tasks[task]? ≠ some .waiting
  queued : ∀ task, state.tasks[task]? = some .waiting → task ∈ state.waiters
  -- The calls get their tokens in their order, and nobody who still waits has been passed.
  inTurn : state.grants.Pairwise fun one other => one.task < other.task
  notPassed : ∀ grant ∈ state.grants, ∀ task, state.tasks[task]? = some .waiting → grant.task < task

theorem countP_takes (tasks : List Phase) : tasks.countP Phase.takes =
    tasks.count .holding + tasks.countP fun phase => phase = .granted false ∨ phase = .granted true := by
  induction tasks with
  | nil => rfl
  | cons phase rest ih =>
    rw [List.countP_cons, List.count_cons, List.countP_cons, ih]
    cases phase with
    | granted cancelled => cases cancelled <;> simp [Phase.takes] <;> omega
    | _ => simp [Phase.takes] <;> omega

theorem Sound.fair (sound : Sound state) (settled : state.Settled) : Fair state where
  accounted := by
    rw [sound.accounted, countP_takes]
    simp
  admitted := sound.admitted
  awake := settled
  queued := sound.queued
  inTurn := sound.inTurn
  notPassed := fun grant member => (sound.later grant member).2

/-- In every reachable state the count is that of the tasks with a token, every token was granted below the ceiling and
in the order of the calls, and nobody waits while a token is free. -/
theorem limiter_stays_fair (total : Int) (start : State) (actions : List Action) (final : State)
    (made : State.new total = some start) (ran : run step start actions = some final) : Fair final := by
  have first : Sound start ∧ start.Settled := by
    rw [State.new] at made
    split at made
    next => cases made
    next =>
      obtain rfl := Option.some.inj made
      refine ⟨?_, fun _ task listed => by cases listed⟩
      constructor <;> simp
  have last : Sound final ∧ final.Settled :=
    run_invariant (fun _ action _ kept stepped => step_sound kept.1 kept.2 action stepped) actions first ran
  exact last.1.fair last.2

-- The second task is cancelled after its grant, and the third one gets the token that it gives back.
def racedCancel : List Action :=
  [.acquire, .acquire, .acquire, .release 0, .cancel 1, .resume 1, .resume 2, .resize 3, .acquire]

theorem racedCancel_stays_fair : ∃ start final, State.new 1 = some start ∧ run step start racedCancel = some final ∧
    Fair final :=
  ⟨_, _, rfl, rfl, limiter_stays_fair 1 _ racedCancel _ rfl rfl⟩

end Phaze.Analysis.Limiter
