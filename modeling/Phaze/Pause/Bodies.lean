import Phaze.Pause.Protocol
import Phaze.Shared.Runs

set_option autoImplicit false

/-!
# One body at a time

While SAQ's own writes are the only ones that end an active row, the worker that made it active is its only owner.
The write of `repark_if_stage_paused` comes after SAQ has given the row up.
-/

namespace Phaze.Pause

open Runs

variable {state next : State} {index : Nat} {attempt : Attempt}

/-! ## Reads of the flag -/

def Read.Sound (read : Read) (state : State) : Prop :=
  read.epoch ≤ state.epoch ∧ (read.epoch = state.epoch → read.paused = state.paused)

-- The flag is as it was, or it has been set once more.
def Flagged (state next : State) : Prop :=
  next.flag = state.flag ∨ next.epoch = state.epoch + 1

theorem Read.Sound.flagged {read : Read} (sound : read.Sound state) (flagged : Flagged state next) :
    read.Sound next := by
  rcases flagged with same | more
  · obtain ⟨paused, epoch⟩ := Read.mk.inj same
    rw [Read.Sound, paused, epoch]
    exact sound
  · refine ⟨by have := sound.1; omega, fun same => ?_⟩
    have := sound.1
    omega

theorem flag_sound (state : State) : state.flag.Sound state := ⟨le_rfl, fun _ => rfl⟩

theorem setPaused_flagged (state : State) (paused : Bool) : Flagged state (state.setPaused paused) := by
  rw [State.setPaused]
  split
  · exact .inl rfl
  · exact .inr rfl

theorem setPaused_rest (state : State) (paused : Bool) : (state.setPaused paused).rows = state.rows ∧
    (state.setPaused paused).attempts = state.attempts ∧ (state.setPaused paused).caches = state.caches := by
  rw [State.setPaused]
  split <;> exact ⟨rfl, rfl, rfl⟩

structure Informed (state : State) : Prop where
  caches : ∀ process read, state.caches process = some read → read.Sound state
  fetched : ∀ attempt ∈ state.attempts, ∀ read, attempt.stage = .fetched read → read.Sound state
  counted : ∀ attempt ∈ state.attempts, attempt.attempts = attempt.before + 1
  present : ∀ attempt ∈ state.attempts, (state.rows attempt.key).isSome

theorem Informed.initial : Informed State.initial := by
  constructor <;> simp [State.initial]

theorem Informed.backlog (informed : Informed state) (flagged : Flagged state next) (caches : next.caches = state.caches)
    (attempts : next.attempts = state.attempts)
    (rows : ∀ key, (state.rows key).isSome → (next.rows key).isSome) : Informed next where
  caches := fun process read cached => (informed.caches process read (caches ▸ cached)).flagged flagged
  fetched := fun attempt member read stage =>
    (informed.fetched attempt (attempts ▸ member) read stage).flagged flagged
  counted := fun attempt member => informed.counted attempt (attempts ▸ member)
  present := fun attempt member => rows _ (informed.present attempt (attempts ▸ member))

-- A step of one attempt, which keeps its key and its counters.
theorem Informed.moved (informed : Informed state) (found : state.attempts[index]? = some attempt) {after : Attempt}
    (attempts : next.attempts = state.attempts.set index after)
    (same : after.key = attempt.key ∧ after.attempts = attempt.attempts ∧ after.before = attempt.before) (flag : next.flag = state.flag)
    (caches : ∀ process read, next.caches process = some read → read.Sound state)
    (stage : ∀ read, after.stage = .fetched read → read.Sound state)
    (rows : ∀ key, (state.rows key).isSome → (next.rows key).isSome) : Informed next := by
  have there := List.mem_of_getElem? found
  have split : ∀ other ∈ next.attempts, other = after ∨ other ∈ state.attempts := by
    intro other member
    rw [attempts] at member
    exact (List.mem_or_eq_of_mem_set member).symm
  constructor
  case caches => exact fun process read cached => (caches process read cached).flagged (.inl flag)
  case fetched =>
    intro other member read fetched
    rcases split other member with rfl | old
    · exact (stage read fetched).flagged (.inl flag)
    · exact (informed.fetched other old read fetched).flagged (.inl flag)
  case counted =>
    intro other member
    rcases split other member with rfl | old
    · rw [same.2.1, same.2.2]
      exact informed.counted attempt there
    · exact informed.counted other old
  case present =>
    intro other member
    rcases split other member with rfl | old
    · rw [same.1]
      exact rows _ (informed.present attempt there)
    · exact rows _ (informed.present other old)

theorem update_isSome (state : State) (key : String) (write : Row → Row) (other : String)
    (present : (state.rows other).isSome) : ((state.update key write).rows other).isSome := by
  by_cases same : other = key
  · subst same
    simpa [State.update] using present
  · simpa [State.update, Function.update_of_ne same] using present

theorem answer_informed (informed : Informed state) (found : state.attempts[index]? = some attempt) {read : Read}
    (sound : read.Sound state) : Informed (state.answer index attempt read) := by
  have caches : ∀ process other, Function.update state.caches attempt.process (some read) process = some other →
      other.Sound state := by
    intro process other cached
    by_cases same : process = attempt.process
    · subst same
      rw [Function.update_self] at cached
      exact Option.some.inj cached ▸ sound
    · rw [Function.update_of_ne same] at cached
      exact informed.caches process other cached
  rw [State.answer]
  split
  · exact informed.moved found rfl ⟨rfl, rfl, rfl⟩ rfl caches (by simp) fun _ there => there
  · exact informed.moved found rfl ⟨rfl, rfl, rfl⟩ rfl caches (by simp) fun _ there => there

theorem attemptStep_informed (informed : Informed state) (found : state.attempts[index]? = some attempt)
    {action : Action} (stepped : attemptStep state index attempt attempt.stage action = some next) :
    Informed next := by
  have there := List.mem_of_getElem? found
  cases stage : attempt.stage <;> cases action <;> simp only [attemptStep, stage, Option.some.injEq, reduceCtorEq,
    Option.map_eq_some_iff] at stepped
  case dequeued.enforce =>
    obtain ⟨read, cached, rfl⟩ := stepped
    exact answer_informed informed found (informed.caches _ read cached)
  case dequeued.fetch =>
    subst stepped
    refine informed.moved found rfl ⟨rfl, rfl, rfl⟩ rfl informed.caches ?_ fun _ there => there
    intro read fetched
    obtain rfl := Stage.fetched.inj fetched
    exact flag_sound state
  case fetched.decide read _ =>
    subst stepped
    exact answer_informed informed found (informed.fetched attempt there read stage)
  all_goals
    subst stepped
    exact informed.moved found rfl ⟨rfl, rfl, rfl⟩ rfl informed.caches (by simp) (update_isSome state attempt.key _)

theorem storeJob_isSome (state : State) (job : Stamped) (key : String) (present : (state.rows key).isSome) :
    ((storeJob state job).rows key).isSome := by
  simp only [storeJob]
  by_cases same : key = job.key
  · subst same
    split
    · simp
    · split
      · simp
      · exact present
  · split
    · simpa [Function.update_of_ne same] using present
    · split
      · simpa [Function.update_of_ne same] using present
      · exact present

theorem storeJob_rest (state : State) (job : Stamped) :
    (storeJob state job).attempts = state.attempts ∧ (storeJob state job).caches = state.caches ∧
      (storeJob state job).flag = state.flag := by
  simp only [storeJob]
  split
  · exact ⟨rfl, rfl, rfl⟩
  · split <;> exact ⟨rfl, rfl, rfl⟩

theorem step_informed (informed : Informed state) {action : Action} (stepped : step state action = some next) :
    Informed next := by
  cases action
  case tick now =>
    simp only [step, Option.ite_none_right_eq_some, Option.some.injEq] at stepped
    obtain ⟨-, rfl⟩ := stepped
    exact informed.backlog (.inl rfl) rfl rfl fun _ there => there
  case pause =>
    obtain rfl := Option.some.inj stepped
    obtain ⟨rows, attempts, caches⟩ := setPaused_rest (pauseStage state) true
    refine informed.backlog (setPaused_flagged (pauseStage state) true) caches attempts fun key there => ?_
    rw [rows]
    simpa [pauseStage] using there
  case resume =>
    obtain rfl := Option.some.inj stepped
    obtain ⟨rows, attempts, caches⟩ := setPaused_rest (resumeStage state) false
    refine informed.backlog (setPaused_flagged (resumeStage state) false) caches attempts fun key there => ?_
    rw [rows]
    simpa [resumeStage] using there
  case forget process =>
    obtain rfl := Option.some.inj stepped
    refine ⟨fun other read cached => ?_, informed.fetched, informed.counted, informed.present⟩
    by_cases same : other = process
    · simp [same] at cached
    · exact informed.caches other read (by simpa [Function.update_of_ne same] using cached)
  case stamp process key retries fresh =>
    cases fresh with
    | true =>
      obtain rfl := Option.some.inj stepped
      refine ⟨fun other read cached => ?_, informed.fetched, informed.counted, informed.present⟩
      by_cases same : other = process
      · subst same
        simp only [Function.update_self, Option.some.injEq] at cached
        exact cached ▸ flag_sound state
      · exact informed.caches other read (by simpa [Function.update_of_ne same] using cached)
    | false =>
      simp only [step, Bool.false_eq_true, if_false, Option.map_eq_some_iff] at stepped
      obtain ⟨read, -, rfl⟩ := stepped
      exact informed.backlog (.inl rfl) rfl rfl fun _ there => there
  case store place =>
    simp only [step, Option.map_eq_some_iff] at stepped
    obtain ⟨job, -, rfl⟩ := stepped
    obtain ⟨attempts, caches, flag⟩ := storeJob_rest { state with stamped := state.stamped.eraseIdx place } job
    exact informed.backlog (.inl flag) caches attempts fun key there => storeJob_isSome _ job key there
  case dequeue process key =>
    simp only [step, Option.bind_eq_some_iff, dequeueStep, Option.ite_none_right_eq_some, Option.some.injEq] at stepped
    obtain ⟨row, found, -, rfl⟩ := stepped
    have rows : ∀ other, (state.rows other).isSome → (Function.update state.rows key (some { row with
        status := Status.active, scheduled := row.stored, attempts := row.attempts + 1 }) other).isSome := by
      intro other there
      by_cases same : other = key
      · simp [same]
      · simpa [Function.update_of_ne same] using there
    refine ⟨informed.caches, fun other member read stage => ?_, fun other member => ?_, fun other member => ?_⟩
    all_goals rcases List.mem_append.mp member with old | new
    · exact informed.fetched other old read stage
    · simp [List.mem_singleton.mp new] at stage
    · exact informed.counted other old
    · simp [List.mem_singleton.mp new]
    · exact rows _ (informed.present other old)
    · simp [List.mem_singleton.mp new]
  case sweepRead =>
    obtain rfl := Option.some.inj stepped
    split
    · exact informed
    · exact informed.backlog (.inl rfl) rfl rfl fun _ there => there
  case sweepApply =>
    simp only [step, Option.ite_none_right_eq_some, Option.some.injEq] at stepped
    obtain ⟨-, rfl⟩ := stepped
    exact informed.backlog (.inl rfl) rfl rfl fun key there => by simpa [resumeStage] using there
  all_goals
    simp only [step, Option.bind_eq_some_iff] at stepped
    obtain ⟨attempt, found, stepped⟩ := stepped
    exact attemptStep_informed informed found stepped

/-! ## The owner of an active row -/

def State.status (state : State) (key : String) : Option Status :=
  (state.rows key).map (·.status)

structure Owned (state : State) : Prop where
  active : ∀ attempt ∈ state.attempts, attempt.stage.owns = true → state.status attempt.key = some .active
  single : ∀ (first second : Nat) (one other : Attempt), state.attempts[first]? = some one →
    state.attempts[second]? = some other → one.stage.owns = true → other.stage.owns = true → one.key = other.key →
    first = second

theorem Owned.initial : Owned State.initial := by
  constructor <;> simp [State.initial]

-- The statuses stay where somebody owns the row.
theorem Owned.backlog (owned : Owned state) (attempts : next.attempts = state.attempts)
    (status : ∀ key, state.status key = some .active → next.status key = some .active) : Owned next where
  active := fun attempt member owns => status _ (owned.active attempt (attempts ▸ member) owns)
  single := attempts ▸ owned.single

theorem Owned.moved (owned : Owned state) (found : state.attempts[index]? = some attempt) {after : Attempt}
    (attempts : next.attempts = state.attempts.set index after) (same : after.key = attempt.key)
    (others : ∀ key, key ≠ attempt.key → next.status key = state.status key)
    (keeps : after.stage.owns = true → attempt.stage.owns = true ∧ next.status attempt.key = some .active)
    (leaves : after.stage.owns = false → attempt.stage.owns = true ∨ state.status attempt.key ≠ some .active) :
    Owned next := by
  have there := List.mem_of_getElem? found
  have known : ∀ {place : Nat} {other : Attempt}, next.attempts[place]? = some other →
      (place = index ∧ other = after) ∨ (place ≠ index ∧ state.attempts[place]? = some other) := by
    intro place other listed
    rw [attempts, List.getElem?_set] at listed
    by_cases here : index = place
    · subst here
      have inside := (List.getElem?_eq_some_iff.mp found).1
      simp only [if_true, inside, Option.some.injEq] at listed
      exact .inl ⟨rfl, listed.symm⟩
    · simp only [here, if_false] at listed
      exact .inr ⟨Ne.symm here, listed⟩
  -- Another owner of the key of the attempt can only be there while the attempt owns nothing.
  have apart : ∀ {place : Nat} {other : Attempt}, place ≠ index → state.attempts[place]? = some other →
      other.stage.owns = true → other.key ≠ attempt.key := by
    intro place other elsewhere listed owns same
    cases left : after.stage.owns with
    | true => exact elsewhere (owned.single place index other attempt listed found owns (keeps left).1 same)
    | false =>
      rcases leaves left with mine | idle
      · exact elsewhere (owned.single place index other attempt listed found owns mine same)
      · exact idle (same ▸ owned.active other (List.mem_of_getElem? listed) owns)
  constructor
  case active =>
    intro other member owns
    obtain ⟨place, listed⟩ := List.mem_iff_getElem?.mp member
    rcases known listed with ⟨rfl, rfl⟩ | ⟨elsewhere, old⟩
    · rw [same]
      exact (keeps owns).2
    · rw [others other.key (apart elsewhere old owns)]
      exact owned.active other (List.mem_of_getElem? old) owns
  case single =>
    intro first second one other foundOne foundOther ownsOne ownsOther keys
    rcases known foundOne with ⟨rfl, rfl⟩ | ⟨elsewhere, old⟩
    · rcases known foundOther with ⟨rfl, rfl⟩ | ⟨elsewhere', old'⟩
      · rfl
      · exact absurd (keys.symm.trans same) (apart elsewhere' old' ownsOther)
    · rcases known foundOther with ⟨rfl, rfl⟩ | ⟨elsewhere', old'⟩
      · exact absurd (keys.trans same) (apart elsewhere old ownsOne)
      · exact owned.single first second one other old old' ownsOne ownsOther keys

theorem update_status_of_ne {key other : String} (differs : other ≠ key) (write : Row → Row) :
    (state.update key write).status other = state.status other := by
  simp [State.status, State.update, Function.update_of_ne differs]

theorem park_status (row : Row) : row.park.status = row.status := by
  rw [Row.park]
  split <;> rfl

theorem unpark_status (row : Row) : row.unpark.status = row.status := by
  rw [Row.unpark]
  split <;> rfl

theorem pauseStage_status (state : State) (key : String) : (pauseStage state).status key = state.status key := by
  simp [State.status, pauseStage, Function.comp_def, park_status]

theorem resumeStage_status (state : State) (key : String) : (resumeStage state).status key = state.status key := by
  simp [State.status, resumeStage, Function.comp_def, unpark_status]

theorem setPaused_status (state : State) (paused : Bool) (key : String) :
    (state.setPaused paused).status key = state.status key := by
  rw [State.status, (setPaused_rest state paused).1, State.status]

theorem storeJob_status (state : State) (job : Stamped) (key : String) (active : state.status key = some .active) :
    (storeJob state job).status key = some .active := by
  simp only [storeJob]
  by_cases same : key = job.key
  · subst same
    cases stored : state.rows job.key with
    | none => simp [State.status, stored] at active
    | some row =>
      have running : row.status = .active := by simpa [State.status, stored] using active
      simpa [running, Status.terminal] using active
  · split
    · simpa [State.status, Function.update_of_ne same] using active
    · split
      · simpa [State.status, Function.update_of_ne same] using active
      · exact active

-- The write of `repark_if_stage_paused` finds the row as SAQ's own write left it, or at least not dequeued again.
def Apart (state : State) : Action → Prop
  | .repark index => ∀ attempt, state.attempts[index]? = some attempt → state.status attempt.key ≠ some .active
  | _ => True

theorem answer_owned (owned : Owned state) (found : state.attempts[index]? = some attempt)
    (owns : attempt.stage.owns = true) (read : Read) : Owned (state.answer index attempt read) := by
  have active := owned.active attempt (List.mem_of_getElem? found) owns
  rw [State.answer]
  split
  · exact owned.moved found rfl rfl (fun _ _ => rfl) (fun _ => ⟨owns, active⟩) (by simp [Stage.owns])
  · exact owned.moved found rfl rfl (fun _ _ => rfl) (fun _ => ⟨owns, active⟩) (by simp [Stage.owns])

theorem attemptStep_owned (owned : Owned state) (found : state.attempts[index]? = some attempt) {action : Action}
    (apart : attempt.stage = .handled → state.status attempt.key ≠ some .active)
    (stepped : attemptStep state index attempt attempt.stage action = some next) : Owned next := by
  have active := owned.active attempt (List.mem_of_getElem? found)
  cases stage : attempt.stage <;> cases action <;> simp only [attemptStep, stage, Option.some.injEq, reduceCtorEq,
    Option.map_eq_some_iff] at stepped
  case dequeued.enforce =>
    obtain ⟨read, -, rfl⟩ := stepped
    exact answer_owned owned found (by simp [stage, Stage.owns]) read
  case dequeued.fetch =>
    subst stepped
    have owns : attempt.stage.owns = true := by simp [stage, Stage.owns]
    exact owned.moved found rfl rfl (fun _ _ => rfl) (fun _ => ⟨owns, active owns⟩) (by simp [Stage.owns])
  case fetched.decide read _ =>
    subst stepped
    exact answer_owned owned found (by simp [stage, Stage.owns]) read
  case handled.repark =>
    subst stepped
    exact owned.moved found rfl rfl (fun key differs => update_status_of_ne differs _) (by simp [Stage.owns])
      fun _ => .inr (apart stage)
  -- SAQ and the body write the row that they own, and give it up.
  all_goals
    subst stepped
    exact owned.moved found rfl rfl (fun key differs => update_status_of_ne differs _) (by simp [Stage.owns])
      fun _ => .inl (by simp [stage, Stage.owns])

theorem dequeueStep_owned (owned : Owned state) {process : ProcessId} {key : String} {row : Row}
    (stored : state.rows key = some row) (stepped : dequeueStep state process key row = some next) : Owned next := by
  simp only [dequeueStep, Option.ite_none_right_eq_some, Option.some.injEq] at stepped
  obtain ⟨⟨queued, -⟩, rfl⟩ := stepped
  -- A queued row is nobody's.
  have free : ∀ attempt ∈ state.attempts, attempt.stage.owns = true → attempt.key ≠ key := by
    intro attempt member owns same
    have active := owned.active attempt member owns
    simp [State.status, same, stored, queued] at active
  constructor
  case active =>
    intro attempt member owns
    rcases List.mem_append.mp member with old | new
    · have differs := free attempt old owns
      simpa [State.status, Function.update_of_ne differs] using owned.active attempt old owns
    · simp [List.mem_singleton.mp new, State.status]
  case single =>
    intro first second one other foundOne foundOther ownsOne ownsOther keys
    simp only [List.getElem?_append] at foundOne foundOther
    split at foundOne <;> split at foundOther
    · exact owned.single first second one other foundOne foundOther ownsOne ownsOther keys
    · obtain ⟨inside, rfl⟩ := List.getElem?_eq_some_iff.mp foundOther
      simp only [List.getElem_singleton] at keys
      exact absurd keys (free one (List.mem_of_getElem? foundOne) ownsOne)
    · obtain ⟨inside, rfl⟩ := List.getElem?_eq_some_iff.mp foundOne
      simp only [List.getElem_singleton] at keys
      exact absurd keys.symm (free other (List.mem_of_getElem? foundOther) ownsOther)
    · have one := (List.getElem?_eq_some_iff.mp foundOne).1
      have two := (List.getElem?_eq_some_iff.mp foundOther).1
      simp only [List.length_singleton] at one two
      omega

theorem step_owned (owned : Owned state) {action : Action} (apart : Apart state action)
    (stepped : step state action = some next) : Owned next := by
  cases action
  case tick now =>
    simp only [step, Option.ite_none_right_eq_some, Option.some.injEq] at stepped
    obtain ⟨-, rfl⟩ := stepped
    exact owned.backlog rfl fun _ active => active
  case pause =>
    obtain rfl := Option.some.inj stepped
    refine owned.backlog (setPaused_rest (pauseStage state) true).2.1 fun key active => ?_
    rw [setPaused_status, pauseStage_status, active]
  case resume =>
    obtain rfl := Option.some.inj stepped
    refine owned.backlog (setPaused_rest (resumeStage state) false).2.1 fun key active => ?_
    rw [setPaused_status, resumeStage_status, active]
  case forget process =>
    obtain rfl := Option.some.inj stepped
    exact owned.backlog rfl fun _ active => active
  case stamp process key retries fresh =>
    cases fresh with
    | true =>
      obtain rfl := Option.some.inj stepped
      exact owned.backlog rfl fun _ active => active
    | false =>
      simp only [step, Bool.false_eq_true, if_false, Option.map_eq_some_iff] at stepped
      obtain ⟨read, -, rfl⟩ := stepped
      exact owned.backlog rfl fun _ active => active
  case store place =>
    simp only [step, Option.map_eq_some_iff] at stepped
    obtain ⟨job, -, rfl⟩ := stepped
    exact owned.backlog (storeJob_rest { state with stamped := state.stamped.eraseIdx place } job).1
      fun key active => storeJob_status _ job key active
  case dequeue process key =>
    simp only [step, Option.bind_eq_some_iff] at stepped
    obtain ⟨row, stored, stepped⟩ := stepped
    exact dequeueStep_owned owned stored stepped
  case repark place =>
    simp only [step, Option.bind_eq_some_iff] at stepped
    obtain ⟨attempt, found, stepped⟩ := stepped
    exact attemptStep_owned owned found (fun _ => apart attempt found) stepped
  case sweepRead =>
    obtain rfl := Option.some.inj stepped
    split
    · exact owned
    · exact owned.backlog rfl fun _ active => active
  case sweepApply =>
    simp only [step, Option.ite_none_right_eq_some, Option.some.injEq] at stepped
    obtain ⟨-, rfl⟩ := stepped
    exact owned.backlog rfl fun key active => by rw [← active]; exact resumeStage_status state key
  all_goals
    simp only [step, Option.bind_eq_some_iff] at stepped
    obtain ⟨attempt, found, stepped⟩ := stepped
    refine attemptStep_owned owned found (fun stage => ?_) stepped
    simp [attemptStep, stage] at stepped

/-! ## Runs -/

-- Of one job, one body runs.
def State.OneBody (state : State) : Prop :=
  ∀ (first second : Nat) (one other : Attempt), state.attempts[first]? = some one →
    state.attempts[second]? = some other → one.stage = .running → other.stage = .running → one.key = other.key →
    first = second

structure Kept (state : State) (action : Action) : Prop where
  oneBody : ∀ next, step state action = some next → next.OneBody
  -- The after hook of a bounced attempt ends its hooks.
  restored : ∀ next index attempt, action = .repark index → step state action = some next →
    state.attempts[index]? = some attempt → ∃ row, next.rows attempt.key = some row ∧ row.attempts = attempt.before ∧
      row.status ≠ .failed
  admitted : ∀ (next : State) (index : Nat) (attempt after : Attempt), step state action = some next →
    state.attempts[index]? = some attempt → attempt.stage ≠ .running → next.attempts[index]? = some after →
    after.stage = .running → ∀ read, next.caches attempt.process = some read →
      ¬ (state.paused = true ∧ read.epoch = state.epoch)

theorem Owned.oneBody (owned : Owned state) : state.OneBody :=
  fun first second one other foundOne foundOther runOne runOther same =>
    owned.single first second one other foundOne foundOther (by simp [runOne, Stage.owns])
      (by simp [runOther, Stage.owns]) same

theorem repark_restores (informed : Informed state) (found : state.attempts[index]? = some attempt)
    (stepped : step state (.repark index) = some next) :
    ∃ row, next.rows attempt.key = some row ∧ row.attempts = attempt.before ∧ row.status ≠ .failed := by
  have member := List.mem_of_getElem? found
  have counted := informed.counted attempt member
  obtain ⟨row, stored⟩ := Option.isSome_iff_exists.mp (informed.present attempt member)
  simp only [step, found, Option.bind_some] at stepped
  cases stage : attempt.stage <;> simp only [attemptStep, stage, Option.some.injEq, reduceCtorEq] at stepped
  subst stepped
  refine ⟨attempt.repark row, ?_, ?_, ?_⟩
  · simp [State.setAttempt, State.update, stored]
  · simp [Attempt.repark, counted]
  · simp [Attempt.repark]

-- A body starts on the answer of the hook, and the answer is what the cache of the process then holds.
theorem answer_running {read : Read} {after : Attempt} (found : state.attempts[index]? = some attempt)
    (answered : (state.answer index attempt read).attempts[index]? = some after) (running : after.stage = .running) :
    read.paused = false ∧ (state.answer index attempt read).caches attempt.process = some read := by
  have inside := (List.getElem?_eq_some_iff.mp found).1
  rw [State.answer] at answered ⊢
  split at answered
  · simp only [State.setAttempt, List.getElem?_set_self inside, Option.some.injEq] at answered
    simp [← answered] at running
  · rename_i unpaused
    rw [if_neg unpaused]
    exact ⟨by simpa using unpaused, by simp⟩

theorem attemptStep_running (informed : Informed state) (found : state.attempts[index]? = some attempt)
    {action : Action} (stepped : attemptStep state index attempt attempt.stage action = some next) {after : Attempt}
    (idle : attempt.stage ≠ .running) (there : next.attempts[index]? = some after) (running : after.stage = .running) :
    ∃ read, read.Sound state ∧ read.paused = false ∧ next.caches attempt.process = some read := by
  have inside := (List.getElem?_eq_some_iff.mp found).1
  cases stage : attempt.stage <;> cases action <;> simp only [attemptStep, stage, Option.some.injEq, reduceCtorEq,
    Option.map_eq_some_iff] at stepped
  case dequeued.enforce =>
    obtain ⟨read, cached, rfl⟩ := stepped
    exact ⟨read, informed.caches _ read cached, answer_running found there running⟩
  case fetched.decide read _ =>
    subst stepped
    exact ⟨read, informed.fetched attempt (List.mem_of_getElem? found) read stage, answer_running found there running⟩
  case running.complete => exact absurd stage idle
  case running.fail => exact absurd stage idle
  all_goals
    subst stepped
    simp only [State.setAttempt, State.update, List.getElem?_set_self inside, Option.some.injEq] at there
    simp [← there] at running

-- A step of another attempt leaves this one as it is.
theorem attemptStep_other {place : Nat} {other : Attempt} {action : Action}
    (stepped : attemptStep state place other other.stage action = some next) (elsewhere : index ≠ place) :
    next.attempts[index]? = state.attempts[index]? := by
  have answered : ∀ read, (state.answer place other read).attempts[index]? = state.attempts[index]? := by
    intro read
    rw [State.answer]
    split <;> exact List.getElem?_set_ne (Ne.symm elsewhere)
  cases stage : other.stage <;> cases action <;> simp only [attemptStep, stage, Option.some.injEq, reduceCtorEq,
    Option.map_eq_some_iff] at stepped
  case dequeued.enforce =>
    obtain ⟨read, -, rfl⟩ := stepped
    exact answered read
  case fetched.decide read _ =>
    subst stepped
    exact answered read
  all_goals
    subst stepped
    exact List.getElem?_set_ne (Ne.symm elsewhere)

theorem Read.Sound.unpaused {read : Read} (sound : read.Sound state) (unpaused : read.paused = false) :
    ¬ (state.paused = true ∧ read.epoch = state.epoch) := by
  rintro ⟨paused, same⟩
  simp [← sound.2 same, unpaused] at paused

theorem step_running (informed : Informed state) {action : Action} (stepped : step state action = some next)
    (found : state.attempts[index]? = some attempt) (idle : attempt.stage ≠ .running) {after : Attempt}
    (there : next.attempts[index]? = some after) (running : after.stage = .running) :
    ∃ read, read.Sound state ∧ read.paused = false ∧ next.caches attempt.process = some read := by
  have unmoved : next.attempts[index]? ≠ state.attempts[index]? := by
    intro same
    obtain rfl := Option.some.inj (there.symm.trans (same.trans found))
    exact idle running
  cases action
  case tick now =>
    simp only [step, Option.ite_none_right_eq_some, Option.some.injEq] at stepped
    obtain ⟨-, rfl⟩ := stepped
    exact absurd rfl unmoved
  case pause =>
    obtain rfl := Option.some.inj stepped
    exact absurd (congrArg (·[index]?) (setPaused_rest (pauseStage state) true).2.1) unmoved
  case resume =>
    obtain rfl := Option.some.inj stepped
    exact absurd (congrArg (·[index]?) (setPaused_rest (resumeStage state) false).2.1) unmoved
  case forget process =>
    obtain rfl := Option.some.inj stepped
    exact absurd rfl unmoved
  case stamp process key retries fresh =>
    cases fresh with
    | true =>
      obtain rfl := Option.some.inj stepped
      exact absurd rfl unmoved
    | false =>
      simp only [step, Bool.false_eq_true, if_false, Option.map_eq_some_iff] at stepped
      obtain ⟨read, -, rfl⟩ := stepped
      exact absurd rfl unmoved
  case store place =>
    simp only [step, Option.map_eq_some_iff] at stepped
    obtain ⟨job, -, rfl⟩ := stepped
    have same := (storeJob_rest { state with stamped := state.stamped.eraseIdx place } job).1
    exact absurd (congrArg (·[index]?) same) unmoved
  case dequeue process key =>
    simp only [step, Option.bind_eq_some_iff, dequeueStep, Option.ite_none_right_eq_some, Option.some.injEq] at stepped
    obtain ⟨row, -, -, rfl⟩ := stepped
    exact absurd (List.getElem?_append_left (List.getElem?_eq_some_iff.mp found).1) unmoved
  case sweepRead =>
    obtain rfl := Option.some.inj stepped
    split at unmoved <;> exact absurd rfl unmoved
  case sweepApply =>
    simp only [step, Option.ite_none_right_eq_some, Option.some.injEq] at stepped
    obtain ⟨-, rfl⟩ := stepped
    exact absurd rfl unmoved
  all_goals
    simp only [step, Option.bind_eq_some_iff] at stepped
    obtain ⟨other, known, stepped⟩ := stepped
    rename_i place
    by_cases same : index = place
    · subst same
      obtain rfl := Option.some.inj (known.symm.trans found)
      exact attemptStep_running informed found stepped idle there running
    · exact absurd (attemptStep_other stepped same) unmoved

theorem step_kept (informed : Informed state) (owned : Owned state) {action : Action} (apart : Apart state action) :
    Kept state action where
  oneBody := fun _ stepped => (step_owned owned apart stepped).oneBody
  restored := by
    rintro next index attempt rfl stepped found
    exact repark_restores informed found stepped
  admitted := by
    intro next index attempt after stepped found idle there running read cached
    obtain ⟨other, sound, unpaused, held⟩ := step_running informed stepped found idle there running
    obtain rfl := Option.some.inj (held.symm.trans cached)
    exact sound.unpaused unpaused

/-- In a run in which no bounced attempt writes over a row that has been dequeued again, one body of a job runs at a
time, a bounce ends with the attempts it began with, and no body starts on a read of the pause in force. -/
theorem bodies_run_one_at_a_time (actions : List Action) (apart : Along step Apart State.initial actions) :
    Along step Kept State.initial actions :=
  Along.gives (fun state => Informed state ∧ Owned state)
    (fun _ _ _ held apart stepped => ⟨step_informed held.1 stepped, step_owned held.2 apart stepped⟩)
    (fun _ _ held apart => step_kept held.1 held.2 apart) ⟨Informed.initial, Owned.initial⟩ apart

/-! ## A resume between the two writes of a bounce -/

instance (state : State) : (action : Action) → Decidable (Apart state action)
  | .repark index =>
      match found : state.attempts[index]? with
      | none => isTrue fun attempt there => by simp [found] at there
      | some attempt => decidable_of_iff (state.status attempt.key ≠ some .active) (by simp [Apart, found])
  | .tick _ | .pause | .resume | .forget _ | .stamp .. | .store _ | .dequeue .. | .enforce _ | .fetch _ | .decide _
  | .handle _ | .complete _ | .fail _ | .sweepRead | .sweepApply => inferInstanceAs (Decidable True)

namespace LateRepark

-- Worker 1 takes the job, the stage is paused, and SAQ re-queues the bounced job.
def bounce : List Action :=
  [.stamp 0 "process_file:f" 3 true, .store 0, .dequeue 1 "process_file:f", .pause, .fetch 0, .decide 0, .handle 0]

theorem bounce_is_reparked : Along step Kept State.initial (bounce ++ [.repark 0]) :=
  bodies_run_one_at_a_time _ (by decide)

-- The stage is resumed, and worker 2 starts the body before the after hook of worker 1 writes.
def late : List Action :=
  bounce ++ [.resume, .dequeue 2 "process_file:f", .fetch 1, .decide 1, .repark 0, .sweepRead, .sweepApply,
    .dequeue 1 "process_file:f", .fetch 2, .decide 2]

/-- The late write parks the row of a running body; the sweep frees it, and a second body starts. -/
theorem late_repark_runs_twice : ∃ final, run step State.initial late = some final ∧ ¬ final.OneBody ∧
    ¬ Along step Kept State.initial late := by
  have ran : ∃ final : State, run step State.initial late = some final ∧
      (final.attempts.map fun attempt : Attempt => (attempt.key, attempt.stage)) =
        [("process_file:f", .over), ("process_file:f", .running), ("process_file:f", .running)] :=
    ⟨_, rfl, by decide⟩
  obtain ⟨final, found, stages⟩ := ran
  have twice : ¬ final.OneBody := by
    intro one
    have shown : ∀ index : Nat, (final.attempts[index]?).map (fun attempt : Attempt => (attempt.key, attempt.stage)) =
        ([("process_file:f", Stage.over), ("process_file:f", .running), ("process_file:f", .running)])[index]? := by
      intro index
      rw [← stages, List.getElem?_map]
    obtain ⟨first, thereFirst, shownFirst⟩ := Option.map_eq_some_iff.mp (shown 1)
    obtain ⟨second, thereSecond, shownSecond⟩ := Option.map_eq_some_iff.mp (shown 2)
    obtain ⟨keyFirst, runFirst⟩ := Prod.mk.inj shownFirst
    obtain ⟨keySecond, runSecond⟩ := Prod.mk.inj shownSecond
    have same := one 1 2 first second thereFirst thereSecond runFirst runSecond (keyFirst.trans keySecond.symm)
    omega
  refine ⟨final, found, twice, fun kept => twice ?_⟩
  exact run_keeps (fun _ _ next _ kept stepped => kept.oneBody next stepped) late kept Owned.initial.oneBody found

end LateRepark

end Phaze.Pause
