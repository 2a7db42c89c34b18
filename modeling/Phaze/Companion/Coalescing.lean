import Phaze.Companion.Requests
import Phaze.Shared.Runs

set_option autoImplicit false

/-!
# No trigger is lost

A request that is dropped finds a job of its own window, and that job is dequeued after the window has ended: it
sees every event of the window.
-/

namespace Phaze.Companion

open Runs

variable {lockKey : String → Int} {state next : State}

/-! ## Windows -/

theorem associationWindow_eq (instant : ℚ) : associationWindow instant = ⌊instant / (windowSeconds : ℚ)⌋ := by
  have whole := Rat.floor_intCast_div_natCast instant.num (instant.den * 120)
  rw [associationWindow, windowSeconds]
  push_cast at whole ⊢
  rw [← whole, ← div_div, Rat.num_div_den]

theorem lt_windowEnd (instant : ℚ) : instant < windowEnd (associationWindow instant) := by
  have below : instant / (windowSeconds : ℚ) < associationWindow instant + 1 := by
    rw [associationWindow_eq]
    exact Int.lt_floor_add_one _
  rw [div_lt_iff₀ (by norm_num [windowSeconds])] at below
  simpa [windowEnd] using below

/-! ## What holds of the jobs -/

-- The first `seen` events are those that had been committed at the instant.
def Sees (state : State) (instant : ℚ) (seen : Nat) : Prop :=
  seen ≤ state.events.length ∧ ∀ (index : Nat) (event : Event), state.events[index]? = some event →
    (event.committedAt < instant → index < seen) ∧ (index < seen → event.committedAt ≤ instant)

def Phase.Sound (state : State) (agent : String) (window : Int) : Phase → Prop
  | .queued scheduled => scheduled = windowEnd window
  | .active dequeuedAt seen stage =>
      windowEnd window ≤ dequeuedAt ∧ dequeuedAt ≤ state.now ∧ Sees state dequeuedAt seen ∧
        (∀ later, stage = .requeueing later → dequeuedAt < windowEnd later) ∧
        (stage.decided = true → ∃ run ∈ state.runs, run.agent = agent ∧ seen ≤ run.seen)
  | .finished => True

-- The job is queued, or it was dequeued after the event and has neither started its run nor passed it on.
def Phase.awaits : Phase → Nat → Prop
  | .queued _, _ => True
  | .active _ seen stage, index => index < seen ∧ stage.decided = false
  | .finished, _ => False

def State.RunCovers (state : State) (index : Nat) (agent : String) : Prop :=
  ∃ run ∈ state.runs, run.agent = agent ∧ index < run.seen

def State.Covered (state : State) (index : Nat) (agent : String) : Prop :=
  state.RunCovers index agent ∨ ∃ job ∈ state.jobs, job.agent = agent ∧ job.phase.awaits index

structure Sound (lockKey : String → Int) (state : State) : Prop where
  past : ∀ (index : Nat) (event : Event), state.events[index]? = some event → event.committedAt ≤ state.now
  computed : ∀ (index : Nat) (event : Event) window, state.events[index]? = some event →
    event.request = .computed window → event.committedAt < windowEnd window
  jobs : ∀ job ∈ state.jobs, job.phase.Sound state job.agent job.window
  apart : ∀ (first second : Nat) (one other : Job), state.jobs[first]? = some one → state.jobs[second]? = some other →
    one.phase.live = true → other.phase.live = true → one.agent = other.agent → one.window = other.window →
    first = second
  locked : ∀ (index : Nat) (job : Job) dequeuedAt seen, state.jobs[index]? = some job →
    job.phase = .active dequeuedAt seen .running → state.locks (lockKey job.agent) = some index
  covered : ∀ (index : Nat) (event : Event), state.events[index]? = some event → event.request = .made →
    state.Covered index event.agent

theorem Sound.initial (now : ℚ) : Sound lockKey (State.initial now) := by
  constructor <;> simp [State.initial]

/-! ## What grows -/

structure Grows (state next : State) : Prop where
  clock : state.now ≤ next.now
  runs : ∀ run ∈ state.runs, run ∈ next.runs
  longer : state.events.length ≤ next.events.length
  events : ∀ (index : Nat) (event : Event), next.events[index]? = some event →
    (∃ old : Event, state.events[index]? = some old ∧ old.committedAt = event.committedAt) ∨
      (state.events.length ≤ index ∧ state.now ≤ event.committedAt)

theorem Grows.of_events (clock : state.now ≤ next.now) (runs : ∀ run ∈ state.runs, run ∈ next.runs)
    (same : next.events = state.events) : Grows state next where
  clock := clock
  runs := runs
  longer := by rw [same]
  events := fun index event found => .inl ⟨event, same ▸ found, rfl⟩

theorem Sees.grows {instant : ℚ} {seen : Nat} (sees : Sees state instant seen) (past : instant ≤ state.now)
    (grows : Grows state next) : Sees next instant seen := by
  refine ⟨sees.1.trans grows.longer, fun index event found => ?_⟩
  rcases grows.events index event found with ⟨old, there, same⟩ | ⟨beyond, later⟩
  · rw [← same]
    exact sees.2 index old there
  · constructor
    · intro before
      exact absurd (before.trans_le past) (not_lt.mpr later)
    · intro inside
      exact absurd (inside.trans_le sees.1) (not_lt.mpr beyond)

theorem Phase.Sound.grows {phase : Phase} {agent : String} {window : Int} (sound : phase.Sound state agent window)
    (grows : Grows state next) : phase.Sound next agent window := by
  cases phase with
  | queued scheduled => exact sound
  | active dequeuedAt seen stage =>
    obtain ⟨ended, past, sees, requeues, started⟩ := sound
    refine ⟨ended, past.trans grows.clock, sees.grows past grows, requeues, fun decided => ?_⟩
    obtain ⟨run, member, fits⟩ := started decided
    exact ⟨run, grows.runs run member, fits⟩
  | finished => trivial

theorem State.RunCovers.grows {index : Nat} {agent : String} (covers : state.RunCovers index agent)
    (grows : Grows state next) : next.RunCovers index agent := by
  obtain ⟨run, member, fits⟩ := covers
  exact ⟨run, grows.runs run member, fits⟩

theorem State.Covered.grows {index : Nat} {agent : String} (covered : state.Covered index agent)
    (grows : Grows state next) (jobs : next.jobs = state.jobs) : next.Covered index agent := by
  rcases covered with covers | ⟨job, member, fits⟩
  · exact .inl (covers.grows grows)
  · exact .inr ⟨job, jobs ▸ member, fits⟩

/-- A job of a window, once the window has ended, sees the events of the window. -/
theorem Sound.live_covers (sound : Sound lockKey state) {job : Job} (member : job ∈ state.jobs)
    (live : job.phase.live = true) {index : Nat} {event : Event} (found : state.events[index]? = some event)
    (inside : event.committedAt < windowEnd job.window) :
    job.phase.awaits index ∨ state.RunCovers index job.agent := by
  have holds := sound.jobs job member
  cases phase : job.phase with
  | queued scheduled => exact .inl trivial
  | active dequeuedAt seen stage =>
    rw [phase] at holds
    obtain ⟨ended, -, sees, -, started⟩ := holds
    have seenIndex : index < seen := (sees.2 index event found).1 (inside.trans_le ended)
    cases decided : stage.decided with
    | false => exact .inl ⟨seenIndex, decided⟩
    | true =>
      obtain ⟨run, there, same, later⟩ := started decided
      exact .inr ⟨run, there, same, seenIndex.trans_le later⟩
  | finished => simp [phase, Phase.live] at live

/-! ## Enqueues -/

theorem enqueueAssociation_cases (state : State) (agent : String) (window : Int) :
    (∃ job ∈ state.jobs, job.phase.live = true ∧ job.agent = agent ∧ job.window = window ∧
        enqueueAssociation state agent window = state) ∨
      ((∀ job ∈ state.jobs, job.phase.live = true → job.agent = agent → job.window ≠ window) ∧
        enqueueAssociation state agent window =
          { state with jobs := state.jobs ++ [{ agent, window, phase := .queued (windowEnd window) }] }) := by
  rw [enqueueAssociation]
  split
  · rename_i taken
    obtain ⟨job, member, same⟩ := List.any_eq_true.mp taken
    simp only [Bool.and_eq_true, beq_iff_eq] at same
    exact .inl ⟨job, member, same.1.1, same.1.2, same.2, rfl⟩
  · rename_i free
    refine .inr ⟨fun job member live own same => free ?_, rfl⟩
    exact List.any_eq_true.mpr ⟨job, member, by simp [live, own, same]⟩

theorem enqueueAssociation_events (state : State) (agent : String) (window : Int) :
    (enqueueAssociation state agent window).events = state.events := by
  rw [enqueueAssociation]
  split <;> rfl

theorem enqueueAssociation_job {index : Nat} {job : Job} (found : state.jobs[index]? = some job) (agent : String)
    (window : Int) : (enqueueAssociation state agent window).jobs[index]? = some job := by
  rw [enqueueAssociation]
  split
  · exact found
  · exact List.getElem?_append_left (List.getElem?_eq_some_iff.mp found).1 ▸ found

theorem enqueueAssociation_live (state : State) (agent : String) (window : Int) :
    ∃ job ∈ (enqueueAssociation state agent window).jobs, job.phase.live = true ∧ job.agent = agent ∧
      job.window = window := by
  rcases enqueueAssociation_cases state agent window with ⟨job, member, live, own, same, dropped⟩ | ⟨-, added⟩
  · rw [dropped]
    exact ⟨job, member, live, own, same⟩
  · rw [added]
    exact ⟨_, List.mem_append_right _ (List.mem_singleton_self _), rfl, rfl, rfl⟩

theorem Sound.enqueued (sound : Sound lockKey state) (agent : String) (window : Int) :
    Sound lockKey (enqueueAssociation state agent window) := by
  rcases enqueueAssociation_cases state agent window with ⟨-, -, -, -, -, dropped⟩ | ⟨free, added⟩
  · rwa [dropped]
  · rw [added]
    refine ⟨sound.past, sound.computed, fun job member => ?_, ?_, ?_, fun index event found made => ?_⟩
    · rcases List.mem_append.mp member with old | new
      · exact (sound.jobs job old).grows (Grows.of_events le_rfl (fun _ there => there) rfl)
      · obtain rfl := List.mem_singleton.mp new
        rfl
    · intro first second one other foundOne foundOther liveOne liveOther agents windows
      simp only [List.getElem?_append] at foundOne foundOther
      split at foundOne <;> split at foundOther
      · exact sound.apart first second one other foundOne foundOther liveOne liveOther agents windows
      · obtain ⟨inside, rfl⟩ := List.getElem?_eq_some_iff.mp foundOther
        simp only [List.getElem_singleton] at agents windows
        exact absurd windows (free one (List.mem_of_getElem? foundOne) liveOne agents)
      · obtain ⟨inside, rfl⟩ := List.getElem?_eq_some_iff.mp foundOne
        simp only [List.getElem_singleton] at agents windows
        exact absurd windows.symm (free other (List.mem_of_getElem? foundOther) liveOther agents.symm)
      · have one := (List.getElem?_eq_some_iff.mp foundOne).1
        have two := (List.getElem?_eq_some_iff.mp foundOther).1
        simp only [List.length_singleton] at one two
        omega
    · intro index job dequeuedAt seen found running
      simp only [List.getElem?_append] at found
      split at found
      · exact sound.locked index job dequeuedAt seen found running
      · obtain ⟨inside, rfl⟩ := List.getElem?_eq_some_iff.mp found
        simp at running
    · rcases sound.covered index event found made with covers | ⟨job, member, fits⟩
      · exact .inl covers
      · exact .inr ⟨job, List.mem_append_left _ member, fits⟩

theorem enqueueAssociation_covers (sound : Sound lockKey state) {index : Nat} {event : Event}
    (found : state.events[index]? = some event) (agent : String) {window : Int}
    (inside : event.committedAt < windowEnd window) : (enqueueAssociation state agent window).Covered index agent := by
  obtain ⟨job, member, live, own, same⟩ := enqueueAssociation_live state agent window
  rw [← enqueueAssociation_events state agent window] at found
  rw [← same] at inside
  rcases (sound.enqueued agent window).live_covers member live found inside with awaits | covers
  · exact .inr ⟨job, member, own, awaits⟩
  · exact .inl (own ▸ covers)

/-! ## Requests -/

theorem setRequest_event {state : State} {place index : Nat} {request : Request} {event : Event}
    (found : (state.setRequest place request).events[index]? = some event) :
    ∃ old, state.events[index]? = some old ∧ old.committedAt = event.committedAt ∧ old.agent = event.agent ∧
      (event.request = old.request ∨ (index = place ∧ event.request = request)) := by
  simp only [State.setRequest, List.getElem?_modify] at found
  cases there : state.events[index]? with
  | none => simp [there] at found
  | some old =>
    refine ⟨old, rfl, ?_⟩
    rw [there] at found
    by_cases here : place = index
    · simp only [here, if_true, Option.map_eq_map, Option.map_some, Option.some.injEq] at found
      exact found ▸ ⟨rfl, rfl, .inr ⟨here.symm, rfl⟩⟩
    · simp only [here, if_false, Option.map_eq_map, Option.map_some, Option.some.injEq] at found
      exact found ▸ ⟨rfl, rfl, .inl rfl⟩

theorem setRequest_grows (state : State) (place : Nat) (request : Request) :
    Grows state (state.setRequest place request) where
  clock := le_rfl
  runs := fun _ there => there
  longer := by simp [State.setRequest]
  events := by
    intro index event found
    obtain ⟨old, there, same, -⟩ := setRequest_event found
    exact .inl ⟨old, there, same⟩

theorem Sound.requested (sound : Sound lockKey state) {place : Nat} {event : Event} {request : Request}
    (found : state.events[place]? = some event)
    (computed : ∀ window, request = .computed window → event.committedAt < windowEnd window)
    (made : request = .made → state.Covered place event.agent) : Sound lockKey (state.setRequest place request) := by
  have grows := setRequest_grows state place request
  constructor
  case past =>
    intro index other there
    obtain ⟨old, known, same, -⟩ := setRequest_event there
    exact same ▸ sound.past index old known
  case computed =>
    intro index other window there asked
    obtain ⟨old, known, same, -, unchanged | ⟨rfl, new⟩⟩ := setRequest_event there
    · exact same ▸ sound.computed index old window known (unchanged ▸ asked)
    · obtain rfl := Option.some.inj (known.symm.trans found)
      exact same ▸ computed window (new ▸ asked)
  case jobs => exact fun job member => (sound.jobs job member).grows grows
  case apart => exact sound.apart
  case locked => exact sound.locked
  case covered =>
    intro index other there asked
    obtain ⟨old, known, -, agent, unchanged | ⟨rfl, new⟩⟩ := setRequest_event there
    · exact agent ▸ (sound.covered index old known (unchanged ▸ asked)).grows grows rfl
    · obtain rfl := Option.some.inj (known.symm.trans found)
      exact agent ▸ (made (new ▸ asked)).grows grows rfl

theorem requestStep_sound (sound : Sound lockKey state) {place : Nat} {event : Event}
    (found : state.events[place]? = some event) {action : Action}
    (stepped : requestStep state place event action = some next) : Sound lockKey next := by
  cases action <;> simp only [requestStep, reduceCtorEq] at stepped
  case compute =>
    split at stepped <;> cases stepped
    refine sound.requested found (fun window asked => ?_) (by simp)
    obtain rfl := Request.computed.inj asked
    exact (sound.past place event found).trans_lt (lt_windowEnd state.now)
  case insert =>
    split at stepped <;> cases stepped
    rename_i window asked
    have inside := sound.computed place event window found asked
    have there : (enqueueAssociation state event.agent window).events[place]? = some event := by
      rwa [enqueueAssociation_events]
    refine (sound.enqueued event.agent window).requested there (by simp) fun _ => ?_
    exact enqueueAssociation_covers sound found event.agent inside
  case fail =>
    split at stepped <;> cases stepped <;> exact sound.requested found (by simp) (by simp)

/-! ## Jobs -/

-- The state after a step of the job at `index`, which may take or release its lock and start its run.
def State.advanced (state : State) (index : Nat) (phase : Phase) (locks : Int → Option Nat)
    (started : List AssociationRun) : State :=
  { state.setPhase index phase with locks, runs := state.runs ++ started }

theorem setPhase_job {state : State} {place index : Nat} {phase : Phase} {job : Job}
    (found : (state.setPhase place phase).jobs[index]? = some job) :
    ∃ old, state.jobs[index]? = some old ∧ old.agent = job.agent ∧ old.window = job.window ∧
      ((index ≠ place ∧ job = old) ∨ (index = place ∧ job.phase = phase)) := by
  simp only [State.setPhase, List.getElem?_modify] at found
  cases there : state.jobs[index]? with
  | none => simp [there] at found
  | some old =>
    refine ⟨old, rfl, ?_⟩
    rw [there] at found
    by_cases here : place = index
    · simp only [here, if_true, Option.map_eq_map, Option.map_some, Option.some.injEq] at found
      exact found ▸ ⟨rfl, rfl, .inr ⟨here.symm, rfl⟩⟩
    · simp only [here, if_false, Option.map_eq_map, Option.map_some, Option.some.injEq] at found
      exact found ▸ ⟨rfl, rfl, .inl ⟨Ne.symm here, rfl⟩⟩

theorem setPhase_here {place : Nat} {job : Job} (found : state.jobs[place]? = some job) (phase : Phase) :
    { job with phase } ∈ (state.setPhase place phase).jobs := by
  refine List.mem_of_getElem? (i := place) ?_
  simp [State.setPhase, found]

theorem setPhase_elsewhere {place index : Nat} {job : Job} (found : state.jobs[index]? = some job)
    (elsewhere : index ≠ place) (phase : Phase) : job ∈ (state.setPhase place phase).jobs := by
  refine List.mem_of_getElem? (i := index) ?_
  simp [State.setPhase, found, Ne.symm elsewhere]

theorem Sound.advanced (sound : Sound lockKey state) {place : Nat} {job : Job} (found : state.jobs[place]? = some job)
    {phase : Phase} {locks : Int → Option Nat} {started : List AssociationRun}
    (fits : phase.Sound (state.advanced place phase locks started) job.agent job.window)
    (live : phase.live = true → job.phase.live = true)
    (mine : ∀ dequeuedAt seen, phase = .active dequeuedAt seen .running → locks (lockKey job.agent) = some place)
    (others : ∀ index, index ≠ place → ∀ key, state.locks key = some index → locks key = some index)
    (covers : ∀ (index : Nat) (event : Event), state.events[index]? = some event → job.phase.awaits index →
      (state.advanced place phase locks started).Covered index job.agent) :
    Sound lockKey (state.advanced place phase locks started) := by
  have grows : Grows state (state.advanced place phase locks started) :=
    Grows.of_events le_rfl (fun _ there => List.mem_append_left _ there) rfl
  constructor
  case past => exact sound.past
  case computed => exact sound.computed
  case jobs =>
    intro other member
    obtain ⟨index, there⟩ := List.mem_iff_getElem?.mp member
    obtain ⟨old, known, agent, window, ⟨-, rfl⟩ | ⟨rfl, new⟩⟩ := setPhase_job there
    · exact (sound.jobs other (List.mem_of_getElem? known)).grows grows
    · obtain rfl := Option.some.inj (known.symm.trans found)
      rw [new, ← agent, ← window]
      exact fits
  case apart =>
    intro first second one other thereOne thereOther liveOne liveOther agents windows
    have lived : ∀ {index : Nat} {now : Job}, (state.setPhase place phase).jobs[index]? = some now →
        now.phase.live = true → ∃ old, state.jobs[index]? = some old ∧ old.phase.live = true ∧
          old.agent = now.agent ∧ old.window = now.window := by
      intro index now there alive
      obtain ⟨old, known, agent, window, ⟨-, rfl⟩ | ⟨rfl, new⟩⟩ := setPhase_job there
      · exact ⟨now, known, alive, rfl, rfl⟩
      · obtain rfl := Option.some.inj (known.symm.trans found)
        exact ⟨old, known, live (new ▸ alive), agent, window⟩
    obtain ⟨old, known, alive, agent, window⟩ := lived thereOne liveOne
    obtain ⟨old', known', alive', agent', window'⟩ := lived thereOther liveOther
    exact sound.apart first second old old' known known' alive alive' (agent.trans (agents.trans agent'.symm))
      (window.trans (windows.trans window'.symm))
  case locked =>
    intro index other dequeuedAt seen there running
    obtain ⟨old, known, agent, -, ⟨elsewhere, rfl⟩ | ⟨rfl, new⟩⟩ := setPhase_job there
    · exact others index elsewhere _ (sound.locked index other dequeuedAt seen known running)
    · obtain rfl := Option.some.inj (known.symm.trans found)
      exact agent ▸ mine dequeuedAt seen (new ▸ running)
  case covered =>
    intro index event there asked
    rcases sound.covered index event there asked with runs | ⟨other, member, own, awaits⟩
    · exact .inl (runs.grows grows)
    · obtain ⟨spot, known⟩ := List.mem_iff_getElem?.mp member
      by_cases here : spot = place
      · subst here
        obtain rfl := Option.some.inj (known.symm.trans found)
        exact own ▸ covers index event there awaits
      · exact .inr ⟨other, setPhase_elsewhere known here phase, own, awaits⟩

theorem Sound.rephased (sound : Sound lockKey state) {place : Nat} {job : Job} (found : state.jobs[place]? = some job)
    {phase : Phase} (fits : phase.Sound (state.setPhase place phase) job.agent job.window)
    (live : phase.live = true → job.phase.live = true)
    (idle : ∀ dequeuedAt seen, phase ≠ .active dequeuedAt seen .running)
    (covers : ∀ (index : Nat) (event : Event), state.events[index]? = some event → job.phase.awaits index →
      (state.setPhase place phase).Covered index job.agent) :
    Sound lockKey (state.setPhase place phase) := by
  have same : state.setPhase place phase = state.advanced place phase state.locks [] := by
    simp [State.advanced, State.setPhase]
  rw [same] at fits covers ⊢
  exact sound.advanced found fits live (fun dequeuedAt seen running => absurd running (idle dequeuedAt seen))
    (fun _ _ _ held => held) covers

-- A job that goes on without having decided awaits what it awaited.
theorem Sound.undecided (sound : Sound lockKey state) {place : Nat} {job : Job} (found : state.jobs[place]? = some job)
    {dequeuedAt : ℚ} {seen : Nat} {stage later : Stage} (active : job.phase = .active dequeuedAt seen stage)
    (waiting : later.decided = false) (requeues : ∀ window, later = .requeueing window → dequeuedAt < windowEnd window) :
    Sound lockKey (state.setPhase place (.active dequeuedAt seen later)) := by
  have holds := sound.jobs job (List.mem_of_getElem? found)
  rw [active] at holds
  obtain ⟨ended, past, sees, -, -⟩ := holds
  refine sound.rephased found ⟨ended, past, sees, requeues, by simp [waiting]⟩ (by simp [active, Phase.live]) ?_
    fun index event there awaits => ?_
  · rintro _ _ same
    cases same
    cases waiting
  · rw [active] at awaits
    exact .inr ⟨_, setPhase_here found _, rfl, awaits.1, waiting⟩

theorem requeue_sound (sound : Sound lockKey state) {place : Nat} {job : Job} (found : state.jobs[place]? = some job)
    {dequeuedAt : ℚ} {seen : Nat} {window : Int} (active : job.phase = .active dequeuedAt seen (.requeueing window)) :
    Sound lockKey ((enqueueAssociation state job.agent window).setPhase place .finished) := by
  have holds := sound.jobs job (List.mem_of_getElem? found)
  rw [active] at holds
  obtain ⟨ended, -, sees, requeues, -⟩ := holds
  have later : dequeuedAt < windowEnd window := requeues window rfl
  have foundAfter := enqueueAssociation_job found job.agent window
  refine (sound.enqueued job.agent window).rephased foundAfter trivial (by simp [Phase.live]) (by simp)
    fun index event there awaits => ?_
  rw [enqueueAssociation_events] at there
  rw [active] at awaits
  have inside : event.committedAt < windowEnd window := ((sees.2 index event there).2 awaits.1).trans_lt later
  obtain ⟨other, member, live, own, same⟩ := enqueueAssociation_live state job.agent window
  obtain ⟨spot, known⟩ := List.mem_iff_getElem?.mp member
  -- The window of the deferral is a later one than that of the job: the request finds another job.
  have elsewhere : spot ≠ place := by
    rintro rfl
    obtain rfl := Option.some.inj (known.symm.trans foundAfter)
    rw [same] at ended
    exact absurd (ended.trans_lt later) (lt_irrefl _)
  rw [← same] at inside
  rw [← enqueueAssociation_events state job.agent window] at there
  rcases (sound.enqueued job.agent window).live_covers member live there inside with waits | ⟨run, started, ofAgent, saw⟩
  · exact .inr ⟨other, setPhase_elsewhere known elsewhere _, own, waits⟩
  · exact .inl ⟨run, started, ofAgent.trans own, saw⟩

theorem start_sound (sound : Sound lockKey state) {place : Nat} {job : Job} (found : state.jobs[place]? = some job)
    {dequeuedAt : ℚ} {seen : Nat} (active : job.phase = .active dequeuedAt seen .unscanned)
    (free : state.locks (lockKey job.agent) = none) :
    Sound lockKey (state.advanced place (.active dequeuedAt seen .running)
      (Function.update state.locks (lockKey job.agent) (some place))
      [{ agent := job.agent, seen := state.events.length }]) := by
  have holds := sound.jobs job (List.mem_of_getElem? found)
  rw [active] at holds
  obtain ⟨ended, past, sees, -, -⟩ := holds
  have started : (⟨job.agent, state.events.length⟩ : AssociationRun) ∈
      state.runs ++ [{ agent := job.agent, seen := state.events.length }] := by simp
  refine sound.advanced found ⟨ended, past, sees, by simp, fun _ => ⟨_, started, rfl, sees.1⟩⟩
    (by simp [active, Phase.live]) (by simp) ?_ fun index event there awaits => ?_
  · intro index elsewhere key held
    have other : key ≠ lockKey job.agent := by
      rintro rfl
      simp [free] at held
    rwa [Function.update_of_ne other]
  · exact .inl ⟨_, started, rfl, (List.getElem?_eq_some_iff.mp there).1⟩

theorem endRun_sound (sound : Sound lockKey state) {place : Nat} {job : Job} (found : state.jobs[place]? = some job)
    {dequeuedAt : ℚ} {seen : Nat} (active : job.phase = .active dequeuedAt seen .running) :
    Sound lockKey (state.advanced place (.active dequeuedAt seen .released)
      (Function.update state.locks (lockKey job.agent) none) []) := by
  have holds := sound.jobs job (List.mem_of_getElem? found)
  rw [active] at holds
  obtain ⟨ended, past, sees, -, started⟩ := holds
  have mine := sound.locked place job dequeuedAt seen found active
  refine sound.advanced found ⟨ended, past, sees, by simp, fun _ => ?_⟩ (by simp [active, Phase.live]) (by simp) ?_
    fun index event there awaits => ?_
  · simpa [State.advanced] using started rfl
  · intro index elsewhere key held
    have other : key ≠ lockKey job.agent := by
      rintro rfl
      exact elsewhere (Option.some.inj (held.symm.trans mine))
    rwa [Function.update_of_ne other]
  · simp [active, Phase.awaits, Stage.decided] at awaits

theorem jobStep_sound (sound : Sound lockKey state) {place : Nat} {job : Job} (found : state.jobs[place]? = some job)
    {action : Action} (stepped : jobStep lockKey state place job action = some next) : Sound lockKey next := by
  have holds := sound.jobs job (List.mem_of_getElem? found)
  cases phase : job.phase with
  | finished => simp [jobStep, phase] at stepped
  | queued scheduled =>
    cases action <;> simp only [jobStep, phase, Option.ite_none_right_eq_some, Option.some.injEq, reduceCtorEq]
      at stepped
    obtain ⟨due, rfl⟩ := stepped
    rw [phase] at holds
    have sees : Sees state state.now state.events.length :=
      ⟨le_rfl, fun index event there =>
        ⟨fun _ => (List.getElem?_eq_some_iff.mp there).1, fun _ => sound.past index event there⟩⟩
    refine sound.rephased found ⟨holds ▸ due, le_rfl, sees, by simp, by simp [Stage.decided]⟩
      (by simp [phase, Phase.live]) (by simp) fun index event there awaits => ?_
    exact .inr ⟨_, setPhase_here found _, rfl, (List.getElem?_eq_some_iff.mp there).1, rfl⟩
  | active dequeuedAt seen stage =>
    simp only [jobStep, phase] at stepped
    cases stage <;> cases action <;> simp only [activeStep, Option.some.injEq, reduceCtorEq] at stepped
    case undecided.checkScan =>
      subst stepped
      split
      · exact sound.undecided found phase rfl (by simp)
      · exact sound.undecided found phase rfl (by simp)
    case unscanned.tryLock =>
      split at stepped <;> cases stepped
      · exact sound.undecided found phase rfl (by simp)
      · rename_i free
        exact start_sound sound found phase free
    case deferring.recompute =>
      subst stepped
      rw [phase] at holds
      refine sound.undecided found phase rfl fun window same => ?_
      obtain rfl := Stage.requeueing.inj same
      exact holds.2.1.trans_lt (lt_windowEnd state.now)
    case requeueing.requeue =>
      subst stepped
      exact requeue_sound sound found phase
    case running.endRun =>
      subst stepped
      simpa [State.advanced, State.setPhase] using endRun_sound sound found phase
    case released.finish =>
      subst stepped
      refine sound.rephased found trivial (by simp [Phase.live]) (by simp) fun index event there awaits => ?_
      simp [phase, Phase.awaits, Stage.decided] at awaits

/-! ## Runs of the system -/

theorem Sound.kept (sound : Sound lockKey state) (grows : Grows state next) (jobs : next.jobs = state.jobs)
    (locks : next.locks = state.locks)
    (events : ∀ (index : Nat) (event : Event), next.events[index]? = some event →
      event.committedAt ≤ next.now ∧ (state.events[index]? = some event ∨ event.request = .committed)) :
    Sound lockKey next := by
  constructor
  case past => exact fun index event found => (events index event found).1
  case computed =>
    intro index event window found asked
    rcases (events index event found).2 with old | new
    · exact sound.computed index event window old asked
    · simp [new] at asked
  case jobs => exact fun job member => (sound.jobs job (jobs ▸ member)).grows grows
  case apart => exact jobs ▸ sound.apart
  case locked => exact jobs ▸ locks ▸ sound.locked
  case covered =>
    intro index event found asked
    rcases (events index event found).2 with old | new
    · exact (sound.covered index event old asked).grows grows jobs
    · simp [new] at asked

theorem step_sound (sound : Sound lockKey state) {action : Action} (stepped : step lockKey state action = some next) :
    Sound lockKey next := by
  cases action
  case tick now =>
    simp only [step, Option.ite_none_right_eq_some, Option.some.injEq] at stepped
    obtain ⟨later, rfl⟩ := stepped
    exact sound.kept (Grows.of_events later (fun _ there => there) rfl) rfl rfl fun index event found =>
      ⟨(sound.past index event found).trans later, .inl found⟩
  case commit agent =>
    obtain rfl := Option.some.inj stepped
    have split : ∀ (index : Nat) (event : Event),
        (state.events ++ [⟨agent, state.now, .committed⟩])[index]? = some event →
          state.events[index]? = some event ∨
            (state.events.length ≤ index ∧ event = ⟨agent, state.now, .committed⟩) := by
      intro index event found
      rw [List.getElem?_append] at found
      split at found
      · exact .inl found
      · rename_i beyond
        obtain ⟨inside, rfl⟩ := List.getElem?_eq_some_iff.mp found
        exact .inr ⟨not_lt.mp beyond, by simp⟩
    refine sound.kept ⟨le_rfl, fun _ there => there, by simp, fun index event found => ?_⟩ rfl rfl
      fun index event found => ?_
    · rcases split index event found with old | ⟨beyond, rfl⟩
      · exact .inl ⟨event, old, rfl⟩
      · exact .inr ⟨beyond, le_rfl⟩
    · rcases split index event found with old | ⟨beyond, rfl⟩
      · exact ⟨sound.past index event old, .inl old⟩
      · exact ⟨le_rfl, .inr rfl⟩
  case scan agent running =>
    obtain rfl := Option.some.inj stepped
    exact sound.kept (Grows.of_events le_rfl (fun _ there => there) rfl) rfl rfl fun index event found =>
      ⟨sound.past index event found, .inl found⟩
  all_goals
    simp only [step, Option.bind_eq_some_iff] at stepped
    obtain ⟨row, found, stepped⟩ := stepped
    first
    | exact requestStep_sound sound found stepped
    | exact jobStep_sound sound found stepped

-- Two jobs of one agent never run at the same time.
theorem Sound.single (sound : Sound lockKey state) {first second : Nat} {one other : Job}
    (foundOne : state.jobs[first]? = some one) (foundOther : state.jobs[second]? = some other)
    {dequeuedOne dequeuedOther : ℚ} {seenOne seenOther : Nat} (runOne : one.phase = .active dequeuedOne seenOne .running)
    (runOther : other.phase = .active dequeuedOther seenOther .running) (same : one.agent = other.agent) :
    first = second := by
  have held := sound.locked first one dequeuedOne seenOne foundOne runOne
  have holder := sound.locked second other dequeuedOther seenOther foundOther runOther
  rw [same] at held
  exact Option.some.inj (held.symm.trans holder)

def Request.inFlight : Request → Bool
  | .committed | .computed _ => true
  | .made | .failed => false

structure Coalesced (state : State) : Prop where
  covered : ∀ (index : Nat) (event : Event), state.events[index]? = some event → event.request ≠ .failed →
    event.request.inFlight = true ∨ state.Covered index event.agent
  oneJob : ∀ (first second : Nat) (one other : Job), state.jobs[first]? = some one → state.jobs[second]? = some other →
    one.phase.live = true → other.phase.live = true → one.agent = other.agent → one.window = other.window →
    first = second
  oneRun : ∀ (first second : Nat) (one other : Job) dequeuedOne seenOne dequeuedOther seenOther,
    state.jobs[first]? = some one → state.jobs[second]? = some other →
    one.phase = .active dequeuedOne seenOne .running → other.phase = .active dequeuedOther seenOther .running →
    one.agent = other.agent → first = second

theorem Sound.coalesced (sound : Sound lockKey state) : Coalesced state where
  covered := by
    intro index event found asked
    cases request : event.request with
    | committed => exact .inl rfl
    | computed window => exact .inl rfl
    | made => exact .inr (sound.covered index event found request)
    | failed => exact absurd request asked
  oneJob := sound.apart
  oneRun := fun _ _ _ _ _ _ _ _ foundOne foundOther runOne runOther same =>
    sound.single foundOne foundOther runOne runOther same

/-- In every reachable state an event whose request has been made is covered by a run that started after it or by a
job that will see it, a window of an agent has one job at most, and an agent has one run at most. -/
theorem no_trigger_is_lost (lockKey : String → Int) (start : ℚ) (actions : List Action) (final : State)
    (ran : run (step lockKey) (State.initial start) actions = some final) : Coalesced final :=
  (run_invariant (fun _ _ _ sound stepped => step_sound sound stepped) actions (Sound.initial start) ran).coalesced

-- The second request of the window is dropped; the job is put off by a scan, and the job of the later window runs.
def coalescedRun : List Action :=
  [.commit "nas", .compute 0, .tick 100, .commit "nas", .compute 1, .insert 0, .insert 1, .scan "nas" true, .tick 125,
    .dequeue 0, .checkScan 0, .recompute 0, .requeue 0, .scan "nas" false, .tick 240, .dequeue 1, .checkScan 1,
    .tryLock 1]

theorem coalesced_run_covers : ∃ final, run (step fun _ => 0) (State.initial 0) coalescedRun = some final ∧
    Coalesced final := by
  have ran : run (step fun _ => 0) (State.initial 0) coalescedRun ≠ none := by decide
  obtain ⟨final, found⟩ := Option.ne_none_iff_exists'.mp ran
  exact ⟨final, found, no_trigger_is_lost (fun _ => 0) 0 coalescedRun final found⟩

end Phaze.Companion
