import Phaze.Tagging.Anchors

set_option autoImplicit false

/-!
# What a run of tag writes keeps

Every step keeps the invariant, but for a result that is applied while an attempt of its row is between the
acknowledgement of its snapshot and its own report, or whose hash is older than the last write.
-/

namespace Phaze.Tagging

section Steps

variable {Content Tags Hash : Type}

structure Sound (state : State Content Tags Hash) (disk : Disk Content Tags Hash) : Prop where
  dispatches : Dispatches state
  anchors : Anchors state disk
  exclusive : Exclusive state

variable {state next : State Content Tags Hash} {disk : Disk Content Tags Hash}

/-! ## The requests -/

theorem Sound.rest (sound : Sound state disk) {session : SessionId} {stage : Session Tags}
    (holds : stage.holds = false) (dispatching : ∀ row, stage ≠ .dispatching row) :
    Sound (setSession state session stage) disk where
  dispatches := sound.dispatches.rest holds dispatching
  anchors := { sound.anchors with }
  exclusive := { sound.exclusive with }

theorem Sound.released (sound : Sound state disk) (session : SessionId) : Sound (release state session) disk where
  dispatches := sound.dispatches.ended session
  anchors := { sound.anchors with }
  exclusive := { sound.exclusive with }

-- A row without a job, whose session dispatches it or is done with it.
theorem Anchors.added (anchors : Anchors state disk) (dispatches : Dispatches state) (entry : LogEntry Tags)
    (unknown : lookup state.rows entry.id = none) (blank : entry.beforeTags = none) :
    Anchors { state with rows := state.rows ++ [entry] } disk := by
  refine anchors.unstarted ?_ ?_
  · intro row started
    rw [lookup_append unknown, if_neg]
    rintro rfl
    exact dispatches.inserted _ started unknown
  · intro row other found unstarted
    rw [lookup_append unknown] at found
    split at found
    · cases found
      exact blank
    · exact anchors.blank row other found unstarted

theorem Sound.noop (sound : Sound state disk) {session : SessionId} {row : RowId}
    (stepped : insertNoop state session row = some next) : Sound next disk := by
  unfold insertNoop at stepped
  split at stepped
  case h_2 => cases stepped
  next startedAt stands =>
    split at stepped
    case isFalse => cases stepped
    next unknown =>
      cases stepped
      set entry : LogEntry Tags :=
        { id := row, source := .bulkNoop, status := .noOp, beforeTags := none, afterTags := none,
          writtenAt := startedAt }
      have added : Sound { state with rows := state.rows ++ [entry] } disk :=
        { dispatches := sound.dispatches.append entry unknown (by intros; contradiction) (by intros; contradiction)
          anchors := sound.anchors.added sound.dispatches entry unknown rfl
          exclusive := { sound.exclusive with } }
      exact added.rest rfl (by simp)

theorem Sound.lock (sound : Sound state disk) {session : SessionId}
    (stepped : lockFile state session = some next) : Sound next disk := by
  unfold lockFile at stepped
  split at stepped
  case h_2 => cases stepped
  next startedAt request stands =>
    split at stepped
    case isFalse => cases stepped
    next free =>
      cases stepped
      exact
        { dispatches := sound.dispatches.lock free
          anchors := { sound.anchors with }
          exclusive := { sound.exclusive with } }

theorem Sound.count (sound : Sound state disk) {session : SessionId}
    (stepped : countQueued state session = some next) : Sound next disk := by
  unfold countQueued at stepped
  split at stepped
  case h_2 => cases stepped
  next startedAt request stands =>
    split at stepped
    · cases stepped
      exact sound.released session
    next none_queued =>
      cases stepped
      have alone : ∀ row entry, ¬ QueuedRow state row entry := by
        rintro row entry ⟨found, queued⟩
        exact none_queued (List.any_eq_true.mpr ⟨entry, (mem_of_lookup found).1, decide_eq_true queued⟩)
      exact
        { dispatches := sound.dispatches.count (by rw [stands]; rfl) alone
          anchors := { sound.anchors with }
          exclusive := { sound.exclusive with } }

theorem Sound.insert (sound : Sound state disk) {session : SessionId} {row : RowId}
    (stepped : insertEntry state session row = some next) : Sound next disk := by
  unfold insertEntry at stepped
  split at stepped
  case h_2 => cases stepped
  next startedAt request stands =>
    split at stepped
    case isFalse => cases stepped
    next unknown =>
      cases stepped
      set entry : LogEntry Tags :=
        { id := row, source := request.source, status := .queued, beforeTags := none, afterTags := request.tags,
          writtenAt := startedAt }
      have released := sound.released session
      have held : state.advisory = some session := sound.dispatches.holder session (by rw [stands]; rfl)
      -- No other session holds the lock, so none has counted.
      have uncounted : ∀ other at' request', (release state session).sessions other ≠ .counted at' request' := by
        intro other at' request' counted
        obtain ⟨apart, counted⟩ := session_of_ne counted (by simp)
        have := sound.dispatches.holder other (by rw [counted]; rfl)
        exact apart (Option.some.inj (this.symm.trans held))
      have unstarted : row ∉ state.enqueued := fun started => sound.dispatches.inserted row started unknown
      have appended : Dispatches { release state session with rows := state.rows ++ [entry] } :=
        released.dispatches.append entry unknown (fun _ => sound.dispatches.counted session startedAt request stands)
          fun _ => uncounted
      have fresh : QueuedRow { release state session with rows := state.rows ++ [entry] } row entry := by
        refine ⟨?_, rfl⟩
        change lookup (state.rows ++ [entry]) row = some entry
        rw [lookup_append unknown, if_pos rfl]
      refine
        { dispatches := appended.dispatch unstarted fresh ?_
          anchors := { released.anchors.added released.dispatches entry unknown rfl with }
          exclusive := { sound.exclusive with } }
      intro other dispatching
      obtain ⟨-, dispatching⟩ := session_of_ne dispatching (by simp)
      obtain ⟨-, known, found, -⟩ := sound.dispatches.dispatching other row dispatching
      rw [unknown] at found
      cases found

theorem Sound.enqueue (sound : Sound state disk) {session : SessionId}
    (stepped : enqueueJob state session = some next) : Sound next disk := by
  unfold enqueueJob at stepped
  split at stepped
  case h_2 => cases stepped
  next row stands =>
    cases stepped
    exact
      { dispatches := sound.dispatches.enqueue stands
        anchors := { sound.anchors.enqueue row with }
        exclusive := { sound.exclusive with } }

theorem Sound.refuse (sound : Sound state disk) {session : SessionId}
    (stepped : refuseJob state session = some next) : Sound next disk := by
  unfold refuseJob at stepped
  split at stepped
  case h_2 => cases stepped
  next row stands =>
    cases stepped
    obtain ⟨unstarted, -⟩ := sound.dispatches.dispatching session row stands
    have keeps : ∀ entry : LogEntry Tags, ({ entry with status := .failed } : LogEntry Tags).id = entry.id :=
      fun _ => rfl
    have anchors : Anchors { state with
        rows := update state.rows row fun entry => { entry with status := .failed } } disk := by
      refine sound.anchors.unstarted ?_ ?_
      · intro other started
        rw [lookup_update keeps, if_neg]
        rintro rfl
        exact unstarted started
      · intro other entry found fresh
        rw [lookup_update keeps] at found
        split at found
        next same =>
          obtain ⟨old, was, rfl⟩ := Option.map_eq_some_iff.mp found
          exact sound.anchors.blank row old was unstarted
        next => exact sound.anchors.blank other entry found fresh
    exact
      { dispatches := sound.dispatches.refuse stands
        anchors := { anchors with }
        exclusive := { sound.exclusive with } }

/-! ## The attempts -/

theorem Sound.begin (sound : Sound state disk) {attempt : AttemptId} {row : RowId}
    (idle : state.attempts attempt = .idle) (started : row ∈ state.enqueued) :
    Sound (setAttempt state attempt (.waiting row)) disk where
  dispatches := { sound.dispatches with }
  anchors := by
    refine sound.anchors.attempt (.waiting row) ?_ ?_ ?_
    · rintro other ⟨⟩
      exact started
    · intro other tags sent
      have := (sound.anchors.asked attempt other tags sent).2
      rw [idle] at this
      exact this
    · rintro other (⟨stands, -⟩ | ⟨_, stands⟩) <;> simp [setAttempt] at stands
  exclusive := by
    refine sound.exclusive.attempt (.waiting row) (by intros; contradiction) (fun _ _ same => same) ?_
      (by intros; contradiction)
    intro other status beforeTags hash seen posted
    rcases sound.exclusive.settled attempt other status beforeTags hash seen posted with ⟨_, stands⟩ | stands <;>
      · rw [idle] at stands
        cases stands

theorem Sound.finish (sound : Sound state disk) (attempt : AttemptId) : Sound (finish state attempt) disk where
  dispatches := { sound.dispatches with }
  anchors := by
    refine sound.anchors.attempt .over (by intros; contradiction) (fun _ _ _ => trivial) ?_
    rintro other (⟨stands, -⟩ | ⟨_, stands⟩) <;> simp [setAttempt] at stands
  exclusive := by
    refine sound.exclusive.attempt .over (by intros; contradiction) ?_ (fun _ _ _ _ _ _ => .inr rfl)
      (by intros; contradiction)
    intro other apart held
    rw [held, if_neg fun same => apart (Option.some.inj same)]

theorem Sound.refusePath (sound : Sound state disk) {attempt : AttemptId}
    (stepped : refusePath state attempt = some next) : Sound next disk := by
  unfold Tagging.refusePath at stepped
  split at stepped
  case h_2 => cases stepped
  next row stands =>
    cases stepped
    have posted : Anchors (send state (.result attempt row .failed none (observedHash state disk false)
        state.writes.length)) disk :=
      sound.anchors.post (sound.anchors.begun attempt row (by rw [stands]; rfl)) (by intros; contradiction)
    refine { dispatches := { sound.dispatches with }, anchors := ?_, exclusive := ?_ }
    · refine posted.attempt .over (by intros; contradiction) (fun _ _ _ => trivial) ?_
      rintro other (⟨stands, -⟩ | ⟨_, stands⟩) <;> simp [setAttempt] at stands
    · refine sound.exclusive.post (by simp [stands]) (by simp [stands]) (.inr rfl) (by intros; contradiction) ?_
      intro other apart held
      change (if state.owner = some attempt then none else state.owner) = some other
      rw [held, if_neg fun same => apart (Option.some.inj same)]

theorem Sound.acquire (sound : Sound state disk) {attempt : AttemptId}
    (stepped : acquire state attempt = some next) : Sound next disk := by
  unfold Tagging.acquire at stepped
  split at stepped
  case h_2 => cases stepped
  next row stands =>
    split at stepped
    case isFalse => cases stepped
    next free =>
      cases stepped
      refine { dispatches := { sound.dispatches with }, anchors := ?_, exclusive := ?_ }
      · refine sound.anchors.attempt (.owned row) ?_ ?_ ?_
        · rintro other ⟨⟩
          exact sound.anchors.begun attempt row (by rw [stands]; rfl)
        · intro other tags sent
          have := (sound.anchors.asked attempt other tags sent).2
          rw [stands] at this
          exact this
        · rintro other (⟨is, -⟩ | ⟨_, is⟩) <;> simp [setAttempt] at is
      · refine sound.exclusive.attempt (.owned row) (fun _ => rfl) ?_ ?_ (by intros; contradiction)
        · intro other _ held
          rw [free] at held
          cases held
        · intro other status beforeTags hash seen posted
          rcases sound.exclusive.settled attempt other status beforeTags hash seen posted with ⟨_, is⟩ | is <;>
            · rw [stands] at is
              cases is

-- The attempt that owns the lock reports.
theorem Sound.reporting (sound : Sound state disk) {attempt : AttemptId} {row : RowId} {status : TagWriteStatus}
    {beforeTags : Option Tags} {observed : Bool} (stands : (state.attempts attempt).row = some row)
    (owns : (state.attempts attempt).owns = true) (unsettled : ∀ row, state.attempts attempt ≠ .reporting row)
    (asked : ∀ other, (state.attempts attempt).asked other → other = row)
    (reported : beforeTags ≠ none → ∃ entry, lookup state.rows row = some entry ∧ entry.beforeTags ≠ none) :
    Sound (setAttempt (send state (.result attempt row status beforeTags (observedHash state disk observed)
      state.writes.length)) attempt (.reporting row)) disk := by
  have started := sound.anchors.begun attempt row stands
  have posted : Anchors (send state (.result attempt row status beforeTags (observedHash state disk observed)
      state.writes.length)) disk := sound.anchors.post started reported
  refine { dispatches := { sound.dispatches with }, anchors := ?_, exclusive := ?_ }
  · refine posted.attempt (.reporting row) ?_ ?_ ?_
    · rintro other ⟨⟩
      exact started
    · intro other tags sent
      exact (asked other ((sound.anchors.asked attempt other tags (by simpa [send] using sent)).2)).symm
    · rintro other (⟨is, -⟩ | ⟨_, is⟩) <;> simp [setAttempt] at is
  · refine sound.exclusive.post unsettled ?_ (.inl ⟨row, rfl⟩) (fun _ => sound.exclusive.owned attempt owns)
      fun _ _ same => same
    intro done
    rw [done] at owns
    cases owns

theorem Sound.snapshotFails (sound : Sound state disk) {attempt : AttemptId} {observed : Bool}
    (stepped : snapshotFails state disk attempt observed = some next) : Sound next disk := by
  unfold Tagging.snapshotFails at stepped
  split at stepped
  case h_2 => cases stepped
  next row stands =>
    cases stepped
    refine sound.reporting (by rw [stands]; rfl) (by rw [stands]; rfl) (by simp [stands]) ?_
      (by intros; contradiction)
    intro other asked
    rw [stands] at asked
    cases asked

theorem Sound.report [DecidableEq Tags] (sound : Sound state disk) {attempt : AttemptId} {status : TagWriteStatus}
    {observed : Bool} (stepped : report state disk attempt status observed = some next) : Sound next disk := by
  unfold Tagging.report at stepped
  split at stepped
  case h_2 => cases stepped
  next row beforeTags stands =>
    cases stepped
    refine sound.reporting (by rw [stands]; rfl) (by rw [stands]; rfl) (by simp [stands]) ?_ ?_
    · intro other asked
      rw [stands] at asked
      exact asked.symm
    · intro _
      obtain ⟨entry, queued, before⟩ := sound.anchors.armed attempt row (.inr ⟨beforeTags, stands⟩)
      exact ⟨entry, queued.1, before⟩

theorem Sound.snapshot (sound : Sound state disk) {attempt : AttemptId}
    (stepped : snapshot state disk attempt = some next) : Sound next disk := by
  unfold Tagging.snapshot at stepped
  split at stepped
  case h_2 => cases stepped
  next row tags stands extracts =>
    cases stepped
    refine
      { dispatches := { sound.dispatches with }
        anchors := sound.anchors.ask stands extracts
        exclusive := ?_ }
    have base : Exclusive (setAttempt state attempt (.asking row)) := by
      refine sound.exclusive.attempt (.asking row) ?_ (fun _ _ same => same) ?_ (by intros; contradiction)
      · exact fun _ => sound.exclusive.owned attempt (by rw [stands]; rfl)
      · intro other status beforeTags hash seen posted
        rcases sound.exclusive.settled attempt other status beforeTags hash seen posted with ⟨_, is⟩ | is <;>
          · rw [stands] at is
            cases is
    refine { base with settled := ?_, current := ?_ }
    · intro other row' status beforeTags hash seen posted
      exact base.settled other row' status beforeTags hash seen (by simpa [send, setAttempt] using posted)
    · intro other row' row'' status beforeTags hash seen is posted
      exact base.current other row' row'' status beforeTags hash seen is (by simpa [send, setAttempt] using posted)

theorem Sound.answer (sound : Sound state disk) {attempt : AttemptId} {status : TagWriteStatus}
    (stepped : answer state disk attempt status = some next) : Sound next disk := by
  unfold Tagging.answer at stepped
  split at stepped
  case h_2 => cases stepped
  next row stands =>
    split at stepped
    case isFalse => cases stepped
    next answered =>
      split at stepped
      case isFalse =>
        cases stepped
        exact sound.finish attempt
      next queued =>
        cases stepped
        refine { dispatches := { sound.dispatches with }, anchors := ?_, exclusive := ?_ }
        · refine sound.anchors.attempt (.writing row _) ?_ ?_ ?_
          · rintro other ⟨⟩
            exact sound.anchors.begun attempt row (by rw [stands]; rfl)
          · intro other tags sent
            have := (sound.anchors.asked attempt other tags sent).2
            rw [stands] at this
            exact this
          · rintro other (⟨is, -⟩ | ⟨_, is⟩)
            · simp [setAttempt] at is
            · simp only [setAttempt, Function.update_self, Stage.writing.injEq] at is
              obtain ⟨rfl, -⟩ := is
              exact sound.anchors.armed attempt row (.inl ⟨stands, queued ▸ answered⟩)
        · refine sound.exclusive.attempt (.writing row _) ?_ (fun _ _ same => same) ?_ (by intros; contradiction)
          · exact fun _ => sound.exclusive.owned attempt (by rw [stands]; rfl)
          · intro other status' beforeTags hash seen posted
            rcases sound.exclusive.settled attempt other status' beforeTags hash seen posted with ⟨_, is⟩ | is <;>
              · rw [stands] at is
                cases is

section Served

variable [DecidableEq Tags]

theorem Sound.wrote (sound : Sound state disk) {attempt : AttemptId} {content : Content}
    (stepped : write state disk attempt content = some next) : Sound next disk := by
  have anchors := (sound.anchors.wrote sound.dispatches stepped).2
  unfold write at stepped
  split at stepped
  case h_2 => cases stepped
  next row beforeTags stands =>
    cases stepped
    refine { dispatches := { sound.dispatches with }, anchors := anchors, exclusive := ?_ }
    refine { sound.exclusive with current := ?_ }
    intro other row' row'' status before hash seen is posted
    -- Only the writer owns the lock.
    change state.attempts other = .reporting row' at is
    have mine := sound.exclusive.owned attempt (by rw [stands]; rfl)
    have theirs := sound.exclusive.owned other (by rw [is]; rfl)
    obtain rfl : attempt = other := Option.some.inj (mine.symm.trans theirs)
    rw [is] at stands
    cases stands

/-! ## The callbacks -/

-- No attempt that may still write for the row would outlive the result, and its hash is of the file as it is.
def timely (state : State Content Tags Hash) (row : RowId) (status : TagWriteStatus) (hash : Option Hash) (seen : Nat) :
    Bool :=
  status = .queued || (lookup state.rows row).all fun entry =>
    entry.status ≠ .queued || (unarmed state row && (hash.isNone || seen = state.writes.length))

def Admitted (state : State Content Tags Hash) : Action Content Tags Hash → Bool
  | .serve (.result _ row status _ hash seen) => timely state row status hash seen
  | _ => true

omit [DecidableEq Tags] in
theorem Sound.recorded (sound : Sound state disk) {attempt : AttemptId} {row : RowId} {tags : Tags}
    (sent : .snapshot attempt row tags ∈ state.sent) (stepped : recordBeforeSnapshot state attempt row tags = some next) :
    Sound next disk := by
  have anchors := sound.anchors.recorded sent stepped
  obtain ⟨entry, found, ⟨kept, rfl⟩ | ⟨queued, blank, rfl⟩⟩ := recordBeforeSnapshot_cases stepped
  · exact { dispatches := { sound.dispatches with }, anchors := anchors, exclusive := { sound.exclusive with } }
  · have changed := sound.dispatches.change (fun entry => { entry with beforeTags := some tags })
      (fun _ => rfl) (fun _ status => status) (sound.anchors.asked attempt row tags sent).1
    exact { dispatches := { changed with }, anchors := anchors, exclusive := { sound.exclusive with } }

theorem Sound.patched (sound : Sound state disk) {attempt : AttemptId} {row : RowId} {status : TagWriteStatus}
    {beforeTags : Option Tags} {hash : Option Hash} {seen : Nat}
    (posted : .result attempt row status beforeTags hash seen ∈ state.sent)
    (admitted : timely state row status hash seen = true)
    (stepped : patchTagWrite state row status beforeTags hash = some next) : Sound next disk := by
  obtain rfl | ⟨entry, queued, leaves, rfl⟩ := patchTagWrite_cases stepped
  · exact sound
  have calm : unarmed state row = true ∧ (hash.isSome = true → seen = state.writes.length) := by
    simp only [timely, leaves, decide_false, Bool.false_or, queued.1, Option.all_some, queued.2, ne_eq,
      not_true_eq_false, Bool.and_eq_true, Bool.or_eq_true, decide_eq_true_eq] at admitted
    refine ⟨admitted.1, fun observed => admitted.2.resolve_left ?_⟩
    cases hash <;> simp at observed ⊢
  have changed := sound.dispatches.change
    (fun entry => { entry with status := status, beforeTags := entry.beforeTags.or beforeTags })
    (fun _ => rfl) (fun _ is => absurd is leaves) (sound.anchors.posted attempt row status beforeTags hash seen posted)
  refine { dispatches := { changed with }, anchors := ?_, exclusive := { sound.exclusive with } }
  exact sound.anchors.patched posted (fun _ _ => ⟨not_armed_of_unarmed sound.exclusive calm.1, calm.2⟩) stepped

/-! ## The steps -/

variable [DecidableEq Hash]

theorem step_sound {action : Action Content Tags Hash} (sound : Sound state disk)
    (admitted : Admitted state action = true) (stepped : step state disk action = some next) : Sound next disk := by
  cases action with
  | pass =>
    cases stepped
    exact
      { dispatches := { sound.dispatches with }
        anchors := { sound.anchors with }
        exclusive := { sound.exclusive with } }
  | start session =>
    simp only [step] at stepped
    split at stepped <;> cases stepped
    exact sound.rest rfl (by simp)
  | checkReverted session =>
    simp only [step, checkReverted] at stepped
    split at stepped <;> cases stepped
    split
    · exact sound.rest rfl (by simp)
    · exact sound.rest rfl (by simp)
  | selectUndo session =>
    simp only [step, selectUndo] at stepped
    split at stepped <;> cases stepped
    split
    · exact sound.rest rfl (by simp)
    · exact sound.rest rfl (by simp)
  | approve session tags =>
    simp only [step] at stepped
    split at stepped <;> cases stepped
    exact sound.rest rfl (by simp)
  | noop => exact sound.noop stepped
  | lock => exact sound.lock stepped
  | count => exact sound.count stepped
  | insert => exact sound.insert stepped
  | enqueue => exact sound.enqueue stepped
  | refused => exact sound.refuse stepped
  | abandon session =>
    cases stepped
    exact sound.released session
  | begin attempt row =>
    simp only [step] at stepped
    split at stepped <;> cases stepped
    next begins => exact sound.begin begins.1 begins.2
  | refusePath => exact sound.refusePath stepped
  | acquire => exact sound.acquire stepped
  | snapshotFails => exact sound.snapshotFails stepped
  | snapshot => exact sound.snapshot stepped
  | answer => exact sound.answer stepped
  | write => exact sound.wrote stepped
  | report => exact sound.report stepped
  | finish attempt =>
    cases stepped
    exact sound.finish attempt
  | serve message =>
    simp only [step, serve] at stepped
    split at stepped
    case isFalse => cases stepped
    next sent =>
      cases message with
      | snapshot => exact sound.recorded sent stepped
      | result => exact sound.patched sent admitted stepped

omit [DecidableEq Tags] [DecidableEq Hash] in
theorem initial_sound (content : Content) (sha256Hash : Hash) :
    Sound (State.initial content sha256Hash) disk where
  dispatches := by constructor <;> simp [State.initial, QueuedRow, lookup, Session.holds]
  anchors := by constructor <;> simp [State.initial, QueuedRow, lookup, Armed, Stage.row]
  exclusive := by constructor <;> simp [State.initial, Stage.owns]

abbrev runWrites (disk : Disk Content Tags Hash) :
    State Content Tags Hash → List (Action Content Tags Hash) → Option (State Content Tags Hash) :=
  Runs.run fun state action => step state disk action

abbrev AllAdmitted (disk : Disk Content Tags Hash) :
    State Content Tags Hash → List (Action Content Tags Hash) → Prop :=
  Runs.Along (fun state action => step state disk action) fun state action => Admitted state action = true

theorem run_sound {actions : List (Action Content Tags Hash)} (admitted : AllAdmitted disk state actions)
    (sound : Sound state disk) (ran : runWrites disk state actions = some next) : Sound next disk :=
  Runs.run_keeps (fun _ _ _ sound admitted stepped => step_sound sound admitted stepped) actions admitted sound ran

/-! ## The rows -/

-- The steps that leave the rows alone.
def Action.silent : Action Content Tags Hash → Bool
  | .noop .. | .insert .. | .refused _ | .serve _ => false
  | _ => true

theorem step_silent {action : Action Content Tags Hash} (silent : action.silent = true)
    (stepped : step state disk action = some next) : next.rows = state.rows := by
  cases action with
  | noop | insert | refused | serve => cases silent
  | pass | abandon | finish =>
    cases stepped
    rfl
  | start | approve | begin => grind [step, setSession, setAttempt]
  | checkReverted => grind [step, checkReverted, setSession]
  | selectUndo => grind [step, selectUndo, setSession]
  | lock => grind [step, lockFile, setSession]
  | count => grind [step, countQueued, release, setSession]
  | enqueue => grind [step, enqueueJob, setSession]
  | refusePath => grind [step, refusePath, finish, send, setAttempt]
  | acquire => grind [step, acquire, setAttempt]
  | snapshotFails => grind [step, snapshotFails, setAttempt, send]
  | snapshot => grind [step, snapshot, setAttempt, send]
  | answer => grind [step, answer, setAttempt, finish]
  | write => grind [step, write]
  | report => grind [step, report, setAttempt, send]

-- A change of a QUEUED row that keeps what its insert gave it, and its anchor.
structure Amends (state : State Content Tags Hash) (row : RowId) (change : LogEntry Tags → LogEntry Tags) : Prop where
  id : ∀ entry, (change entry).id = entry.id
  writtenAt : ∀ entry, (change entry).writtenAt = entry.writtenAt
  source : ∀ entry, (change entry).source = entry.source
  afterTags : ∀ entry, (change entry).afterTags = entry.afterTags
  queued : ∀ entry, (change entry).status = .queued → entry.status = .queued
  anchor : ∃ entry, QueuedRow state row entry ∧
    ∀ tags, entry.beforeTags = some tags → (change entry).beforeTags = some tags

omit [DecidableEq Tags] [DecidableEq Hash] in
theorem Amends.refused {row : RowId} {entry : LogEntry Tags} (queued : QueuedRow state row entry) :
    Amends state row fun entry => { entry with status := .failed } where
  id _ := rfl
  writtenAt _ := rfl
  source _ := rfl
  afterTags _ := rfl
  queued := by
    intros
    contradiction
  anchor := ⟨entry, queued, fun _ same => same⟩

omit [DecidableEq Tags] [DecidableEq Hash] in
theorem Amends.recorded {row : RowId} {entry : LogEntry Tags} {tags : Tags} (queued : QueuedRow state row entry)
    (blank : entry.beforeTags = none) : Amends state row fun entry => { entry with beforeTags := some tags } where
  id _ := rfl
  writtenAt _ := rfl
  source _ := rfl
  afterTags _ := rfl
  queued _ same := same
  anchor := ⟨entry, queued, fun _ same => absurd (blank.symm.trans same) (by simp)⟩

omit [DecidableEq Tags] [DecidableEq Hash] in
theorem Amends.patched {row : RowId} {entry : LogEntry Tags} {status : TagWriteStatus} {beforeTags : Option Tags}
    (queued : QueuedRow state row entry) (leaves : status ≠ .queued) :
    Amends state row fun entry => { entry with status := status, beforeTags := entry.beforeTags.or beforeTags } where
  id _ := rfl
  writtenAt _ := rfl
  source _ := rfl
  afterTags _ := rfl
  queued _ is := absurd is leaves
  anchor := ⟨entry, queued, fun tags same => by simp [same]⟩

theorem step_rows {action : Action Content Tags Hash} (dispatches : Dispatches state)
    (stepped : step state disk action = some next) :
    next.rows = state.rows ∨
      (∃ entry, lookup state.rows entry.id = none ∧ next.rows = state.rows ++ [entry]) ∨
      ∃ row change, Amends state row change ∧ next.rows = update state.rows row change := by
  by_cases silent : action.silent = true
  · exact .inl (step_silent silent stepped)
  cases action with
  | noop session row =>
    simp only [step, insertNoop] at stepped
    split at stepped
    case h_2 => cases stepped
    next startedAt _ =>
      split at stepped <;> cases stepped
      next unknown =>
        let entry : LogEntry Tags :=
          { id := row, source := .bulkNoop, status := .noOp, beforeTags := none, afterTags := none,
            writtenAt := startedAt }
        exact .inr (.inl ⟨entry, unknown, rfl⟩)
  | insert session row =>
    simp only [step, insertEntry] at stepped
    split at stepped
    case h_2 => cases stepped
    next startedAt request _ =>
      split at stepped <;> cases stepped
      next unknown =>
        let entry : LogEntry Tags :=
          { id := row, source := request.source, status := .queued, beforeTags := none, afterTags := request.tags,
            writtenAt := startedAt }
        exact .inr (.inl ⟨entry, unknown, rfl⟩)
  | refused session =>
    simp only [step, refuseJob] at stepped
    split at stepped <;> cases stepped
    next row stands =>
      obtain ⟨-, entry, queued⟩ := dispatches.dispatching session row stands
      exact .inr (.inr ⟨row, _, .refused queued, rfl⟩)
  | serve message =>
    simp only [step, serve] at stepped
    split at stepped
    case isFalse => cases stepped
    next sent =>
      cases message with
      | snapshot attempt row tags =>
        obtain ⟨entry, found, ⟨kept, rfl⟩ | ⟨queued, blank, rfl⟩⟩ := recordBeforeSnapshot_cases stepped
        · exact .inl rfl
        · exact .inr (.inr ⟨row, _, .recorded ⟨found, queued⟩ blank, rfl⟩)
      | result attempt row status beforeTags hash seen =>
        obtain rfl | ⟨entry, queued, leaves, rfl⟩ := patchTagWrite_cases stepped
        · exact .inl rfl
        · exact .inr (.inr ⟨row, _, .patched queued leaves, rfl⟩)
  | _ => exact absurd rfl silent

-- What a row keeps from one state on: its anchor, and its status once it has left QUEUED.
structure Keeps (state final : State Content Tags Hash) : Prop where
  anchor : ∀ row entry tags, lookup state.rows row = some entry → entry.beforeTags = some tags →
    ∃ later, lookup final.rows row = some later ∧ later.beforeTags = some tags
  settled : ∀ row entry, lookup state.rows row = some entry → entry.status ≠ .queued →
    ∃ later, lookup final.rows row = some later ∧ later.status = entry.status

omit [DecidableEq Tags] [DecidableEq Hash] in
theorem Keeps.refl (state : State Content Tags Hash) : Keeps state state where
  anchor _ entry _ found kept := ⟨entry, found, kept⟩
  settled _ entry found _ := ⟨entry, found, rfl⟩

omit [DecidableEq Tags] [DecidableEq Hash] in
theorem Keeps.trans {middle : State Content Tags Hash} (first : Keeps state middle) (second : Keeps middle next) :
    Keeps state next where
  anchor row entry tags found kept := by
    obtain ⟨later, found, kept⟩ := first.anchor row entry tags found kept
    exact second.anchor row later tags found kept
  settled row entry found left := by
    obtain ⟨later, found, same⟩ := first.settled row entry found left
    obtain ⟨last, found, same'⟩ := second.settled row later found (same ▸ left)
    exact ⟨last, found, same'.trans same⟩

theorem step_keeps {action : Action Content Tags Hash} (dispatches : Dispatches state)
    (stepped : step state disk action = some next) : Keeps state next := by
  obtain same | ⟨entry, unknown, added⟩ | ⟨row, change, amends, changed⟩ := step_rows dispatches stepped
  · constructor
    · intro row entry tags found kept
      exact ⟨entry, same ▸ found, kept⟩
    · intro row entry found _
      exact ⟨entry, same ▸ found, rfl⟩
  · have kept : ∀ row old, lookup state.rows row = some old → lookup next.rows row = some old := by
      intro row old found
      rw [added, lookup_append unknown, if_neg]
      · exact found
      · rintro rfl
        rw [unknown] at found
        cases found
    constructor
    · intro row old tags found before
      exact ⟨old, kept row old found, before⟩
    · intro row old found _
      exact ⟨old, kept row old found, rfl⟩
  · obtain ⟨entry, queued, anchor⟩ := amends.anchor
    have others : ∀ other, other ≠ row → lookup next.rows other = lookup state.rows other := by
      intro other apart
      rw [changed, lookup_update amends.id, if_neg apart]
    have mine : lookup next.rows row = some (change entry) := by
      rw [changed, lookup_update amends.id, if_pos rfl, queued.1]
      rfl
    constructor
    · intro other old tags found before
      by_cases same : other = row
      · subst same
        obtain rfl : entry = old := Option.some.inj (queued.1.symm.trans found)
        exact ⟨_, mine, anchor tags before⟩
      · exact ⟨old, (others other same).trans found, before⟩
    · intro other old found left
      by_cases same : other = row
      · subst same
        obtain rfl : entry = old := Option.some.inj (queued.1.symm.trans found)
        exact absurd queued.2 left
      · exact ⟨old, (others other same).trans found, rfl⟩

theorem run_keeps {actions : List (Action Content Tags Hash)} (admitted : AllAdmitted disk state actions)
    (sound : Sound state disk) (ran : runWrites disk state actions = some next) : Keeps state next := by
  induction actions generalizing state with
  | nil =>
    cases ran
    exact Keeps.refl _
  | cons action rest ih =>
    obtain ⟨middle, stepped, ran⟩ := Runs.run_cons.mp ran
    have after := step_sound sound admitted.head stepped
    exact (step_keeps sound.dispatches stepped).trans (ih (admitted.tail stepped) after ran)

omit [DecidableEq Hash] in
-- A result that comes while its attempt still holds the OS lock is timely.
theorem timely_of_reporting (sound : Sound state disk) {attempt : AttemptId} {row other : RowId}
    {status : TagWriteStatus} {beforeTags : Option Tags} {hash : Option Hash} {seen : Nat}
    (reports : state.attempts attempt = .reporting other)
    (posted : .result attempt row status beforeTags hash seen ∈ state.sent) :
    timely state row status hash seen = true := by
  have owner := sound.exclusive.owned attempt (by rw [reports]; rfl)
  have calm : unarmed state row = true := by
    simp [unarmed, owner, Armed, reports]
  have current := sound.exclusive.current attempt other row status beforeTags hash seen reports posted
  simp only [timely, calm, current, decide_true, Bool.or_true, Bool.and_true]
  cases lookup state.rows row <;> simp

omit [DecidableEq Tags] [DecidableEq Hash] in
theorem queued_length (dispatches : Dispatches state) :
    (state.rows.filter fun entry => entry.status = .queued).length ≤ 1 := by
  have nodup : (state.rows.filter fun entry => entry.status = .queued).Nodup :=
    (List.Nodup.of_map _ dispatches.distinct).filter _
  have queued : ∀ entry ∈ state.rows.filter fun entry => entry.status = .queued, QueuedRow state entry.id entry := by
    intro entry member
    rw [List.mem_filter, decide_eq_true_eq] at member
    exact ⟨lookup_of_mem dispatches.distinct member.1, member.2⟩
  match listed : state.rows.filter fun entry => entry.status = .queued with
  | [] => simp [listed]
  | [_] => simp [listed]
  | first :: second :: rest =>
    rw [listed] at nodup queued
    have atFirst := queued first (by simp)
    have atSecond := queued second (by simp)
    have ids := dispatches.oneQueued first.id second.id first second atFirst atSecond
    have same : first = second := Option.some.inj (atFirst.1.symm.trans (ids ▸ atSecond.1))
    simp [same] at nodup

-- Only a write changes the file.
theorem step_unwritten {action : Action Content Tags Hash} (other : ∀ attempt content, action ≠ .write attempt content)
    (stepped : step state disk action = some next) :
    next.content = state.content ∧ next.writes = state.writes ∧ next.original = state.original := by
  cases action with
  | write attempt content => exact absurd rfl (other attempt content)
  | pass | abandon | finish =>
    cases stepped
    exact ⟨rfl, rfl, rfl⟩
  | start | approve | begin => grind [step, setSession, setAttempt]
  | checkReverted => grind [step, checkReverted, setSession]
  | selectUndo => grind [step, selectUndo, setSession]
  | noop => grind [step, insertNoop, setSession]
  | lock => grind [step, lockFile, setSession]
  | count => grind [step, countQueued, release, setSession]
  | insert => grind [step, insertEntry, release, setSession]
  | enqueue => grind [step, enqueueJob, setSession]
  | refused => grind [step, refuseJob, setSession]
  | refusePath => grind [step, refusePath, finish, send, setAttempt]
  | acquire => grind [step, acquire, setAttempt]
  | snapshotFails => grind [step, snapshotFails, setAttempt, send]
  | snapshot => grind [step, snapshot, setAttempt, send]
  | answer => grind [step, answer, setAttempt, finish]
  | report => grind [step, report, setAttempt, send]
  | serve message =>
    simp only [step, serve] at stepped
    split at stepped
    case isFalse => cases stepped
    cases message with
    | snapshot => grind [recordBeforeSnapshot]
    | result => grind [patchTagWrite]

/-- In every run in which each result is timely when it is applied, one row is QUEUED at most, the file is written
for that row only, the anchor of a row is the snapshot of the file before its first write, neither the anchor nor
a status that was reached changes, and the stored hash is of the file from an applied result to the next write. -/
theorem writes_keep_their_anchor (disk : Disk Content Tags Hash) (content : Content) (sha256Hash : Hash)
    (actions : List (Action Content Tags Hash)) (state : State Content Tags Hash)
    (admitted : AllAdmitted disk (State.initial content sha256Hash) actions)
    (ran : runWrites disk (State.initial content sha256Hash) actions = some state) :
    (state.rows.filter fun entry => entry.status = .queued).length ≤ 1 ∧
      (∀ action next, step state disk action = some next →
        (next.content, next.writes) ≠ (state.content, state.writes) →
        ∃ attempt row entry beforeTags, state.attempts attempt = .writing row beforeTags ∧ QueuedRow state row entry) ∧
      (∀ row entry first, lookup state.rows row = some entry → state.original row = some first →
        entry.beforeTags ≠ none ∧ entry.beforeTags = disk.extract first) ∧
      (state.refreshed = true → state.sha256Hash = disk.hash state.content) ∧
      ∀ later final, AllAdmitted disk state later → runWrites disk state later = some final → Keeps state final := by
  have sound := run_sound admitted (initial_sound content sha256Hash) ran
  refine ⟨queued_length sound.dispatches, ?_, ?_, sound.anchors.refreshed, ?_⟩
  · intro action next stepped changed
    obtain ⟨attempt, bytes, rfl⟩ : ∃ attempt bytes, action = .write attempt bytes := by
      by_contra other
      obtain ⟨content, writes, -⟩ := step_unwritten (fun attempt bytes is => other ⟨attempt, bytes, is⟩) stepped
      exact changed (by rw [content, writes])
    obtain ⟨row, entry, beforeTags, stands, queued⟩ := (sound.anchors.wrote sound.dispatches stepped).1
    exact ⟨attempt, row, entry, beforeTags, stands, queued⟩
  · intro row entry first found written
    cases kept : entry.beforeTags with
    | none =>
      rw [sound.anchors.unwritten row entry found kept] at written
      cases written
    | some tags => exact ⟨by simp, (sound.anchors.anchored row entry tags first found kept written).symm⟩
  · exact fun later final admitted ran => run_keeps admitted sound ran

end Served

end Steps

/-! ## One row -/

namespace Single

def disk : Disk Nat Nat Nat :=
  { extract := some, hash := id }

-- A row that asks for the tags 7, and its job, which has the OS lock and asks about its snapshot.
def asks : List (Action Nat Nat Nat) :=
  [.start 0, .approve 0 (some 7), .lock 0, .count 0, .insert 0 1, .enqueue 0, .begin 1 1, .acquire 1, .snapshot 1,
    .serve (.snapshot 1 1 3), .answer 1 .queued]

def writesAndReports : List (Action Nat Nat Nat) :=
  [.write 1 7, .report 1 .completed true, .serve (.result 1 1 .completed (some 3) (some 7) 1)]

theorem write_is_anchored :
    ∃ state, runWrites disk (State.initial 3 3) (asks ++ writesAndReports) = some state ∧
      state.sha256Hash = disk.hash state.content := by
  have admitted : AllAdmitted disk (State.initial 3 3) (asks ++ writesAndReports) := by decide
  refine ⟨_, rfl, ?_⟩
  exact (writes_keep_their_anchor disk 3 3 (asks ++ writesAndReports) _ admitted rfl).2.2.2.1 rfl

-- The retry of a job whose thread still runs finds its path refused, and reports without the OS lock.
def retryFails : List (Action Nat Nat Nat) :=
  [.begin 2 1, .refusePath 2, .serve (.result 2 1 .failed none none 0)]

/-- The file is written for a row that has left QUEUED. -/
theorem failed_row_is_written :
    ∃ state next, runWrites disk (State.initial 3 3) (asks ++ retryFails) = some state ∧
      step state disk (.write 1 7) = some next ∧ next.content ≠ state.content ∧
      state.rows.map LogEntry.status = [.failed] :=
  ⟨_, _, rfl, rfl, by decide, rfl⟩

end Single

end Phaze.Tagging
