import Phaze.Tagging.Protocol

set_option autoImplicit false

/-!
# The anchor of an undo

A row is QUEUED from its insert to its first result, and the file is written for that row only: the snapshot
that the control plane keeps is the file as it was before. What can break this is a result that is applied
while an attempt of the same row has been told that the row is QUEUED and is not done writing.
-/

namespace Phaze.Tagging

/-! ## Rows -/

section Rows

variable {Tags : Type} {rows : List (LogEntry Tags)}

theorem mem_of_lookup {row : RowId} {entry : LogEntry Tags} (found : lookup rows row = some entry) :
    entry ∈ rows ∧ entry.id = row := by
  refine ⟨List.mem_of_find?_eq_some found, ?_⟩
  simpa using List.find?_some found

theorem lookup_of_mem (distinct : (rows.map LogEntry.id).Nodup) {entry : LogEntry Tags} (member : entry ∈ rows) :
    lookup rows entry.id = some entry := by
  induction rows with
  | nil => cases member
  | cons head rest ih =>
    rw [List.map_cons, List.nodup_cons] at distinct
    rcases List.mem_cons.mp member with rfl | member
    · simp [lookup]
    · have apart : head.id ≠ entry.id := by
        intro same
        exact distinct.1 (same ▸ List.mem_map_of_mem member)
      simpa [lookup, apart] using ih distinct.2 member

theorem lookup_eq_none {row : RowId} : lookup rows row = none ↔ row ∉ rows.map LogEntry.id := by
  simp [lookup]

theorem lookup_append {entry : LogEntry Tags} (fresh : lookup rows entry.id = none) (row : RowId) :
    lookup (rows ++ [entry]) row = if row = entry.id then some entry else lookup rows row := by
  unfold lookup at *
  rw [List.find?_append]
  by_cases same : row = entry.id
  · subst same
    simp [fresh]
  · simp [same, Ne.symm same]

theorem lookup_update {row : RowId} {change : LogEntry Tags → LogEntry Tags}
    (keeps : ∀ entry, (change entry).id = entry.id) (other : RowId) :
    lookup (update rows row change) other =
      if other = row then (lookup rows row).map change else lookup rows other := by
  induction rows with
  | nil => simp [lookup, update]
  | cons head rest ih =>
    simp only [lookup, update, List.map_cons, List.find?_cons] at ih ⊢
    by_cases here : head.id = row <;> by_cases there : head.id = other <;> grind

theorem ids_update {row : RowId} {change : LogEntry Tags → LogEntry Tags}
    (keeps : ∀ entry, (change entry).id = entry.id) :
    (update rows row change).map LogEntry.id = rows.map LogEntry.id := by
  rw [update, List.map_map]
  refine List.map_congr_left fun entry _ => ?_
  simp only [Function.comp_apply]
  split
  · exact keeps entry
  · rfl

end Rows

/-! ## The invariant -/

section Invariant

variable {Content Tags Hash : Type}

def Session.holds : Session Tags → Bool
  | .locked .. | .counted .. => true
  | .idle | .opened _ | .checked _ | .ready .. | .dispatching _ => false

def Stage.row : Stage Tags → Option RowId
  | .waiting row | .owned row | .asking row | .writing row _ | .reporting row => some row
  | .idle | .over => none

-- Whether an attempt in this stage can have asked about the row.
def Stage.asked (row : RowId) : Stage Tags → Prop
  | .asking other | .writing other _ | .reporting other => other = row
  | .over => True
  | .idle | .waiting _ | .owned _ => False

variable (state : State Content Tags Hash)

-- The attempt has been told, or will be, that the row is QUEUED, and it has not reported yet.
def Armed (attempt : AttemptId) (row : RowId) : Prop :=
  (state.attempts attempt = .asking row ∧ (attempt, .queued) ∈ state.answers) ∨
    ∃ beforeTags, state.attempts attempt = .writing row beforeTags

instance [DecidableEq Tags] (attempt : AttemptId) (row : RowId) : Decidable (Armed state attempt row) :=
  have : Decidable (∃ beforeTags, state.attempts attempt = .writing row beforeTags) :=
    match stands : state.attempts attempt with
    | .writing other before => decidable_of_iff (other = row) (by simp)
    | .idle | .waiting _ | .owned _ | .asking _ | .reporting _ | .over => isFalse (by simp)
  inferInstanceAs (Decidable (_ ∨ _))

def Stage.owns : Stage Tags → Bool
  | .owned _ | .asking _ | .writing .. | .reporting _ => true
  | .idle | .waiting _ | .over => false

-- The OS lock: its owner alone is past it, and a result that is being reported is of the last write.
structure Exclusive : Prop where
  owned : ∀ attempt, (state.attempts attempt).owns = true → state.owner = some attempt
  settled : ∀ attempt row status beforeTags hash seen, .result attempt row status beforeTags hash seen ∈ state.sent →
    (∃ row, state.attempts attempt = .reporting row) ∨ state.attempts attempt = .over
  current : ∀ attempt row other status beforeTags hash seen, state.attempts attempt = .reporting row →
    .result attempt other status beforeTags hash seen ∈ state.sent → seen = state.writes.length

def QueuedRow (row : RowId) (entry : LogEntry Tags) : Prop :=
  lookup state.rows row = some entry ∧ entry.status = .queued

-- What the requests keep.
structure Dispatches : Prop where
  distinct : (state.rows.map LogEntry.id).Nodup
  oneQueued : ∀ first second entry other, QueuedRow state first entry → QueuedRow state second other → first = second
  holder : ∀ session, (state.sessions session).holds = true → state.advisory = some session
  counted : ∀ session startedAt request, state.sessions session = .counted startedAt request →
    ∀ row entry, ¬ QueuedRow state row entry
  dispatching : ∀ session row, state.sessions session = .dispatching row →
    row ∉ state.enqueued ∧ ∃ entry, QueuedRow state row entry
  oneDispatch : ∀ session other row, state.sessions session = .dispatching row →
    state.sessions other = .dispatching row → session = other
  inserted : ∀ row ∈ state.enqueued, lookup state.rows row ≠ none

variable (disk : Disk Content Tags Hash)

-- What the attempts and their callbacks keep.
structure Anchors : Prop where
  begun : ∀ attempt row, (state.attempts attempt).row = some row → row ∈ state.enqueued
  posted : ∀ attempt row status beforeTags hash seen,
    .result attempt row status beforeTags hash seen ∈ state.sent → row ∈ state.enqueued
  asked : ∀ attempt row tags, .snapshot attempt row tags ∈ state.sent →
    row ∈ state.enqueued ∧ (state.attempts attempt).asked row
  answered : ∀ attempt status, (attempt, status) ∈ state.answers →
    ∃ row tags, .snapshot attempt row tags ∈ state.sent
  armed : ∀ attempt row, Armed state attempt row →
    ∃ entry, QueuedRow state row entry ∧ entry.beforeTags ≠ none
  -- A row whose job was never enqueued has met no attempt.
  blank : ∀ row entry, lookup state.rows row = some entry → row ∉ state.enqueued → entry.beforeTags = none
  written : ∀ row, state.original row ≠ none → row ∈ state.enqueued
  unwritten : ∀ row entry, lookup state.rows row = some entry → entry.beforeTags = none → state.original row = none
  fresh : ∀ attempt row tags entry, .snapshot attempt row tags ∈ state.sent → QueuedRow state row entry →
    entry.beforeTags = none → disk.extract state.content = some tags
  reported : ∀ attempt row status beforeTags hash seen, .result attempt row status (some beforeTags) hash seen ∈ state.sent →
    ∃ entry, lookup state.rows row = some entry ∧ entry.beforeTags ≠ none
  anchored : ∀ row entry tags content, lookup state.rows row = some entry → entry.beforeTags = some tags →
    state.original row = some content → disk.extract content = some tags
  standing : ∀ row entry tags, QueuedRow state row entry → entry.beforeTags = some tags → state.original row = none →
    disk.extract state.content = some tags
  hashed : ∀ attempt row status beforeTags hash seen,
    .result attempt row status beforeTags (some hash) seen ∈ state.sent →
      seen ≤ state.writes.length ∧ (seen = state.writes.length → hash = disk.hash state.content)
  refreshed : state.refreshed = true → state.sha256Hash = disk.hash state.content

variable {state disk} {next : State Content Tags Hash}

/-! ## The requests -/

-- A stage that is not the one a session was just set to is an old one, of another session.
theorem session_of_ne {session other : SessionId} {stage value : Session Tags}
    (stands : Function.update state.sessions session stage other = value) (apart : stage ≠ value) :
    other ≠ session ∧ state.sessions other = value := by
  have different : other ≠ session := by
    rintro rfl
    exact apart (by simpa using stands)
  exact ⟨different, by simpa [different] using stands⟩

-- A session that goes to a stage in which it holds nothing.
theorem Dispatches.calm (dispatches : Dispatches state) {session : SessionId} {stage : Session Tags}
    (holds : stage.holds = false) (dispatching : ∀ row, stage ≠ .dispatching row) {advisory : Option SessionId}
    (others : ∀ other, other ≠ session → state.advisory = some other → advisory = some other) :
    Dispatches { setSession state session stage with advisory := advisory } := by
  refine { dispatches with holder := ?_, counted := ?_, dispatching := ?_, oneDispatch := ?_ }
  · intro other held
    by_cases same : other = session
    · subst same
      simp [setSession, holds] at held
    · simp only [setSession, Function.update_of_ne same] at held
      exact others other same (dispatches.holder other held)
  · intro other startedAt request stands
    have apart : stage ≠ .counted startedAt request := by
      rintro rfl
      cases holds
    exact dispatches.counted other startedAt request (session_of_ne stands apart).2
  · intro other row stands
    exact dispatches.dispatching other row (session_of_ne stands (dispatching row)).2
  · intro first second row atFirst atSecond
    exact dispatches.oneDispatch first second row (session_of_ne atFirst (dispatching row)).2
      (session_of_ne atSecond (dispatching row)).2

theorem Dispatches.rest (dispatches : Dispatches state) {session : SessionId} {stage : Session Tags}
    (holds : stage.holds = false) (dispatching : ∀ row, stage ≠ .dispatching row) :
    Dispatches (setSession state session stage) :=
  dispatches.calm holds dispatching fun _ _ same => same

theorem Dispatches.ended (dispatches : Dispatches state) (session : SessionId) :
    Dispatches (release state session) := by
  refine dispatches.calm rfl (by simp) fun other apart held => ?_
  rw [held, if_neg fun same => apart (Option.some.inj same)]

-- A change of a row whose job was enqueued that makes nothing QUEUED.
theorem Dispatches.change (dispatches : Dispatches state) {row : RowId} (change : LogEntry Tags → LogEntry Tags)
    (keeps : ∀ entry, (change entry).id = entry.id)
    (queued : ∀ entry, (change entry).status = .queued → entry.status = .queued) (started : row ∈ state.enqueued) :
    Dispatches { state with rows := update state.rows row change } := by
  have before : ∀ other entry, QueuedRow { state with rows := update state.rows row change } other entry →
      ∃ old, QueuedRow state other old := by
    rintro other entry ⟨found, status⟩
    rw [lookup_update keeps] at found
    split at found
    next same =>
      subst same
      obtain ⟨old, was, rfl⟩ := Option.map_eq_some_iff.mp found
      exact ⟨old, was, queued old status⟩
    next apart => exact ⟨entry, found, status⟩
  refine { dispatches with distinct := ?_, oneQueued := ?_, counted := ?_, dispatching := ?_, inserted := ?_ }
  · rw [ids_update keeps]
    exact dispatches.distinct
  · intro first second entry other atFirst atSecond
    obtain ⟨_, atFirst⟩ := before first entry atFirst
    obtain ⟨_, atSecond⟩ := before second other atSecond
    exact dispatches.oneQueued first second _ _ atFirst atSecond
  · intro session startedAt request stands other entry queued
    obtain ⟨old, queued⟩ := before other entry queued
    exact dispatches.counted session startedAt request stands other old queued
  · intro session other stands
    obtain ⟨unstarted, entry, found, status⟩ := dispatches.dispatching session other stands
    refine ⟨unstarted, entry, ?_, status⟩
    have apart : other ≠ row := by
      rintro rfl
      exact unstarted started
    rw [lookup_update keeps, if_neg apart]
    exact found
  · intro other member
    rw [ne_eq, lookup_eq_none, ids_update keeps, ← lookup_eq_none]
    exact dispatches.inserted other member

-- A row that is added, and a session that comes to stand at its dispatch if it is QUEUED.
theorem Dispatches.append (dispatches : Dispatches state) (entry : LogEntry Tags)
    (unknown : lookup state.rows entry.id = none)
    (alone : entry.status = .queued → ∀ row other, ¬ QueuedRow state row other)
    (uncounted : entry.status = .queued → ∀ session startedAt request,
      state.sessions session ≠ .counted startedAt request) :
    Dispatches { state with rows := state.rows ++ [entry] } := by
  have before : ∀ row other, QueuedRow { state with rows := state.rows ++ [entry] } row other →
      (row = entry.id ∧ entry.status = .queued) ∨ QueuedRow state row other := by
    rintro row other ⟨found, status⟩
    rw [lookup_append unknown] at found
    split at found
    · cases found
      exact .inl ⟨‹_›, status⟩
    · exact .inr ⟨found, status⟩
  refine { dispatches with distinct := ?_, oneQueued := ?_, counted := ?_, dispatching := ?_, inserted := ?_ }
  · rw [List.map_append, List.nodup_append]
    refine ⟨dispatches.distinct, List.nodup_singleton _, ?_⟩
    rintro row member other new rfl
    rw [List.map_singleton, List.mem_singleton] at new
    exact lookup_eq_none.mp unknown (new ▸ member)
  · intro first second one other atFirst atSecond
    rcases before first one atFirst with ⟨rfl, queued⟩ | atFirst <;>
      rcases before second other atSecond with ⟨rfl, queued'⟩ | atSecond
    · rfl
    · exact absurd atSecond (alone queued second other)
    · exact absurd atFirst (alone queued' first one)
    · exact dispatches.oneQueued first second one other atFirst atSecond
  · intro session startedAt request stands row other queued
    rcases before row other queued with ⟨rfl, new⟩ | queued
    · exact uncounted new session startedAt request stands
    · exact dispatches.counted session startedAt request stands row other queued
  · intro session row stands
    obtain ⟨unstarted, other, found, status⟩ := dispatches.dispatching session row stands
    refine ⟨unstarted, other, ?_, status⟩
    rw [lookup_append unknown, if_neg (by rintro rfl; rw [unknown] at found; cases found)]
    exact found
  · intro row member
    rw [ne_eq, lookup_append unknown]
    split
    · simp
    · exact dispatches.inserted row member

theorem Dispatches.lock (dispatches : Dispatches state) {session : SessionId} {startedAt : Int}
    {request : Request Tags} (free : state.advisory = none) :
    Dispatches { setSession state session (.locked startedAt request) with advisory := some session } := by
  refine { dispatches with holder := ?_, counted := ?_, dispatching := ?_, oneDispatch := ?_ }
  · intro other held
    by_cases same : other = session
    · rw [same]
    · simp only [setSession, Function.update_of_ne same] at held
      have := dispatches.holder other held
      rw [free] at this
      cases this
  · intro other _ _ stands
    exact dispatches.counted other _ _ (session_of_ne stands (by simp)).2
  · intro other row stands
    exact dispatches.dispatching other row (session_of_ne stands (by simp)).2
  · intro first second row atFirst atSecond
    exact dispatches.oneDispatch first second row (session_of_ne atFirst (by simp)).2
      (session_of_ne atSecond (by simp)).2

theorem Dispatches.count (dispatches : Dispatches state) {session : SessionId} {startedAt : Int}
    {request : Request Tags} (held : (state.sessions session).holds = true)
    (none_queued : ∀ row entry, ¬ QueuedRow state row entry) :
    Dispatches (setSession state session (.counted startedAt request)) := by
  refine { dispatches with holder := ?_, counted := ?_, dispatching := ?_, oneDispatch := ?_ }
  · intro other held'
    by_cases same : other = session
    · rw [same]
      exact dispatches.holder session held
    · simp only [setSession, Function.update_of_ne same] at held'
      exact dispatches.holder other held'
  · exact fun _ _ _ _ => none_queued
  · intro other row stands
    exact dispatches.dispatching other row (session_of_ne stands (by simp)).2
  · intro first second row atFirst atSecond
    exact dispatches.oneDispatch first second row (session_of_ne atFirst (by simp)).2
      (session_of_ne atSecond (by simp)).2

theorem Dispatches.dispatch (dispatches : Dispatches state) {session : SessionId} {row : RowId}
    (unstarted : row ∉ state.enqueued) {entry : LogEntry Tags} (queued : QueuedRow state row entry)
    (alone : ∀ other, state.sessions other ≠ .dispatching row) :
    Dispatches (setSession state session (.dispatching row)) := by
  refine { dispatches with holder := ?_, counted := ?_, dispatching := ?_, oneDispatch := ?_ }
  · intro other held
    by_cases same : other = session
    · subst same
      simp [setSession, Session.holds] at held
    · simp only [setSession, Function.update_of_ne same] at held
      exact dispatches.holder other held
  · intro other _ _ stands
    exact dispatches.counted other _ _ (session_of_ne stands (by simp)).2
  · intro other row' stands
    by_cases same : row' = row
    · subst same
      exact ⟨unstarted, entry, queued⟩
    · exact dispatches.dispatching other row' (session_of_ne stands (by simp [Ne.symm same])).2
  · intro first second row' atFirst atSecond
    by_cases same : row' = row
    · subst same
      have mine : ∀ other, Function.update state.sessions session (.dispatching row') other = .dispatching row' →
          other = session := by
        intro other stands
        by_contra apart
        rw [Function.update_of_ne apart] at stands
        exact alone other stands
      rw [mine first atFirst, mine second atSecond]
    · exact dispatches.oneDispatch first second row' (session_of_ne atFirst (by simp [Ne.symm same])).2
        (session_of_ne atSecond (by simp [Ne.symm same])).2

theorem Dispatches.enqueue (dispatches : Dispatches state) {session : SessionId} {row : RowId}
    (stands : state.sessions session = .dispatching row) :
    Dispatches (setSession { state with enqueued := row :: state.enqueued } session .idle) := by
  have calm : Dispatches (setSession state session .idle) := dispatches.rest rfl (by simp)
  refine { calm with dispatching := ?_, inserted := ?_ }
  · intro other row' stands'
    obtain ⟨apart, before⟩ := session_of_ne stands' (by simp)
    obtain ⟨unstarted, queued⟩ := dispatches.dispatching other row' before
    refine ⟨?_, queued⟩
    change row' ∉ row :: state.enqueued
    rw [List.mem_cons, not_or]
    refine ⟨?_, unstarted⟩
    rintro rfl
    exact apart (dispatches.oneDispatch other session row' before stands)
  · intro row' member
    rcases List.mem_cons.mp member with rfl | member
    · obtain ⟨-, entry, found, -⟩ := dispatches.dispatching session row' stands
      change lookup state.rows row' ≠ none
      rw [found]
      exact Option.some_ne_none _
    · exact dispatches.inserted row' member

theorem Dispatches.refuse (dispatches : Dispatches state) {session : SessionId} {row : RowId}
    (stands : state.sessions session = .dispatching row) :
    Dispatches (setSession { state with
      rows := update state.rows row fun entry => { entry with status := .failed } } session .idle) := by
  have keeps : ∀ entry : LogEntry Tags, ({ entry with status := .failed } : LogEntry Tags).id = entry.id := fun _ => rfl
  have before : ∀ other entry, QueuedRow { state with
      rows := update state.rows row fun entry => { entry with status := .failed } } other entry →
      other ≠ row ∧ QueuedRow state other entry := by
    rintro other entry ⟨found, status⟩
    rw [lookup_update keeps] at found
    split at found
    · obtain ⟨old, -, rfl⟩ := Option.map_eq_some_iff.mp found
      cases status
    next apart => exact ⟨apart, found, status⟩
  have calm : Dispatches (setSession state session .idle) := dispatches.rest rfl (by simp)
  refine { calm with distinct := ?_, oneQueued := ?_, counted := ?_, dispatching := ?_, inserted := ?_ }
  · change ((update state.rows row _).map LogEntry.id).Nodup
    rw [ids_update keeps]
    exact dispatches.distinct
  · intro first second entry other atFirst atSecond
    exact dispatches.oneQueued first second _ _ (before first entry atFirst).2 (before second other atSecond).2
  · intro other startedAt request stands' row' entry queued
    exact calm.counted other startedAt request stands' row' entry (before row' entry queued).2
  · intro other row' stands'
    obtain ⟨apart, old⟩ := session_of_ne stands' (by simp)
    obtain ⟨unstarted, entry, found, status⟩ := dispatches.dispatching other row' old
    refine ⟨unstarted, entry, ?_, status⟩
    change lookup (update state.rows row _) row' = some entry
    rw [lookup_update keeps, if_neg]
    · exact found
    · rintro rfl
      exact apart (dispatches.oneDispatch other session row' old stands)
  · intro row' member
    change lookup (update state.rows row _) row' ≠ none
    rw [ne_eq, lookup_eq_none, ids_update keeps, ← lookup_eq_none]
    exact dispatches.inserted row' member

/-! ## The attempts -/

-- What only the rows without a job see.
theorem Anchors.unstarted (anchors : Anchors state disk) {rows : List (LogEntry Tags)}
    (same : ∀ row ∈ state.enqueued, lookup rows row = lookup state.rows row)
    (blank : ∀ row entry, lookup rows row = some entry → row ∉ state.enqueued → entry.beforeTags = none) :
    Anchors { state with rows := rows } disk := by
  refine { anchors with armed := ?_, blank := blank, unwritten := ?_, fresh := ?_, reported := ?_, anchored := ?_, standing := ?_ }
  · intro attempt row armed
    obtain ⟨entry, ⟨found, status⟩, before⟩ := anchors.armed attempt row armed
    refine ⟨entry, ⟨?_, status⟩, before⟩
    have started : row ∈ state.enqueued := by
      refine anchors.begun attempt row ?_
      rcases armed with ⟨stands, -⟩ | ⟨_, stands⟩ <;> rw [stands] <;> rfl
    change lookup rows row = some entry
    rw [same row started, found]
  · intro row entry found before
    by_cases started : row ∈ state.enqueued
    · exact anchors.unwritten row entry (same row started ▸ found) before
    · by_contra written
      exact started (anchors.written row written)
  · rintro attempt row tags entry asked ⟨found, status⟩ before
    have started := (anchors.asked attempt row tags asked).1
    exact anchors.fresh attempt row tags entry asked ⟨same row started ▸ found, status⟩ before
  · intro attempt row status beforeTags hash seen posted
    obtain ⟨entry, found, before⟩ := anchors.reported attempt row status beforeTags hash seen posted
    exact ⟨entry, (same row (anchors.posted _ _ _ _ _ _ posted)).trans found, before⟩
  · intro row entry tags content found before written
    have started := anchors.written row (written ▸ Option.some_ne_none _)
    exact anchors.anchored row entry tags content (same row started ▸ found) before written
  · rintro row entry tags ⟨found, status⟩ before unwritten
    by_cases started : row ∈ state.enqueued
    · exact anchors.standing row entry tags ⟨same row started ▸ found, status⟩ before unwritten
    · rw [blank row entry found started] at before
      cases before

theorem Anchors.enqueue (anchors : Anchors state disk) (row : RowId) :
    Anchors { state with enqueued := row :: state.enqueued } disk where
  begun attempt other stands := List.mem_cons_of_mem _ (anchors.begun attempt other stands)
  posted attempt other status before hash seen posted :=
    List.mem_cons_of_mem _ (anchors.posted attempt other status before hash seen posted)
  asked attempt other tags sent :=
    ⟨List.mem_cons_of_mem _ (anchors.asked attempt other tags sent).1, (anchors.asked attempt other tags sent).2⟩
  answered := anchors.answered
  armed := anchors.armed
  blank other entry found unstarted :=
    anchors.blank other entry found fun member => unstarted (List.mem_cons_of_mem _ member)
  written other written := List.mem_cons_of_mem _ (anchors.written other written)
  unwritten := anchors.unwritten
  fresh := anchors.fresh
  reported := anchors.reported
  anchored := anchors.anchored
  standing := anchors.standing
  hashed := anchors.hashed
  refreshed := anchors.refreshed

theorem Anchors.attempt (anchors : Anchors state disk) {attempt : AttemptId} (stage : Stage Tags)
    (begun : ∀ row, stage.row = some row → row ∈ state.enqueued)
    (asked : ∀ row tags, .snapshot attempt row tags ∈ state.sent → stage.asked row)
    (armed : ∀ row, Armed (setAttempt state attempt stage) attempt row →
      ∃ entry, QueuedRow state row entry ∧ entry.beforeTags ≠ none) {owner : Option AttemptId} :
    Anchors { setAttempt state attempt stage with owner := owner } disk := by
  refine { anchors with begun := ?_, asked := ?_, armed := ?_ }
  · intro other row stands
    by_cases same : other = attempt
    · subst same
      simp only [setAttempt, Function.update_self] at stands
      exact begun row stands
    · simp only [setAttempt, Function.update_of_ne same] at stands
      exact anchors.begun other row stands
  · intro other row tags sent
    refine ⟨(anchors.asked other row tags sent).1, ?_⟩
    by_cases same : other = attempt
    · subst same
      simp only [setAttempt, Function.update_self]
      exact asked row tags sent
    · simp only [setAttempt, Function.update_of_ne same]
      exact (anchors.asked other row tags sent).2
  · intro other row isArmed
    by_cases same : other = attempt
    · subst same
      exact armed row isArmed
    · refine anchors.armed other row ?_
      simpa only [Armed, setAttempt, Function.update_of_ne same] using isArmed

-- A result that is posted; `seen` and the hash are of this moment.
theorem Anchors.post (anchors : Anchors state disk) {attempt : AttemptId} {row : RowId} (started : row ∈ state.enqueued)
    {status : TagWriteStatus} {beforeTags : Option Tags} {observed : Bool}
    (reported : beforeTags ≠ none → ∃ entry, lookup state.rows row = some entry ∧ entry.beforeTags ≠ none) :
    Anchors (send state (.result attempt row status beforeTags (observedHash state disk observed)
      state.writes.length)) disk := by
  refine { anchors with posted := ?_, asked := ?_, answered := ?_, fresh := ?_, reported := ?_, hashed := ?_ }
  · intro other row' status' before' hash' seen' posted
    rcases List.mem_cons.mp posted with same | posted
    · cases same
      exact started
    · exact anchors.posted other row' status' before' hash' seen' posted
  · intro other row' tags sent
    exact anchors.asked other row' tags (by simpa [send] using sent)
  · intro other status' answered
    obtain ⟨row', tags, sent⟩ := anchors.answered other status' answered
    exact ⟨row', tags, List.mem_cons_of_mem _ sent⟩
  · intro other row' tags entry sent
    exact anchors.fresh other row' tags entry (by simpa [send] using sent)
  · intro other row' status' before' hash' seen' posted
    rcases List.mem_cons.mp posted with same | posted
    · cases same
      exact reported (Option.some_ne_none _)
    · exact anchors.reported other row' status' before' hash' seen' posted
  · intro other row' status' before' hash' seen' posted
    rcases List.mem_cons.mp posted with same | posted
    · simp only [Message.result.injEq, observedHash] at same
      obtain ⟨-, -, -, -, hash, rfl⟩ := same
      refine ⟨le_rfl, fun _ => ?_⟩
      cases observed <;> simp at hash
      exact hash
    · exact anchors.hashed other row' status' before' hash' seen' posted

-- A snapshot that is posted.
theorem Anchors.ask (anchors : Anchors state disk) {attempt : AttemptId} {row : RowId} {tags : Tags}
    (stands : state.attempts attempt = .owned row) (extracts : disk.extract state.content = some tags) :
    Anchors (setAttempt (send state (.snapshot attempt row tags)) attempt (.asking row)) disk := by
  have started : row ∈ state.enqueued := anchors.begun attempt row (by rw [stands]; rfl)
  have unasked : ∀ other tags, .snapshot attempt other tags ∉ state.sent := by
    intro other tags sent
    have := (anchors.asked attempt other tags sent).2
    rw [stands] at this
    exact this
  have unarmed : ∀ status, (attempt, status) ∉ state.answers := by
    intro status answered
    obtain ⟨other, tags, sent⟩ := anchors.answered attempt status answered
    exact unasked other tags sent
  refine { anchors with begun := ?_, posted := ?_, asked := ?_, answered := ?_, armed := ?_, fresh := ?_, reported := ?_, hashed := ?_ }
  · intro other row' is
    by_cases same : other = attempt
    · subst same
      simp only [setAttempt, Function.update_self, Stage.row, Option.some.injEq] at is
      exact is ▸ started
    · simp only [setAttempt, Function.update_of_ne same] at is
      exact anchors.begun other row' is
  · intro other row' status before hash seen posted
    exact anchors.posted other row' status before hash seen (by simpa [send, setAttempt] using posted)
  · intro other row' tags' sent
    rcases List.mem_cons.mp sent with same | before
    · cases same
      exact ⟨started, by simp [setAttempt, Stage.asked]⟩
    · have apart : other ≠ attempt := by
        rintro rfl
        exact unasked row' tags' before
      simp only [setAttempt, Function.update_of_ne apart]
      exact anchors.asked other row' tags' before
  · intro other status answered
    obtain ⟨row', tags', sent⟩ := anchors.answered other status answered
    exact ⟨row', tags', List.mem_cons_of_mem _ sent⟩
  · intro other row' armed
    by_cases same : other = attempt
    · subst same
      rcases armed with ⟨-, answered⟩ | ⟨_, writes⟩
      · exact absurd answered (unarmed _)
      · simp [setAttempt] at writes
    · refine anchors.armed other row' ?_
      simpa only [Armed, setAttempt, send, Function.update_of_ne same] using armed
  · intro other row' tags' entry sent queued before
    rcases List.mem_cons.mp sent with same | sent
    · cases same
      exact extracts
    · exact anchors.fresh other row' tags' entry sent queued before
  · intro other row' status before hash seen posted
    exact anchors.reported other row' status before hash seen (by simpa [send, setAttempt] using posted)
  · intro other row' status before hash seen posted
    exact anchors.hashed other row' status before hash seen (by simpa [send, setAttempt] using posted)

theorem Exclusive.attempt (exclusive : Exclusive state) {attempt : AttemptId} (stage : Stage Tags)
    {owner : Option AttemptId} (owns : stage.owns = true → owner = some attempt)
    (others : ∀ other, other ≠ attempt → state.owner = some other → owner = some other)
    (settled : ∀ row status beforeTags hash seen, .result attempt row status beforeTags hash seen ∈ state.sent →
      (∃ row, stage = .reporting row) ∨ stage = .over)
    (current : ∀ row other status beforeTags hash seen, stage = .reporting row →
      .result attempt other status beforeTags hash seen ∈ state.sent → seen = state.writes.length) :
    Exclusive { setAttempt state attempt stage with owner := owner } where
  owned other held := by
    by_cases same : other = attempt
    · subst same
      simp only [setAttempt, Function.update_self] at held
      exact owns held
    · simp only [setAttempt, Function.update_of_ne same] at held
      exact others other same (exclusive.owned other held)
  settled other row status beforeTags hash seen posted := by
    by_cases same : other = attempt
    · subst same
      simp only [setAttempt, Function.update_self]
      exact settled row status beforeTags hash seen posted
    · simp only [setAttempt, Function.update_of_ne same]
      exact exclusive.settled other row status beforeTags hash seen posted
  current other row row' status beforeTags hash seen stands posted := by
    by_cases same : other = attempt
    · subst same
      simp only [setAttempt, Function.update_self] at stands
      exact current row row' status beforeTags hash seen stands posted
    · simp only [setAttempt, Function.update_of_ne same] at stands
      exact exclusive.current other row row' status beforeTags hash seen stands posted

theorem Exclusive.post (exclusive : Exclusive state) {attempt : AttemptId} {row : RowId} {stage : Stage Tags}
    {status : TagWriteStatus} {beforeTags : Option Tags} {hash : Option Hash} {owner : Option AttemptId}
    (unsettled : ∀ row, state.attempts attempt ≠ .reporting row) (running : state.attempts attempt ≠ .over)
    (stops : (∃ row, stage = .reporting row) ∨ stage = .over) (owns : stage.owns = true → owner = some attempt)
    (others : ∀ other, other ≠ attempt → state.owner = some other → owner = some other) :
    Exclusive { setAttempt (send state (.result attempt row status beforeTags hash state.writes.length)) attempt stage with
      owner := owner } := by
  have silent : ∀ row status beforeTags hash seen,
      .result attempt row status beforeTags hash seen ∉ state.sent := by
    intro row status beforeTags hash seen posted
    rcases exclusive.settled attempt row status beforeTags hash seen posted with ⟨other, stands⟩ | stands
    · exact unsettled other stands
    · exact running stands
  have base : Exclusive { setAttempt state attempt stage with owner := owner } :=
    exclusive.attempt stage owns others (fun _ _ _ _ _ _ => stops) fun _ row status beforeTags hash seen _ posted =>
      absurd posted (silent row status beforeTags hash seen)
  refine { base with settled := ?_, current := ?_ }
  · intro other row' status' before' hash' seen' posted
    rcases List.mem_cons.mp posted with same | earlier
    · cases same
      simpa [setAttempt] using stops
    · exact base.settled other row' status' before' hash' seen' earlier
  · intro other row' row'' status' before' hash' seen' stands posted
    rcases List.mem_cons.mp posted with same | earlier
    · cases same
      rfl
    · exact base.current other row' row'' status' before' hash' seen' stands earlier

section Serving

variable [DecidableEq Tags]

theorem Anchors.wrote (anchors : Anchors state disk) (dispatches : Dispatches state) {attempt : AttemptId}
    {content : Content} (stepped : write state disk attempt content = some next) :
    (∃ row entry beforeTags, state.attempts attempt = .writing row beforeTags ∧ QueuedRow state row entry) ∧
      Anchors next disk := by
  unfold write at stepped
  split at stepped
  case h_2 => cases stepped
  next row beforeTags stands =>
    cases stepped
    obtain ⟨entry, queued, before⟩ := anchors.armed attempt row (.inr ⟨_, stands⟩)
    refine ⟨⟨row, entry, beforeTags, stands, queued⟩, ?_⟩
    set original := if state.original row = none then Function.update state.original row (some state.content)
      else state.original with originalDefined
    have others : ∀ other, other ≠ row → original other = state.original other := by
      intro other apart
      rw [originalDefined]
      split
      · exact Function.update_of_ne apart _ _
      · rfl
    have mine : original row ≠ none := by
      rw [originalDefined]
      split
      · simp
      · assumption
    refine { anchors with written := ?_, unwritten := ?_, fresh := ?_, anchored := ?_, standing := ?_, hashed := ?_, refreshed := ?_ }
    · intro other written
      by_cases same : other = row
      · rw [same]
        exact anchors.begun attempt row (by rw [stands]; rfl)
      · exact anchors.written other (others other same ▸ written)
    · intro other entry' found blank
      have apart : other ≠ row := by
        rintro rfl
        rw [queued.1] at found
        cases found
        exact before blank
      exact (others other apart).trans (anchors.unwritten other entry' found blank)
    · intro asker other tags entry' sent queued' blank
      obtain rfl := dispatches.oneQueued other row entry' entry queued' queued
      obtain rfl : entry' = entry := Option.some.inj (queued'.1.symm.trans queued.1)
      exact absurd blank before
    · intro other entry' tags first found kept written
      by_cases same : other = row
      · subst same
        by_cases unwritten : state.original other = none
        · have is_first : state.content = first := by simpa [originalDefined, unwritten] using written
          rw [queued.1] at found
          cases found
          exact is_first ▸ anchors.standing other entry tags queued kept unwritten
        · refine anchors.anchored other entry' tags first found kept ?_
          simpa [originalDefined, unwritten] using written
      · exact anchors.anchored other entry' tags first found kept ((others other same) ▸ written)
    · intro other entry' tags queued' kept unwritten
      obtain rfl := dispatches.oneQueued other row entry' entry queued' queued
      exact absurd unwritten mine
    · intro other row' status before' hash seen posted
      have := (anchors.hashed other row' status before' hash seen posted).1
      rw [List.length_append, List.length_singleton]
      exact ⟨by omega, fun same => by omega⟩
    · intro refreshed
      cases refreshed

-- Whether the owner of the OS lock has no acknowledgement for the row that it still writes under.
def unarmed (state : State Content Tags Hash) (row : RowId) : Bool :=
  state.owner.all fun attempt => !decide (Armed state attempt row)

theorem not_armed_of_unarmed (exclusive : Exclusive state) {row : RowId} (calm : unarmed state row = true)
    (attempt : AttemptId) : ¬ Armed state attempt row := by
  intro armed
  have owner : state.owner = some attempt := by
    refine exclusive.owned attempt ?_
    rcases armed with ⟨stands, -⟩ | ⟨_, stands⟩ <;> rw [stands] <;> rfl
  simp [unarmed, owner, armed] at calm

end Serving

theorem recordBeforeSnapshot_cases {attempt : AttemptId} {row : RowId} {tags : Tags}
    (stepped : recordBeforeSnapshot state attempt row tags = some next) :
    ∃ entry, lookup state.rows row = some entry ∧
      ((entry.status ≠ .queued ∨ entry.beforeTags ≠ none) ∧
          next = { state with answers := (attempt, entry.status) :: state.answers } ∨
        entry.status = .queued ∧ entry.beforeTags = none ∧
          next = { state with
            rows := update state.rows row fun entry => { entry with beforeTags := some tags }
            answers := (attempt, .queued) :: state.answers }) := by
  unfold recordBeforeSnapshot at stepped
  split at stepped
  · cases stepped
  next entry found =>
    refine ⟨entry, found, ?_⟩
    split at stepped
    next kept => exact .inl ⟨kept, (Option.some.inj stepped).symm⟩
    next takes =>
      simp only [not_or, Decidable.not_not] at takes
      exact .inr ⟨takes.1, takes.2, (Option.some.inj stepped).symm⟩

theorem patchTagWrite_cases {row : RowId} {status : TagWriteStatus} {beforeTags : Option Tags} {hash : Option Hash}
    (stepped : patchTagWrite state row status beforeTags hash = some next) :
    next = state ∨ ∃ entry, QueuedRow state row entry ∧ status ≠ .queued ∧
      next = { state with
        rows := update state.rows row fun entry =>
          { entry with status := status, beforeTags := entry.beforeTags.or beforeTags }
        sha256Hash := hash.getD state.sha256Hash
        refreshed := hash.isSome || state.refreshed } := by
  unfold patchTagWrite at stepped
  split at stepped
  · exact .inl (Option.some.inj stepped).symm
  next leaves =>
    split at stepped
    · cases stepped
    next entry found =>
      split at stepped
      · exact .inl (Option.some.inj stepped).symm
      next queued => exact .inr ⟨entry, ⟨found, not_not.mp queued⟩, leaves, (Option.some.inj stepped).symm⟩

theorem Anchors.recorded (anchors : Anchors state disk) {attempt : AttemptId} {row : RowId}
    {tags : Tags} (sent : .snapshot attempt row tags ∈ state.sent)
    (stepped : recordBeforeSnapshot state attempt row tags = some next) : Anchors next disk := by
  obtain ⟨started, asked⟩ := anchors.asked attempt row tags sent
  obtain ⟨entry, found, ⟨kept, rfl⟩ | ⟨queued, blank, rfl⟩⟩ := recordBeforeSnapshot_cases stepped
  · refine { anchors with answered := ?_, armed := ?_ }
    · intro other status answered
      rcases List.mem_cons.mp answered with same | answered
      · cases same
        exact ⟨row, tags, sent⟩
      · exact anchors.answered other status answered
    · rintro other row' (⟨stands, answered⟩ | writes)
      · rcases List.mem_cons.mp answered with same | answered
        · simp only [Prod.mk.injEq] at same
          obtain ⟨rfl, status⟩ := same
          change state.attempts other = .asking row' at stands
          rw [stands] at asked
          obtain rfl : row' = row := asked
          exact ⟨entry, ⟨found, status.symm⟩, kept.resolve_left (not_not.mpr status.symm)⟩
        · exact anchors.armed other row' (.inl ⟨stands, answered⟩)
      · exact anchors.armed other row' (.inr writes)
  · have keeps : ∀ entry : LogEntry Tags, ({ entry with beforeTags := some tags } : LogEntry Tags).id = entry.id :=
      fun _ => rfl
    have mine : lookup (update state.rows row fun entry => { entry with beforeTags := some tags }) row =
        some { entry with beforeTags := some tags } := by
      rw [lookup_update keeps, if_pos rfl, found]
      rfl
    have others : ∀ other, other ≠ row →
        lookup (update state.rows row fun entry => { entry with beforeTags := some tags }) other =
          lookup state.rows other := by
      intro other apart
      rw [lookup_update keeps, if_neg apart]
    refine { anchors with answered := ?_, armed := ?_, blank := ?_, unwritten := ?_, fresh := ?_, reported := ?_, anchored := ?_, standing := ?_ }
    · intro other status answered
      rcases List.mem_cons.mp answered with same | answered
      · cases same
        exact ⟨row, tags, sent⟩
      · exact anchors.answered other status answered
    · intro other row' armed
      by_cases same : row' = row
      · subst same
        exact ⟨_, ⟨mine, queued⟩, Option.some_ne_none _⟩
      · have old : Armed state other row' := by
          rcases armed with ⟨stands, answered⟩ | writes
          · rcases List.mem_cons.mp answered with is | answered
            · simp only [Prod.mk.injEq] at is
              obtain ⟨rfl, -⟩ := is
              change state.attempts other = .asking row' at stands
              rw [stands] at asked
              exact absurd asked same
            · exact .inl ⟨stands, answered⟩
          · exact .inr writes
        obtain ⟨entry', ⟨found', status⟩, before⟩ := anchors.armed other row' old
        exact ⟨entry', ⟨(others row' same).trans found', status⟩, before⟩
    · intro row' entry' found' unstarted
      have same : row' ≠ row := by
        rintro rfl
        exact unstarted started
      exact anchors.blank row' entry' ((others row' same).symm.trans found') unstarted
    · intro row' entry' found' before
      by_cases same : row' = row
      · subst same
        cases mine.symm.trans found'
        cases before
      · exact anchors.unwritten row' entry' ((others row' same).symm.trans found') before
    · rintro other row' tags' entry' sent' ⟨found', status⟩ before
      by_cases same : row' = row
      · subst same
        cases mine.symm.trans found'
        cases before
      · exact anchors.fresh other row' tags' entry' sent' ⟨(others row' same).symm.trans found', status⟩ before
    · intro other row' status before hash seen posted
      by_cases same : row' = row
      · subst same
        exact ⟨_, mine, Option.some_ne_none _⟩
      · obtain ⟨entry', found', before'⟩ := anchors.reported other row' status before hash seen posted
        exact ⟨entry', (others row' same).trans found', before'⟩
    · intro row' entry' tags' content found' before written
      by_cases same : row' = row
      · subst same
        have written : state.original row' = some content := written
        rw [anchors.unwritten row' entry found blank] at written
        cases written
      · exact anchors.anchored row' entry' tags' content ((others row' same).symm.trans found') before written
    · rintro row' entry' tags' ⟨found', status⟩ before unwritten
      by_cases same : row' = row
      · subst same
        cases mine.symm.trans found'
        cases before
        exact anchors.fresh attempt row' tags entry sent ⟨found, queued⟩ blank
      · exact anchors.standing row' entry' tags' ⟨(others row' same).symm.trans found', status⟩ before unwritten

theorem Anchors.patched (anchors : Anchors state disk) {attempt : AttemptId} {row : RowId} {status : TagWriteStatus}
    {beforeTags : Option Tags} {hash : Option Hash} {seen : Nat}
    (posted : .result attempt row status beforeTags hash seen ∈ state.sent)
    (calm : ∀ entry, QueuedRow state row entry →
      (∀ attempt, ¬ Armed state attempt row) ∧ (hash.isSome = true → seen = state.writes.length))
    (stepped : patchTagWrite state row status beforeTags hash = some next) : Anchors next disk := by
  obtain rfl | ⟨entry, queued, leaves, rfl⟩ := patchTagWrite_cases stepped
  · exact anchors
  obtain ⟨unarmed, recent⟩ := calm entry queued
  have started := anchors.posted attempt row status beforeTags hash seen posted
  set change : LogEntry Tags → LogEntry Tags := fun entry =>
    { entry with status := status, beforeTags := entry.beforeTags.or beforeTags } with changeDefined
  have keeps : ∀ entry, (change entry).id = entry.id := fun _ => rfl
  have mine : lookup (update state.rows row change) row = some (change entry) := by
    rw [lookup_update keeps, if_pos rfl, queued.1]
    rfl
  have others : ∀ other, other ≠ row → lookup (update state.rows row change) other = lookup state.rows other := by
    intro other apart
    rw [lookup_update keeps, if_neg apart]
  refine { anchors with armed := ?_, blank := ?_, unwritten := ?_, fresh := ?_, reported := ?_, anchored := ?_, standing := ?_, refreshed := ?_ }
  · intro other row' armed
    have same : row' ≠ row := by
      rintro rfl
      exact unarmed other armed
    obtain ⟨entry', ⟨found', status'⟩, before⟩ := anchors.armed other row' armed
    exact ⟨entry', ⟨(others row' same).trans found', status'⟩, before⟩
  · intro row' entry' found' unstarted
    have same : row' ≠ row := by
      rintro rfl
      exact unstarted started
    exact anchors.blank row' entry' ((others row' same).symm.trans found') unstarted
  · intro row' entry' found' before
    by_cases same : row' = row
    · subst same
      obtain rfl : change entry = entry' := Option.some.inj (mine.symm.trans found')
      exact anchors.unwritten row' entry queued.1 (Option.or_eq_none_iff.mp before).1
    · exact anchors.unwritten row' entry' ((others row' same).symm.trans found') before
  · rintro other row' tags' entry' sent' ⟨found', status'⟩ before
    by_cases same : row' = row
    · subst same
      obtain rfl : change entry = entry' := Option.some.inj (mine.symm.trans found')
      exact absurd status' leaves
    · exact anchors.fresh other row' tags' entry' sent' ⟨(others row' same).symm.trans found', status'⟩ before
  · intro other row' status' before hash' seen' posted'
    obtain ⟨entry', found', before'⟩ := anchors.reported other row' status' before hash' seen' posted'
    by_cases same : row' = row
    · subst same
      obtain rfl : entry = entry' := Option.some.inj (queued.1.symm.trans found')
      exact ⟨_, mine, fun none => before' (Option.or_eq_none_iff.mp none).1⟩
    · exact ⟨entry', (others row' same).trans found', before'⟩
  · intro row' entry' tags' content found' before written
    by_cases same : row' = row
    · subst same
      obtain rfl : change entry = entry' := Option.some.inj (mine.symm.trans found')
      cases kept : entry.beforeTags with
      | none =>
        have written : state.original row' = some content := written
        rw [anchors.unwritten row' entry queued.1 kept] at written
        cases written
      | some tags =>
        have same : tags = tags' := by simpa [changeDefined, kept] using before
        exact anchors.anchored row' entry tags' content queued.1 (same ▸ kept) written
    · exact anchors.anchored row' entry' tags' content ((others row' same).symm.trans found') before written
  · rintro row' entry' tags' ⟨found', status'⟩ before unwritten
    by_cases same : row' = row
    · subst same
      obtain rfl : change entry = entry' := Option.some.inj (mine.symm.trans found')
      exact absurd status' leaves
    · exact anchors.standing row' entry' tags' ⟨(others row' same).symm.trans found', status'⟩ before unwritten
  · intro refreshed
    cases hash with
    | none => exact anchors.refreshed (by simpa using refreshed)
    | some digest =>
      exact (anchors.hashed attempt row status beforeTags digest seen posted).2 (recent rfl)

end Invariant

end Phaze.Tagging
