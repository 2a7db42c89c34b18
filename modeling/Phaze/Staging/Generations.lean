import Phaze.Staging.Protocol

/-!
# Generations of an upload

Facts that hold in every run, whatever S3 answers. An upload that a staging
attempt has opened is its own until the row names it. A success callback works
on an upload that the row has named. What a transaction can make of the row is
known from the stage it is in.
-/

set_option autoImplicit false

namespace Phaze.Staging

-- The upload a success callback has read and will complete, or has completed.
def Stage.captured : Stage → Option UploadId
  | .completing upload => some upload
  | .completed upload => some upload
  | _ => none

-- The upload a staging attempt has opened and not yet committed to the row.
def Stage.fresh : Stage → Option UploadId
  | .presigning _ upload => some upload
  | .staged _ upload => some upload
  | _ => none

-- The drafts that a commit can make the row, by the stage of their writer.
def DraftOk (row draft : CloudJob) : Stage → Prop
  | .flipped => row.status = .uploading ∧ draft = { row with status := .uploaded }
  | .spilled _ => draft.status = .awaiting ∧ draft.uploadId = row.uploadId
  | .reaped _ => draft.status = .awaiting ∧ draft.uploadId = row.uploadId
  | .staged _ fresh => draft.status = .uploading ∧ draft.uploadId = some fresh
  | _ => True

structure Sound (state : State) : Prop where
  object : ∀ upload, state.bucket.object = some upload → state.bucket.uploads upload = .assembled
  row : ∀ upload, state.row.uploadId = some upload → state.bucket.uploads upload ≠ .unknown
  captured : ∀ process upload, (state.processes process).stage.captured = some upload →
    state.bucket.uploads upload ≠ .unknown
  closed : ∀ process upload, (state.processes process).stage = .completed upload →
    state.bucket.uploads upload ≠ .opened
  fresh : ∀ process upload, (state.processes process).stage.fresh = some upload →
    state.bucket.uploads upload ≠ .unknown ∧ state.bucket.uploads upload ≠ .assembled ∧
      state.row.uploadId ≠ some upload
  unread : ∀ process other upload, (state.processes process).stage.fresh = some upload →
    (state.processes other).stage.captured ≠ some upload
  single : ∀ process other upload, (state.processes process).stage.fresh = some upload →
    (state.processes other).stage.fresh = some upload → process = other
  draft : ∀ writer row, state.draft = some (writer, row) →
    DraftOk state.row row (state.processes writer).stage

theorem Sound.initial (attempts : Nat) (ledger : Option Nat) :
    Sound (State.initial attempts ledger) where
  object := by simp [State.initial, Bucket.empty]
  row := by simp [State.initial]
  captured := by simp [State.initial, Stage.captured]
  closed := by simp [State.initial]
  fresh := by simp [State.initial, Stage.fresh]
  unread := by simp [State.initial, Stage.fresh]
  single := by simp [State.initial, Stage.fresh]
  draft := by simp [State.initial]

/-! ## What a handler can ask for -/

-- The stages that end in a commit of the row.
def Stage.commits : Stage → Bool
  | .flipped => true
  | .spilled _ => true
  | .reaped _ => true
  | .staged _ _ => true
  | _ => false

-- A stage that a handler reaches by reading: it knows no upload but the row's.
def Reads (state : State) (stage : Stage) : Prop :=
  (∀ upload, stage.captured = some upload → state.row.uploadId = some upload) ∧
    stage.fresh = none ∧ (∀ upload, stage ≠ .completed upload) ∧ stage.commits = false

-- A stage that holds no upload at all.
def Bare (stage : Stage) : Prop :=
  stage.captured = none ∧ stage.fresh = none ∧ stage.commits = false

def Allowed (state : State) (process : ProcessId) : Effect → Prop
  | .s3 (.create fresh) answer stage =>
    state.bucket.uploads fresh = .unknown ∧
      (Bare stage ∨ answer = .ok ∧ ∃ origin, stage = .presigning origin fresh)
  | .s3 (.complete upload) answer stage =>
    (state.processes process).stage.captured = some upload ∧
      (Bare stage ∨ answer = .ok ∧ stage = .completed upload)
  | .s3 (.abort _) _ stage => Bare stage
  | .s3 .deleteObject _ stage => Bare stage
  | .write row stage =>
    state.rowFree process = true ∧ stage.captured = none ∧ DraftOk state.row row stage ∧
      (∀ upload, stage.fresh = some upload →
        (state.processes process).stage.fresh = some upload) ∧
      (stage = .flipped → ∃ upload, (state.processes process).stage = .completed upload ∧
        state.row.uploadId = some upload)
  | .commit _ stage => (state.processes process).stage.commits = true ∧ Bare stage
  | .goto stage => Reads state stage
  | .lockFailure stage => Reads state stage
  | .lockDrain stage => Reads state stage
  | .rollback stage => Reads state stage
  | .hook _ stage => Reads state stage

theorem Bare.reads {state : State} {stage : Stage} (bare : Bare stage) : Reads state stage := by
  obtain ⟨captured, fresh, commits⟩ := bare
  refine ⟨fun upload present => absurd (captured.symm.trans present) (by simp), fresh, ?_, commits⟩
  rintro upload rfl
  cases captured

theorem bare_done : Bare .done := ⟨rfl, rfl, rfl⟩

theorem allowed_writeOr {state : State} {process : ProcessId} {row : Option CloudJob} {stage : Stage}
    (free : state.rowFree process = true) (captured : stage.captured = none)
    (fresh : stage.fresh = none) (spills : stage ≠ .flipped)
    (ok : ∀ draft, row = some draft → DraftOk state.row draft stage) :
    Allowed state process (writeOr row stage) := by
  cases row with
  | none => exact bare_done.reads
  | some draft =>
    refine ⟨free, captured, ok draft rfl, ?_, fun same => absurd same spills⟩
    intro upload present
    exact absurd (fresh.symm.trans present) (by simp)

theorem holdAwaitingCloud_some {row draft : CloudJob} {attempts : Nat}
    {expectStatus : List CloudJobStatus} {expectUploadId : Option UploadId}
    (held : holdAwaitingCloud row attempts expectStatus expectUploadId = some draft) :
    draft.status = .awaiting ∧ draft.uploadId = row.uploadId := by
  unfold holdAwaitingCloud at held
  split at held
  · obtain rfl := Option.some.inj held
    exact ⟨rfl, rfl⟩
  · cases held

theorem bare_andThen {answer : Answer} {stage : Stage} (bare : Bare stage) :
    Bare (answer.andThen stage) := by
  unfold Answer.andThen
  split
  · exact bare
  · exact bare_done

theorem bare_cleanup (resolves : Bool) (upload : Option UploadId) :
    Bare (cleanup resolves upload) := by
  cases resolves <;> cases upload <;> exact ⟨rfl, rfl, rfl⟩

theorem bare_reapCleanup (resolves : Bool) (upload : Option UploadId) :
    Bare (reapCleanup resolves upload) := by
  cases resolves <;> cases upload <;> exact ⟨rfl, rfl, rfl⟩

section Handlers

variable {settings : Settings} {state : State} {process : ProcessId}

theorem allowed_uploadedRead {parts : List (Nat × String)} {resolves : Bool} :
    Allowed state process (uploadedRead state parts resolves) := by
  unfold uploadedRead
  split
  next => exact bare_done.reads
  next upload readable =>
    have current : state.row.uploadId = some upload := by
      unfold uploadIdToComplete at readable
      split at readable
      · exact readable
      · cases readable
    split
    · exact Bare.reads ⟨rfl, rfl, rfl⟩
    · split
      · refine ⟨?_, rfl, by simp, rfl⟩
        intro other captured
        obtain rfl := Option.some.inj captured
        exact current
      · exact bare_done.reads

theorem allowed_uploadedFlip {upload : UploadId} (free : state.rowFree process = true)
    (completed : (state.processes process).stage = .completed upload) :
    Allowed state process (uploadedFlip state upload) := by
  unfold uploadedFlip
  split
  next pinned =>
    refine ⟨free, rfl, ⟨pinned.1, rfl⟩, by simp [Stage.fresh], fun _ => ?_⟩
    exact ⟨upload, completed, pinned.2⟩
  next => exact bare_done.reads

theorem allowed_underCapRead {attempt : Nat} {resolves : Bool} :
    Allowed state process (underCapRead state attempt resolves) := by
  unfold underCapRead
  split
  · split <;> exact Bare.reads ⟨rfl, rfl, rfl⟩
  · exact bare_done.reads

theorem allowed_drainSelect {resolves : Bool} :
    Allowed state process (drainSelect settings state resolves) := by
  unfold drainSelect
  split
  next candidate =>
    have free : state.rowFree process = true := by simp [State.rowFree, candidate.1]
    exact ⟨free, rfl, trivial, by simp [Stage.fresh], by simp⟩
  next => exact bare_done.reads

theorem allowed_next {event : Event} {effect : Effect}
    (asked : next settings state process event = some effect) :
    Allowed state process effect := by
  simp only [next] at asked
  split at asked
  -- Stages that wait, and effects whose next stage holds no upload.
  all_goals try (cases asked; done)
  all_goals try (split at asked <;> try (cases asked; done))
  all_goals try (obtain rfl := Option.some.inj asked)
  all_goals try exact ⟨rfl, rfl, rfl⟩
  all_goals try exact Bare.reads ⟨rfl, rfl, rfl⟩
  next => exact allowed_uploadedRead
  next upload answer completing =>
    refine ⟨by rw [completing]; rfl, ?_⟩
    cases answer
    · exact Or.inr ⟨rfl, rfl⟩
    · exact Or.inl bare_done
    · exact Or.inl bare_done
  next upload completed free => exact allowed_uploadedFlip free completed
  next cleared flipped => exact ⟨by rw [flipped]; rfl, bare_done⟩
  next upload spilling free =>
    exact allowed_writeOr free rfl rfl (by simp) fun draft held => holdAwaitingCloud_some held
  next upload cleared spilled => exact ⟨by rw [spilled]; rfl, bare_cleanup _ _⟩
  next upload answer cleaning => exact bare_andThen ⟨rfl, rfl, rfl⟩
  next attempt deciding => exact allowed_underCapRead
  next origin fresh answer staging unused =>
    refine ⟨unused, ?_⟩
    cases answer
    · exact Or.inr ⟨rfl, origin, rfl⟩
    · exact Or.inl ⟨rfl, rfl, rfl⟩
    · exact Or.inl ⟨rfl, rfl, rfl⟩
  next origin fresh presigning free =>
    refine ⟨free, rfl, ⟨rfl, rfl⟩, ?_, by simp⟩
    intro upload present
    rw [presigning]
    exact present
  next origin fresh cleared staged => exact ⟨by rw [staged]; rfl, rfl, rfl, rfl⟩
  next => exact allowed_drainSelect
  next status upload attempts reaping free =>
    exact allowed_writeOr free rfl rfl (by simp) fun draft held => holdAwaitingCloud_some held
  next upload cleared reaped => exact ⟨by rw [reaped]; rfl, bare_reapCleanup _ _⟩
  next upload answer aborting => exact bare_andThen ⟨rfl, rfl, rfl⟩

end Handlers

/-! ## One effect keeps what holds in every run -/

section Preservation

variable {settings : Settings} {state : State} {process : ProcessId}

theorem draftOk_of_not_commits {row draft : CloudJob} {stage : Stage}
    (idle : stage.commits = false) : DraftOk row draft stage := by
  cases stage <;> trivial

-- Effects that leave the row and the bucket alone: the process has learned the row's upload at most.
theorem Sound.of_quiet {next : State} {stage : Stage} (sound : Sound state)
    (bucket : next.bucket = state.bucket) (row : next.row = state.row)
    (stages : ∀ other, (next.processes other).stage =
      if other = process then stage else (state.processes other).stage)
    (captured : ∀ upload, stage.captured = some upload → state.row.uploadId = some upload)
    (closed : ∀ upload, stage ≠ .completed upload)
    (fresh : ∀ upload, stage.fresh = some upload →
      (state.processes process).stage.fresh = some upload)
    (draft : ∀ writer version, next.draft = some (writer, version) →
      DraftOk state.row version (if writer = process then stage else (state.processes writer).stage)) :
    Sound next := by
  have captures : ∀ other upload, (next.processes other).stage.captured = some upload →
      (state.processes other).stage.captured = some upload ∨ state.row.uploadId = some upload := by
    intro other upload held
    rw [stages] at held
    split at held
    · exact Or.inr (captured upload held)
    · exact Or.inl held
  have opened : ∀ other upload, (next.processes other).stage.fresh = some upload →
      (state.processes other).stage.fresh = some upload := by
    intro other upload held
    rw [stages] at held
    split at held
    next same => exact same ▸ fresh upload held
    next => exact held
  refine ⟨?_, ?_, ?_, ?_, ?_, ?_, ?_, ?_⟩
  · rw [bucket]
    exact sound.object
  · rw [bucket, row]
    exact sound.row
  · intro other upload held
    rw [bucket]
    rcases captures other upload held with before | current
    · exact sound.captured other upload before
    · exact sound.row upload current
  · intro other upload held
    rw [bucket]
    rw [stages] at held
    split at held
    · exact absurd held (closed upload)
    · exact sound.closed other upload held
  · intro other upload held
    rw [bucket, row]
    exact sound.fresh other upload (opened other upload held)
  · intro other reader upload held read
    have mine := opened other upload held
    rcases captures reader upload read with before | current
    · exact sound.unread other reader upload mine before
    · exact (sound.fresh other upload mine).2.2 current
  · intro one other upload first second
    exact sound.single one other upload (opened one upload first) (opened other upload second)
  · intro writer version drafted
    rw [row, stages]
    exact draft writer version drafted

theorem Sound.of_reads {next : State} {stage : Stage} (sound : Sound state)
    (bucket : next.bucket = state.bucket) (row : next.row = state.row)
    (stages : ∀ other, (next.processes other).stage =
      if other = process then stage else (state.processes other).stage)
    (reads : Reads state stage)
    (fewer : ∀ draft, next.draft = some draft → state.draft = some draft) : Sound next := by
  obtain ⟨captured, fresh, closed, idle⟩ := reads
  refine sound.of_quiet bucket row stages captured closed ?_ ?_
  · intro upload held
    exact absurd (fresh.symm.trans held) (by simp)
  · intro writer version drafted
    split
    · exact draftOk_of_not_commits idle
    · exact sound.draft writer version (fewer _ drafted)

theorem Sound.write {row : CloudJob} {stage : Stage} (sound : Sound state)
    (allowed : Allowed state process (.write row stage)) :
    Sound (state.apply process (.write row stage)) := by
  obtain ⟨-, captured, ok, fresh, -⟩ := allowed
  refine sound.of_quiet rfl rfl (fun other => apply_stage state process other _) ?_ ?_ fresh ?_
  · intro upload held
    exact absurd (captured.symm.trans held) (by simp)
  · rintro upload rfl
    cases captured
  · intro writer version drafted
    obtain ⟨rfl, rfl⟩ := Prod.mk.inj (Option.some.inj drafted)
    rw [if_pos rfl]
    exact ok

-- The three things a commit can do to the row.
theorem draft_cases {row draft : CloudJob} {stage : Stage} (commits : stage.commits = true)
    (ok : DraftOk row draft stage) :
    (stage = .flipped ∧ row.status = .uploading ∧ draft = { row with status := .uploaded }) ∨
      (draft.status = .awaiting ∧ draft.uploadId = row.uploadId) ∨
      (draft.status = .uploading ∧ draft.uploadId = stage.fresh) := by
  cases stage with
  | flipped => exact Or.inl ⟨rfl, ok⟩
  | spilled upload => exact Or.inr (Or.inl ok)
  | reaped upload => exact Or.inr (Or.inl ok)
  | staged origin fresh => exact Or.inr (Or.inr ok)
  | _ => cases commits

theorem draft_upload {row draft : CloudJob} {stage : Stage} (commits : stage.commits = true)
    (ok : DraftOk row draft stage) :
    draft.uploadId = row.uploadId ∨ draft.uploadId = stage.fresh := by
  rcases draft_cases commits ok with ⟨-, -, rfl⟩ | ⟨-, same⟩ | ⟨-, fresh⟩
  · exact Or.inl rfl
  · exact Or.inl same
  · exact Or.inr fresh

theorem version_cases (state : State) (process : ProcessId) :
    state.version process = state.row ∨
      ∃ draft, state.draft = some (process, draft) ∧ state.version process = draft := by
  unfold State.version
  split
  next => exact Or.inl rfl
  next writer draft drafted =>
    split
    next same => exact Or.inr ⟨draft, same ▸ drafted, rfl⟩
    next => exact Or.inl rfl

theorem endTransaction_draft {draft : ProcessId × CloudJob}
    (kept : (state.draft.filter fun draft => draft.1 != process) = some draft) :
    state.draft = some draft ∧ draft.1 ≠ process := by
  simpa [Option.filter_eq_some_iff] using kept

theorem Sound.commit {ledger : Option Nat} {stage : Stage} (sound : Sound state)
    (allowed : Allowed state process (.commit ledger stage)) :
    Sound (state.apply process (.commit ledger stage)) := by
  obtain ⟨commits, bare⟩ := allowed
  rcases version_cases state process with unchanged | ⟨draft, drafted, isVersion⟩
  · exact sound.of_reads rfl unchanged (fun other => apply_stage state process other _) bare.reads
      fun draft kept => (endTransaction_draft kept).1
  · have ok := sound.draft process draft drafted
    have upload := draft_upload commits ok
    have row : (state.apply process (.commit ledger stage)).row = draft := isVersion
    have stages := fun other => apply_stage state process other (.commit ledger stage)
    have others : ∀ other upload,
        ((state.apply process (.commit ledger stage)).processes other).stage.fresh = some upload →
        other ≠ process ∧ (state.processes other).stage.fresh = some upload := by
      intro other upload held
      rw [stages] at held
      split at held
      · exact absurd (bare.2.1.symm.trans held) (by simp)
      next different => exact ⟨different, held⟩
    have readers : ∀ other upload,
        ((state.apply process (.commit ledger stage)).processes other).stage.captured = some upload →
        (state.processes other).stage.captured = some upload := by
      intro other upload held
      rw [stages] at held
      split at held
      · exact absurd (bare.1.symm.trans held) (by simp)
      · exact held
    refine ⟨sound.object, ?_, ?_, ?_, ?_, ?_, ?_, ?_⟩
    · intro id current
      rw [row] at current
      rcases upload with old | new
      · exact sound.row id (old ▸ current)
      · exact (sound.fresh process id (new ▸ current)).1
    · intro other id held
      exact sound.captured other id (readers other id held)
    · intro other id held
      rw [stages] at held
      split at held
      · exact absurd held ((@Bare.reads state stage bare).2.2.1 id)
      · exact sound.closed other id held
    · intro other id held
      obtain ⟨different, mine⟩ := others other id held
      obtain ⟨known, unassembled, elsewhere⟩ := sound.fresh other id mine
      refine ⟨known, unassembled, ?_⟩
      rw [row]
      rcases upload with old | new
      · exact old ▸ elsewhere
      · intro current
        exact different (sound.single other process id mine (new ▸ current))
    · intro other reader id held read
      exact sound.unread other reader id (others other id held).2 (readers reader id read)
    · intro one other id first second
      exact sound.single one other id (others one id first).2 (others other id second).2
    · intro writer version kept
      obtain ⟨before, different⟩ := endTransaction_draft kept
      have same := Option.some.inj (drafted.symm.trans before)
      exact absurd (congrArg Prod.fst same).symm different

theorem Sound.s3 {call : Call} {answer : Answer} {stage : Stage} (sound : Sound state)
    (create : ∀ id, call = .create id → state.bucket.uploads id = .unknown)
    (complete : ∀ id, call = .complete id → (state.processes process).stage.captured = some id)
    (captured : ∀ id, stage.captured = some id → call = .complete id ∧ answer = .ok)
    (fresh : ∀ id, stage.fresh = some id → call = .create id ∧ answer = .ok)
    (idle : stage.commits = false) : Sound (state.apply process (.s3 call answer stage)) := by
  have stages := fun other => apply_stage state process other (.s3 call answer stage)
  have known : ∀ id, state.bucket.uploads id ≠ .unknown → call ≠ .create id := by
    intro id isKnown created
    exact isKnown (create id created)
  have captures : ∀ other id,
      ((state.apply process (.s3 call answer stage)).processes other).stage.captured = some id →
      (state.processes other).stage.captured = some id := by
    intro other id held
    rw [stages] at held
    split at held
    next same => exact same ▸ complete id (captured id held).1
    next => exact held
  -- An upload that a staging attempt holds was opened by this call, or it held it before.
  have opened : ∀ other id,
      ((state.apply process (.s3 call answer stage)).processes other).stage.fresh = some id →
      other = process ∧ call = .create id ∧ answer = .ok ∨
        (state.processes other).stage.fresh = some id := by
    intro other id held
    rw [stages] at held
    split at held
    next same => exact Or.inl ⟨same, fresh id held⟩
    next => exact Or.inr held
  refine ⟨?_, ?_, ?_, ?_, ?_, ?_, ?_, ?_⟩
  · intro id present
    rcases Bucket.of_object_attempt present with before | assembled
    · have assembled := sound.object id before
      exact Bucket.assembled_attempt assembled (known id (by simp [assembled]))
    · exact assembled
  · intro id current
    exact Bucket.known_attempt (sound.row id current)
  · intro other id held
    exact Bucket.known_attempt (sound.captured other id (captures other id held))
  · intro other id held
    rw [stages] at held
    split at held
    next same =>
      obtain ⟨rfl, rfl⟩ := captured id (congrArg Stage.captured held)
      exact Bucket.closed_complete
    next =>
      have isCaptured := congrArg Stage.captured held
      exact Bucket.closed_attempt (sound.closed other id held)
        (known id (sound.captured other id isCaptured))
  · intro other id held
    rcases opened other id held with ⟨-, rfl, rfl⟩ | mine
    · have isOpen : (state.bucket.attempt .ok (.create id)).uploads id = .opened :=
        Bucket.opened_create
      refine ⟨by simp [State.apply, State.goto, isOpen], by simp [State.apply, State.goto, isOpen],
        fun current => ?_⟩
      exact sound.row id current (create id rfl)
    · obtain ⟨isKnown, unassembled, elsewhere⟩ := sound.fresh other id mine
      refine ⟨Bucket.known_attempt isKnown, fun assembled => ?_, elsewhere⟩
      rcases Bucket.of_assembled_attempt assembled with before | ⟨-, completed, -⟩
      · exact unassembled before
      · exact sound.unread other process id mine (complete id completed)
  · intro other reader id held read
    have before := captures reader id read
    rcases opened other id held with ⟨-, created, -⟩ | mine
    · exact known id (sound.captured reader id before) created
    · exact sound.unread other reader id mine before
  · intro one other id first second
    rcases opened one id first with ⟨rfl, created, -⟩ | mine
    · rcases opened other id second with ⟨same, -, -⟩ | theirs
      · exact same.symm
      · exact absurd created (known id (sound.fresh other id theirs).1)
    · rcases opened other id second with ⟨-, created, -⟩ | theirs
      · exact absurd created (known id (sound.fresh one id mine).1)
      · exact sound.single one other id mine theirs
  · intro writer version drafted
    rw [stages]
    split
    · exact draftOk_of_not_commits idle
    · exact sound.draft writer version drafted

theorem Sound.apply {effect : Effect} (sound : Sound state)
    (allowed : Allowed state process effect) : Sound (state.apply process effect) := by
  have stages := fun other => apply_stage state process other effect
  cases effect with
  | goto stage => exact sound.of_reads rfl rfl stages allowed fun _ kept => kept
  | lockFailure stage => exact sound.of_reads rfl rfl stages allowed fun _ kept => kept
  | lockDrain stage => exact sound.of_reads rfl rfl stages allowed fun _ kept => kept
  | hook ledger stage => exact sound.of_reads rfl rfl stages allowed fun _ kept => kept
  | rollback stage =>
    exact sound.of_reads rfl rfl stages allowed fun _ kept => (endTransaction_draft kept).1
  | write row stage => exact sound.write allowed
  | commit ledger stage => exact sound.commit allowed
  | s3 call answer stage =>
    cases call with
    | create fresh =>
      obtain ⟨unused, bare | ⟨rfl, origin, rfl⟩⟩ := allowed
      · exact sound.s3 (by simpa using unused) (by simp) (by simp [bare.1]) (by simp [bare.2.1])
          bare.2.2
      · exact sound.s3 (by simpa using unused) (by simp) (by simp [Stage.captured])
          (by simp [Stage.fresh]) rfl
    | complete upload =>
      obtain ⟨read, bare | ⟨rfl, rfl⟩⟩ := allowed
      · exact sound.s3 (by simp) (by simpa using read) (by simp [bare.1]) (by simp [bare.2.1])
          bare.2.2
      · exact sound.s3 (by simp) (by simpa using read) (by simp [Stage.captured])
          (by simp [Stage.fresh]) rfl
    | abort upload =>
      exact sound.s3 (by simp) (by simp) (by simp [allowed.1]) (by simp [allowed.2.1]) allowed.2.2
    | deleteObject =>
      exact sound.s3 (by simp) (by simp) (by simp [allowed.1]) (by simp [allowed.2.1]) allowed.2.2

theorem allowed_s3_idle {call : Call} {answer : Answer} {stage : Stage}
    (allowed : Allowed state process (.s3 call answer stage)) : stage.commits = false := by
  cases call with
  | create fresh =>
    obtain ⟨-, bare | ⟨-, origin, rfl⟩⟩ := allowed
    · exact bare.2.2
    · rfl
  | complete upload =>
    obtain ⟨-, bare | ⟨-, rfl⟩⟩ := allowed
    · exact bare.2.2
    · rfl
  | abort upload => exact allowed.2.2
  | deleteObject => exact allowed.2.2

theorem Handler.entry_bare (handler : Handler) : Bare handler.entry := by
  cases handler <;> exact ⟨rfl, rfl, rfl⟩

theorem start_stage (handler : Handler) (resolves : Bool) (other : ProcessId) :
    (Function.update state.processes process ⟨handler.entry, resolves⟩ other).stage =
      if other = process then handler.entry else (state.processes other).stage := by
  by_cases same : other = process
  · subst same
    simp
  · simp [same]

theorem step_sound {action : Action} {next : State} (sound : Sound state)
    (stepped : step settings state action = some next) : Sound next := by
  cases action with
  | start process handler resolves =>
    simp only [step] at stepped
    split at stepped
    · obtain rfl := Option.some.inj stepped
      exact sound.of_reads rfl rfl (start_stage handler resolves) handler.entry_bare.reads
        fun _ same => same
    · cases stepped
  | resume process event =>
    obtain ⟨effect, asked, rfl⟩ := Option.map_eq_some_iff.mp stepped
    exact sound.apply (allowed_next asked)
  | crash process =>
    obtain rfl := Option.some.inj stepped
    exact sound.apply bare_done.reads

theorem run_sound {final : State} (actions : List Action) (sound : Sound state)
    (ran : run settings state actions = some final) : Sound final := by
  induction actions generalizing state with
  | nil =>
    obtain rfl := Option.some.inj ran
    exact sound
  | cons action rest ih =>
    obtain ⟨next, stepped, ran⟩ := Option.bind_eq_some_iff.mp ran
    exact ih (step_sound sound stepped) ran

end Preservation

end Phaze.Staging
