import Phaze.Staging.Generations

/-!
# What an UPLOADED row promises

A row that is committed as UPLOADED with an upload says that the object at the
file's key was assembled from that upload. Three kinds of steps break the
promise; in a run without them it holds in every state.
-/

set_option autoImplicit false

namespace Phaze.Staging

def Staged (state : State) : Prop :=
  ∀ upload, state.row.status = .uploaded → state.row.uploadId = some upload →
    state.bucket.object = some upload

/-! ## The steps that break it -/

-- The row is UPLOADING or UPLOADED, and its own upload has been assembled into the object.
def RowAssembled (state : State) : Prop :=
  state.row.status.staging = true ∧
    ∃ upload, state.row.uploadId = some upload ∧ state.bucket.object = some upload

def SafeEffect (state : State) : Effect → Prop
  -- An older generation must not be assembled over the row's own object.
  | .s3 (.complete upload) answer _ =>
    answer.happened = true → state.bucket.uploads upload = .opened →
      state.row.uploadId ≠ some upload → ¬ RowAssembled state
  -- A cleanup must not delete the row's own object.
  | .s3 .deleteObject answer _ => answer.happened = true → ¬ RowAssembled state
  -- The flip to UPLOADED must not credit an upload that was aborted.
  | .write _ stage =>
    stage = .flipped →
      ∀ upload, state.row.uploadId = some upload → state.bucket.uploads upload ≠ .aborted
  | _ => True

def Safe (settings : Settings) (state : State) : Action → Prop
  | .resume process event =>
    ∀ effect, next settings state process event = some effect → SafeEffect state effect
  | _ => True

instance (state : State) : Decidable (RowAssembled state) :=
  decidable_of_iff (state.row.status.staging = true ∧
      ∃ upload ∈ state.row.uploadId, state.bucket.object = some upload) Iff.rfl

instance (state : State) : DecidablePred (SafeEffect state)
  | .s3 (.complete _) _ _ => inferInstanceAs (Decidable (_ → _ → _ → ¬ _))
  | .s3 .deleteObject _ _ => inferInstanceAs (Decidable (_ → ¬ _))
  | .write _ _ => inferInstanceAs (Decidable (_ → ∀ upload ∈ state.row.uploadId, _ ≠ _))
  | .s3 (.create _) _ _ => isTrue trivial
  | .s3 (.abort _) _ _ => isTrue trivial
  | .goto _ => isTrue trivial
  | .lockFailure _ => isTrue trivial
  | .lockDrain _ => isTrue trivial
  | .commit _ _ => isTrue trivial
  | .rollback _ => isTrue trivial
  | .hook _ _ => isTrue trivial

instance (settings : Settings) (state : State) : DecidablePred (Safe settings state)
  | .resume process event =>
    inferInstanceAs (Decidable (∀ effect ∈ next settings state process event, SafeEffect state effect))
  | .start _ _ _ => isTrue trivial
  | .crash _ => isTrue trivial

/-! ## One safe effect keeps the promise -/

-- What a run without the breaking steps keeps on top of that.
structure Kept (state : State) : Prop where
  intact : ∀ upload, state.row.status.staging = true → state.row.uploadId = some upload →
    state.bucket.uploads upload = .assembled → state.bucket.object = some upload
  uploaded : ∀ upload, state.row.status = .uploaded → state.row.uploadId = some upload →
    state.bucket.uploads upload = .assembled
  flip : ∀ writer row upload, state.draft = some (writer, row) →
    (state.processes writer).stage = .flipped → state.row.uploadId = some upload →
      state.bucket.uploads upload = .assembled

theorem Kept.staged {state : State} (kept : Kept state) : Staged state := by
  intro upload uploaded current
  have staging : state.row.status.staging = true := by rw [uploaded]; rfl
  exact kept.intact upload staging current (kept.uploaded upload uploaded current)

theorem Kept.initial (attempts : Nat) (ledger : Option Nat) :
    Kept (State.initial attempts ledger) where
  intact := by simp [State.initial]
  uploaded := by simp [State.initial]
  flip := by simp [State.initial]

section Preservation

variable {settings : Settings} {state : State} {process : ProcessId}

theorem Kept.of_reads {next : State} {stage : Stage} (kept : Kept state)
    (bucket : next.bucket = state.bucket) (row : next.row = state.row)
    (stages : ∀ other, (next.processes other).stage =
      if other = process then stage else (state.processes other).stage)
    (idle : stage.commits = false)
    (fewer : ∀ draft, next.draft = some draft → state.draft = some draft) : Kept next := by
  refine ⟨by rw [bucket, row]; exact kept.intact, by rw [bucket, row]; exact kept.uploaded, ?_⟩
  intro writer version upload drafted flipped current
  rw [bucket]
  rw [row] at current
  rw [stages] at flipped
  split at flipped
  · subst flipped
    cases idle
  · exact kept.flip writer version upload (fewer _ drafted) flipped current

-- The flip follows a completion that S3 accepted; the upload was not aborted, so it is assembled.
theorem Kept.write {row : CloudJob} {stage : Stage} (kept : Kept state) (sound : Sound state)
    (allowed : Allowed state process (.write row stage)) (safe : SafeEffect state (.write row stage)) :
    Kept (state.apply process (.write row stage)) := by
  refine ⟨kept.intact, kept.uploaded, ?_⟩
  intro writer version upload drafted flipped current
  obtain ⟨rfl, rfl⟩ := Prod.mk.inj (Option.some.inj drafted)
  rw [apply_stage, if_pos rfl] at flipped
  obtain rfl : stage = .flipped := flipped
  obtain ⟨completed, stage, pinned⟩ := allowed.2.2.2.2 rfl
  obtain rfl : upload = completed := Option.some.inj (current.symm.trans pinned)
  have known := sound.captured _ upload (congrArg Stage.captured stage)
  have closed := sound.closed _ upload stage
  have unaborted := safe rfl upload pinned
  change state.bucket.uploads upload = .assembled
  cases uploads : state.bucket.uploads upload <;> simp_all

theorem Kept.s3 {call : Call} {answer : Answer} {stage : Stage} (kept : Kept state)
    (allowed : Allowed state process (.s3 call answer stage))
    (safe : SafeEffect state (.s3 call answer stage)) (idle : stage.commits = false) :
    Kept (state.apply process (.s3 call answer stage)) := by
  have stays : ∀ upload, state.bucket.uploads upload = .assembled →
      (state.bucket.attempt answer call).uploads upload = .assembled := by
    intro upload assembled
    refine Bucket.assembled_attempt assembled ?_
    rintro rfl
    exact absurd (assembled.symm.trans allowed.1) (by simp)
  refine ⟨?_, fun upload uploaded current => stays upload (kept.uploaded upload uploaded current), ?_⟩
  · intro upload staging current assembled
    have own : state.bucket.uploads upload = .assembled → RowAssembled state :=
      fun before => ⟨staging, upload, current, kept.intact upload staging current before⟩
    change (state.bucket.attempt answer call).object = some upload
    rcases Bucket.of_assembled_attempt assembled with before | ⟨happened, rfl, opened⟩
    · have object := kept.intact upload staging current before
      cases call with
      | create fresh => rw [Bucket.create_object, object]
      | abort other => rw [Bucket.abort_object, object]
      | complete other =>
        rw [Bucket.complete_object, object, ite_eq_right_iff]
        rintro ⟨happened, opened⟩
        refine absurd (own before) (safe happened opened ?_)
        intro same
        obtain rfl := Option.some.inj (current.symm.trans same)
        exact absurd (before.symm.trans opened) (by simp)
      | deleteObject =>
        rw [Bucket.deleteObject_object, object, ite_eq_right_iff]
        intro happened
        exact absurd (own before) (safe happened)
    · rw [Bucket.complete_object, if_pos ⟨happened, opened⟩]
  · intro writer version upload drafted flipped current
    rw [apply_stage] at flipped
    split at flipped
    · obtain rfl : stage = .flipped := flipped
      cases idle
    · exact stays upload (kept.flip writer version upload drafted flipped current)

theorem Kept.commit {ledger : Option Nat} {stage : Stage} (kept : Kept state) (sound : Sound state)
    (allowed : Allowed state process (.commit ledger stage)) :
    Kept (state.apply process (.commit ledger stage)) := by
  obtain ⟨commits, bare⟩ := allowed
  rcases version_cases state process with unchanged | ⟨draft, drafted, isVersion⟩
  · exact kept.of_reads rfl unchanged (fun other => apply_stage state process other _) bare.2.2
      fun draft kept => (endTransaction_draft kept).1
  · have ok := sound.draft process draft drafted
    have row : (state.apply process (.commit ledger stage)).row = draft := isVersion
    refine ⟨?_, ?_, ?_⟩
    · intro upload staging current assembled
      rw [row] at staging current
      rcases draft_cases commits ok with ⟨-, uploading, rfl⟩ | ⟨awaiting, -⟩ | ⟨-, fresh⟩
      · exact kept.intact upload (by rw [uploading]; rfl) current assembled
      · exact absurd staging (by rw [awaiting]; decide)
      · exact absurd assembled (sound.fresh process upload (fresh.symm.trans current)).2.1
    · intro upload uploaded current
      rw [row] at uploaded current
      rcases draft_cases commits ok with ⟨flipped, -, rfl⟩ | ⟨awaiting, -⟩ | ⟨uploading, -⟩
      · exact kept.flip process _ upload drafted flipped current
      · exact absurd (uploaded.symm.trans awaiting) (by simp)
      · exact absurd (uploaded.symm.trans uploading) (by simp)
    · intro writer version upload remaining
      obtain ⟨before, different⟩ := endTransaction_draft remaining
      have same := Option.some.inj (drafted.symm.trans before)
      exact absurd (congrArg Prod.fst same).symm different

theorem Kept.apply {effect : Effect} (kept : Kept state) (sound : Sound state)
    (allowed : Allowed state process effect) (safe : SafeEffect state effect) :
    Kept (state.apply process effect) := by
  have stages := fun other => apply_stage state process other effect
  cases effect with
  | goto stage => exact kept.of_reads rfl rfl stages allowed.2.2.2 fun _ same => same
  | lockFailure stage => exact kept.of_reads rfl rfl stages allowed.2.2.2 fun _ same => same
  | lockDrain stage => exact kept.of_reads rfl rfl stages allowed.2.2.2 fun _ same => same
  | hook ledger stage => exact kept.of_reads rfl rfl stages allowed.2.2.2 fun _ same => same
  | rollback stage =>
    exact kept.of_reads rfl rfl stages allowed.2.2.2 fun _ left => (endTransaction_draft left).1
  | write row stage => exact kept.write sound allowed safe
  | commit ledger stage => exact kept.commit sound allowed
  | s3 call answer stage => exact kept.s3 allowed safe (allowed_s3_idle allowed)

theorem step_kept {action : Action} {next : State} (kept : Kept state) (sound : Sound state)
    (safe : Safe settings state action) (stepped : step settings state action = some next) :
    Kept next := by
  cases action with
  | start process handler resolves =>
    simp only [step] at stepped
    split at stepped
    · obtain rfl := Option.some.inj stepped
      exact kept.of_reads rfl rfl (start_stage handler resolves) handler.entry_bare.2.2
        fun _ same => same
    · cases stepped
  | resume process event =>
    obtain ⟨effect, asked, rfl⟩ := Option.map_eq_some_iff.mp stepped
    exact kept.apply sound (allowed_next asked) (safe effect asked)
  | crash process =>
    obtain rfl := Option.some.inj stepped
    exact kept.apply sound bare_done.reads trivial

end Preservation

/-! ## Runs -/

def SafeRun (settings : Settings) (state : State) : List Action → Prop
  | [] => True
  | action :: rest =>
    Safe settings state action ∧
      ∀ next, step settings state action = some next → SafeRun settings next rest

def decideSafeRun (settings : Settings) :
    (actions : List Action) → (state : State) → Decidable (SafeRun settings state actions)
  | [], _ => isTrue trivial
  | action :: rest, state =>
    haveI := decideSafeRun settings rest
    inferInstanceAs (Decidable (Safe settings state action ∧
      ∀ next ∈ step settings state action, SafeRun settings next rest))

instance (settings : Settings) (state : State) : DecidablePred (SafeRun settings state) :=
  fun actions => decideSafeRun settings actions state

theorem run_kept {settings : Settings} {state final : State} (before after : List Action)
    (sound : Sound state) (kept : Kept state) (safe : SafeRun settings state (before ++ after))
    (ran : run settings state before = some final) : Kept final := by
  induction before generalizing state with
  | nil =>
    obtain rfl := Option.some.inj ran
    exact kept
  | cons action rest ih =>
    obtain ⟨next, stepped, ran⟩ := Option.bind_eq_some_iff.mp ran
    exact ih (step_sound sound stepped) (step_kept kept sound safe.1 stepped)
      (safe.2 next stepped) ran

theorem uploaded_assembled (settings : Settings) (attempts : Nat) (ledger : Option Nat)
    (actions before after : List Action) (reached : actions = before ++ after)
    (safe : SafeRun settings (State.initial attempts ledger) actions) (state : State)
    (ran : run settings (State.initial attempts ledger) before = some state) : Staged state := by
  subst reached
  exact (run_kept before after (Sound.initial attempts ledger) (Kept.initial attempts ledger)
    safe ran).staged

/-! ### Two runs -/

namespace Redriven

def settings : Settings :=
  { pushMaxAttempts := 3, cloudSubmitMaxAttempts := 3 }

-- A drain tick stages the file as `u1`.
def dispatch : List Action :=
  [.start 0 .drain true, .resume 0 .ran, .resume 0 .ran, .resume 0 (.issued "u1" .ok),
    .resume 0 .ran, .resume 0 (.committed false), .resume 0 .ran]

-- The agent reports a failure; the re-drive aborts `u1`.
def reportFailed : List Action :=
  [.start 1 .uploadFailed true, .resume 1 .ran, .resume 1 .ran, .resume 1 .ran,
    .resume 1 (.answered .ok)]

-- A success callback with one part, from its read to its commit.
def reportUploaded (process : ProcessId) : List Action :=
  [.start process (.uploaded [(1, "e")]) true, .resume process .ran,
    .resume process (.answered .ok), .resume process .ran, .resume process (.committed true)]

-- The re-drive stages `u2`, and the late callback of `u1` and then that of `u2` come in.
def restaged : List Action :=
  dispatch ++ reportFailed ++
    [.start 2 (.uploaded [(1, "e")]) true, .resume 2 .ran, .resume 1 (.issued "u2" .ok),
      .resume 1 .ran, .resume 1 (.committed false), .resume 1 .ran, .resume 2 (.answered .ok),
      .resume 2 .ran] ++
    reportUploaded 3

-- The bucket is down when the re-drive asks for a new upload; the row stays UPLOADING with `u1`.
def held : List Action :=
  dispatch ++ reportFailed ++ [.resume 1 .raised, .resume 1 .ran] ++ reportUploaded 2

end Redriven

theorem uploaded_assembled_restaged :
    ∃ state, run Redriven.settings (.initial 0 none) Redriven.restaged = some state ∧
      state.row.status = .uploaded ∧ state.row.uploadId = some "u2" ∧
      state.bucket.object = some "u2" := by
  have returns : ((run Redriven.settings (.initial 0 none) Redriven.restaged).map fun state =>
      (state.row.status, state.row.uploadId)) = some (.uploaded, some "u2") := by decide
  obtain ⟨state, ran, row⟩ := Option.map_eq_some_iff.mp returns
  obtain ⟨uploaded, current⟩ := Prod.mk.inj row
  have safe : SafeRun Redriven.settings (.initial 0 none) Redriven.restaged := by decide
  refine ⟨state, ran, uploaded, current, ?_⟩
  exact uploaded_assembled Redriven.settings 0 none _ Redriven.restaged [] (by simp) safe state ran
    "u2" uploaded current

-- `complete_multipart_upload` takes the `NoSuchUpload` of the aborted `u1` for success, and the
-- update matches, because the failed re-drive has stamped no new upload on the row.
theorem uploaded_without_object :
    ∃ state, run Redriven.settings (.initial 0 none) Redriven.held = some state ∧
      ¬ Staged state := by
  have returns : ((run Redriven.settings (.initial 0 none) Redriven.held).map fun state =>
      (state.row.status, state.row.uploadId, state.bucket.object)) =
        some (.uploaded, some "u1", none) := by decide
  obtain ⟨state, ran, row⟩ := Option.map_eq_some_iff.mp returns
  simp only [Prod.mk.injEq] at row
  obtain ⟨uploaded, current, gone⟩ := row
  refine ⟨state, ran, fun staged => ?_⟩
  exact absurd (gone.symm.trans (staged "u1" uploaded current)) (by simp)

end Phaze.Staging
