import Phaze.Staging.Assembly
import Mathlib.Tactic.Push
import Mathlib.Tactic.Set

/-!
# The three steps that break the promise

None of them is excused: after such a step the promise is broken right away, or
it is once a late copy of the success callback has been served.
-/

set_option autoImplicit false

namespace Phaze.Staging

-- Nobody has the row locked, and the process is at the given stage.
structure Alone (state : State) (process : ProcessId) (stage : Stage) (row : CloudJob)
    (bucket : Bucket) : Prop where
  row : state.row = row
  draft : state.draft = none
  bucket : state.bucket = bucket
  process : state.processes process = ⟨stage, true⟩

section Breaking

variable {settings : Settings} {state : State} {process : ProcessId} {row : CloudJob}
  {bucket : Bucket} {upload : UploadId}

theorem alone_start (parts : List (Nat × String)) (state : State) :
    ∃ process final, run settings state
        [.crash process, .start process (.uploaded parts) true] = some final ∧
      Alone final process (.uploadedRead parts) state.row state.bucket := by
  set process := (state.draft.map Prod.fst).getD 0 with writer
  set freed := state.apply process (.rollback .done) with freedDefined
  refine ⟨process, { freed with
    processes := Function.update freed.processes process ⟨.uploadedRead parts, true⟩ }, ?_, rfl, ?_,
    rfl, ?_⟩
  · have idle : (freed.processes process).stage = .done := by
      rw [freedDefined, apply_stage, if_pos rfl]
      rfl
    simp [run, step, ← freedDefined, idle, Handler.entry]
  · cases drafted : state.draft <;>
      simp [freedDefined, State.apply, State.endTransaction, State.goto, drafted, writer]
  · simp

theorem alone_read {parts : List (Nat × String)} (nonempty : parts ≠ [])
    (uploading : row.status = .uploading) (current : row.uploadId = some upload)
    (alone : Alone state process (.uploadedRead parts) row bucket) :
    ∃ final, step settings state (.resume process .ran) = some final ∧
      Alone final process (.completing upload) row bucket := by
  obtain ⟨rfl, draft, rfl, here⟩ := alone
  refine ⟨state.apply process (.rollback (.completing upload)), ?_, rfl, ?_, rfl, ?_⟩
  · simp [step, next, here, uploadedRead, uploadIdToComplete, uploading, current, nonempty]
  · simp [State.apply, State.endTransaction, State.goto, draft]
  · simp [State.apply, State.endTransaction, State.goto, here]

-- S3 answers `NoSuchUpload`, and the handler goes on.
theorem alone_complete (closed : bucket.uploads upload ≠ .opened)
    (alone : Alone state process (.completing upload) row bucket) :
    ∃ final, step settings state (.resume process (.answered .ok)) = some final ∧
      Alone final process (.completed upload) row bucket := by
  obtain ⟨rfl, draft, rfl, here⟩ := alone
  refine ⟨state.apply process (.s3 (.complete upload) .ok (.completed upload)), ?_, rfl, draft,
    ?_, ?_⟩
  · simp [step, next, here, Answer.andThen]
  · simp [State.apply, State.goto, Bucket.attempt, Bucket.call, Answer.happened, closed]
  · simp [State.apply, State.goto, here]

theorem alone_flip (uploading : row.status = .uploading) (current : row.uploadId = some upload)
    (alone : Alone state process (.completed upload) row bucket) :
    ∃ final, run settings state [.resume process .ran, .resume process (.committed true)] =
        some final ∧
      final.row = { row with status := .uploaded } ∧ final.bucket = bucket := by
  obtain ⟨rfl, draft, rfl, here⟩ := alone
  refine ⟨(state.apply process (.write { state.row with status := .uploaded } .flipped)).apply
    process (.commit none .done), ?_, ?_, rfl⟩
  · simp [run, step, next, here, State.rowFree, draft, uploadedFlip, uploading, current,
      State.apply, State.goto, clearedLedger]
  · simp [State.apply, State.goto, State.endTransaction, State.version]

theorem run_append {before after : List Action} {middle : State}
    (ran : run settings state before = some middle) :
    run settings state (before ++ after) = run settings middle after := by
  induction before generalizing state with
  | nil =>
    obtain rfl := Option.some.inj ran
    rfl
  | cons action rest ih =>
    obtain ⟨next, stepped, ran⟩ := Option.bind_eq_some_iff.mp ran
    simp only [List.cons_append, run, stepped, Option.bind_some]
    exact ih ran

-- A row that is UPLOADING with a closed upload, and no object of that upload: one more success
-- callback flips it.
theorem late_callback (uploading : state.row.status = .uploading)
    (current : state.row.uploadId = some upload)
    (closed : state.bucket.uploads upload ≠ .opened) (gone : state.bucket.object ≠ some upload) :
    ∃ more final, run settings state more = some final ∧ ¬ Staged final := by
  obtain ⟨process, started, ran, alone⟩ := @alone_start settings [(1, "")] state
  obtain ⟨reading, read, alone⟩ := @alone_read settings _ _ _ _ _ _ (by simp) uploading current alone
  obtain ⟨completed, complete, alone⟩ := @alone_complete settings _ _ _ _ _ closed alone
  obtain ⟨final, flip, row, bucket⟩ := @alone_flip settings _ _ _ _ _ uploading current alone
  refine ⟨_ ++ (.resume process .ran :: .resume process (.answered .ok) ::
    [.resume process .ran, .resume process (.committed true)]), final,
    (run_append ran).trans ?_, ?_⟩
  · rw [run, read, Option.bind_some, run, complete, Option.bind_some]
    exact flip
  · intro staged
    refine gone (bucket ▸ staged upload ?_ ?_)
    · rw [row]
    · rw [row]
      exact current

theorem lost_object {lost : State} (sound : Sound state) (assembled : RowAssembled state)
    (row : lost.row = state.row)
    (closed : ∀ id, state.bucket.uploads id = .assembled → lost.bucket.uploads id = .assembled)
    (gone : ∀ id, state.row.uploadId = some id → lost.bucket.object ≠ some id) :
    ∃ more final, run settings lost more = some final ∧ ¬ Staged final := by
  obtain ⟨staging, upload, current, present⟩ := assembled
  have isGone := gone upload current
  cases status : state.row.status with
  | uploaded =>
    refine ⟨[], lost, rfl, fun staged => isGone (staged upload ?_ ?_)⟩
    · rw [row, status]
    · rw [row, current]
  | uploading =>
    refine late_callback (row ▸ status) (row ▸ current) ?_ isGone
    simp [closed upload (sound.object upload present)]
  | _ =>
    rw [status] at staging
    cases staging

theorem committed_flip {draft : CloudJob} (sound : Sound state)
    (isDraft : draft = { state.row with status := .uploaded })
    (current : state.row.uploadId = some upload)
    (aborted : state.bucket.uploads upload = .aborted) :
    ∃ more final,
      run settings (state.apply process (.write draft .flipped)) more = some final ∧
        ¬ Staged final := by
  set flipped := state.apply process (.write draft .flipped) with flippedDefined
  have stage : (flipped.processes process).stage = .flipped := by
    rw [flippedDefined, apply_stage, if_pos rfl]
    rfl
  have drafted : flipped.version process = draft := by
    simp [flippedDefined, State.apply, State.goto, State.version]
  refine ⟨[.resume process (.committed true)], flipped.apply process (.commit none .done), ?_, ?_⟩
  · simp [run, step, next, stage, clearedLedger]
  · intro staged
    have object : state.bucket.object = some upload := by
      refine staged upload ?_ ?_
      · exact (congrArg CloudJob.status (drafted.trans isDraft))
      · exact (congrArg CloudJob.uploadId (drafted.trans isDraft)).trans current
    exact absurd ((sound.object upload object).symm.trans aborted) (by simp)

theorem breaking_step {action : Action} {next : State} (sound : Sound state)
    (stepped : step settings state action = some next) (breaking : ¬ Safe settings state action) :
    ∃ more final, run settings next more = some final ∧ ¬ Staged final := by
  cases action with
  | start process handler resolves => exact absurd trivial breaking
  | crash process => exact absurd trivial breaking
  | resume process event =>
    obtain ⟨effect, asked, rfl⟩ := Option.map_eq_some_iff.mp stepped
    have broken : ¬ SafeEffect state effect := by
      intro safe
      refine breaking fun other same => ?_
      obtain rfl := Option.some.inj (asked.symm.trans same)
      exact safe
    unfold SafeEffect at broken
    split at broken
    next completed answer stage =>
      push Not at broken
      obtain ⟨happened, opened, different, assembled⟩ := broken
      refine lost_object sound assembled rfl ?_ ?_
      · intro id before
        exact Bucket.assembled_attempt before (by simp)
      · intro id current
        change (state.bucket.attempt answer (.complete completed)).object ≠ some id
        rw [Bucket.complete_object, if_pos ⟨happened, opened⟩]
        rintro same
        exact different (same ▸ current)
    next answer stage =>
      push Not at broken
      obtain ⟨happened, assembled⟩ := broken
      refine lost_object sound assembled rfl ?_ ?_
      · intro id before
        exact Bucket.assembled_attempt before (by simp)
      · intro id current
        change (state.bucket.attempt answer .deleteObject).object ≠ some id
        rw [Bucket.deleteObject_object, if_pos happened]
        simp
    next draft stage =>
      push Not at broken
      obtain ⟨rfl, upload, current, aborted⟩ := broken
      obtain ⟨-, -, ⟨-, isDraft⟩, -, -⟩ := allowed_next asked
      exact committed_flip sound isDraft current aborted
    next => exact absurd trivial broken

theorem breaking_reached {attempts : Nat} {ledger : Option Nat} {before : List Action}
    {action : Action} {next : State}
    (ran : run settings (State.initial attempts ledger) before = some state)
    (stepped : step settings state action = some next) (breaking : ¬ Safe settings state action) :
    ∃ more final, run settings (State.initial attempts ledger) (before ++ action :: more) =
        some final ∧ ¬ Staged final := by
  have sound : Sound state := run_sound before (Sound.initial attempts ledger) ran
  obtain ⟨more, final, continued, broken⟩ := breaking_step sound stepped breaking
  refine ⟨more, final, (run_append ran).trans ?_, broken⟩
  simp only [run, stepped, Option.bind_some]
  exact continued

end Breaking

end Phaze.Staging
