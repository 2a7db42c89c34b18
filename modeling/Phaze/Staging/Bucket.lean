import Mathlib.Logic.Function.Basic

/-!
# The staging bucket of one file

`services/s3_staging.py` on the one key `staged_object_key` gives a file. Every
staging generation of the file opens a multipart upload of its own, and all of
them assemble into that key.
-/

set_option autoImplicit false

namespace Phaze.Staging

abbrev UploadId := String

-- A closed upload was assembled or aborted. S3 answers `NoSuchUpload` for both, and for an id
-- it never issued.
inductive Upload where
  | unknown
  | opened
  | assembled
  | aborted
deriving DecidableEq, Repr

structure Bucket where
  uploads : UploadId → Upload
  -- The object at the key, named by the upload it was assembled from.
  object : Option UploadId

-- What an S3 call comes to: it takes effect and returns, it fails before it takes effect, or
-- it takes effect and the answer is lost.
inductive Answer where
  | ok
  | failed
  | lost
deriving DecidableEq, Repr

def Answer.happened : Answer → Bool
  | .failed => false
  | _ => true

inductive Call where
  | create (id : UploadId)
  | complete (id : UploadId)
  | abort (id : UploadId)
  | deleteObject
deriving DecidableEq, Repr

namespace Bucket

def empty : Bucket :=
  { uploads := fun _ => .unknown, object := none }

-- `create_multipart_upload`, `complete_multipart_upload`, `abort_multipart_upload` and
-- `delete_staged_object`. Completing or aborting an upload that is not open is `NoSuchUpload`,
-- which both take as success.
def call (bucket : Bucket) : Call → Bucket
  | .create id => { bucket with uploads := Function.update bucket.uploads id .opened }
  | .complete id =>
    if bucket.uploads id = .opened then
      { uploads := Function.update bucket.uploads id .assembled, object := some id }
    else
      bucket
  | .abort id =>
    if bucket.uploads id = .opened then
      { bucket with uploads := Function.update bucket.uploads id .aborted }
    else
      bucket
  | .deleteObject => { bucket with object := none }

def attempt (bucket : Bucket) (answer : Answer) (call : Call) : Bucket :=
  if answer.happened then bucket.call call else bucket

/-! ## How an upload moves

From `unknown` to `opened` to one of `assembled` and `aborted`, and no further.
-/

variable {bucket : Bucket} {answer : Answer} {call : Call} {id : UploadId}

-- The effect of a call on the one upload `id`.
def after (id : UploadId) (upload : Upload) : Call → Upload
  | .create other => if other = id then .opened else upload
  | .complete other => if other = id ∧ upload = .opened then .assembled else upload
  | .abort other => if other = id ∧ upload = .opened then .aborted else upload
  | .deleteObject => upload

theorem call_uploads : (bucket.call call).uploads id = after id (bucket.uploads id) call := by
  cases call with
  | create other => by_cases same : id = other <;> simp [Bucket.call, after, same, Ne.symm]
  | complete other =>
    by_cases same : id = other <;> by_cases open_ : bucket.uploads other = .opened <;>
      simp [Bucket.call, after, same, open_, Ne.symm]
  | abort other =>
    by_cases same : id = other <;> by_cases open_ : bucket.uploads other = .opened <;>
      simp [Bucket.call, after, same, open_, Ne.symm]
  | deleteObject => rfl

theorem attempt_uploads : (bucket.attempt answer call).uploads id =
    if answer.happened then after id (bucket.uploads id) call else bucket.uploads id := by
  unfold attempt
  split
  · exact call_uploads
  · rfl

theorem known_attempt (known : bucket.uploads id ≠ .unknown) :
    (bucket.attempt answer call).uploads id ≠ .unknown := by
  rw [attempt_uploads]
  cases call <;> grind [after]

theorem closed_attempt (closed : bucket.uploads id ≠ .opened) (other : call ≠ .create id) :
    (bucket.attempt answer call).uploads id ≠ .opened := by
  rw [attempt_uploads]
  cases call <;> grind [after]

theorem closed_complete : (bucket.attempt .ok (.complete id)).uploads id ≠ .opened := by
  rw [attempt_uploads]
  grind [after, Answer.happened]

theorem assembled_attempt (assembled : bucket.uploads id = .assembled) (other : call ≠ .create id) :
    (bucket.attempt answer call).uploads id = .assembled := by
  rw [attempt_uploads]
  cases call <;> grind [after]

theorem of_assembled_attempt (assembled : (bucket.attempt answer call).uploads id = .assembled) :
    bucket.uploads id = .assembled ∨
      answer.happened = true ∧ call = .complete id ∧ bucket.uploads id = .opened := by
  rw [attempt_uploads] at assembled
  cases call <;> grind [after]

theorem opened_create : (bucket.attempt .ok (.create id)).uploads id = .opened := by
  rw [attempt_uploads]
  simp [after, Answer.happened]

theorem complete_object :
    (bucket.attempt answer (.complete id)).object =
      if answer.happened = true ∧ bucket.uploads id = .opened then some id else bucket.object := by
  unfold attempt Bucket.call
  grind

theorem deleteObject_object :
    (bucket.attempt answer .deleteObject).object =
      if answer.happened then none else bucket.object := by
  unfold attempt Bucket.call
  grind

theorem abort_object : (bucket.attempt answer (.abort id)).object = bucket.object := by
  unfold attempt Bucket.call
  grind

theorem create_object : (bucket.attempt answer (.create id)).object = bucket.object := by
  unfold attempt Bucket.call
  grind

theorem of_object_attempt (present : (bucket.attempt answer call).object = some id) :
    bucket.object = some id ∨ (bucket.attempt answer call).uploads id = .assembled := by
  cases call with
  | create other => exact Or.inl (create_object ▸ present)
  | complete other =>
    rw [complete_object] at present
    split at present
    next happened =>
      obtain rfl := Option.some.inj present
      exact Or.inr (by simp [attempt_uploads, after, happened])
    next => exact Or.inl present
  | abort other => exact Or.inl (abort_object ▸ present)
  | deleteObject =>
    rw [deleteObject_object] at present
    split at present
    · cases present
    · exact Or.inl present

end Bucket

end Phaze.Staging
