import Phaze.Shared.Ceilings
import Phaze.Shared.Guards

set_option autoImplicit false

/-!
# The parts of a staged upload

How `_presign_multipart_parts` (`services/cloud_staging.py`) cuts a file into parts,
and the URLs that `presign_upload_parts` (`services/s3_staging.py`) signs for them.
-/

namespace Phaze.Staging.Parts

open Phaze.Ceilings (Rounding ceil_div_le_iff ceil_div_le_comm ceil_round_div max_one_ceil_round_div)
open Phaze.Guards (mapM_ok mapM_error)

def s3MaxPartCount : Nat := 10000

def s3MaxObjectSizeBytes : Nat := 5 * 1024 ^ 4

def s3MaxPresignExpiresSec : Int := 604800

structure ControlSettings where
  s3MultipartPartSizeBytes : Nat
  s3PresignPutTtlSec : Int

structure FileRecord where
  id : String
  fileSize : Nat

structure BucketConfig where
  bucket : String

/-! ## `presign_upload_parts` -/

-- The arguments of `generate_presigned_url`.
structure SignRequest where
  bucket : String
  key : String
  uploadId : String
  partNumber : Nat
  expiresIn : Int
deriving DecidableEq

inductive SigningError where
  | clientError
  | other (error : String)
deriving DecidableEq

abbrev Signer := SignRequest → Except SigningError String

inductive PresignError where
  -- `refusing to presign {part_count} parts for {file_id}: exceeds S3's {S3_MAX_PART_COUNT}-part multipart limit`
  | refused (partCount : Nat) (fileId : String)
  -- `failed to presign upload parts for {file_id}`
  | failed (fileId : String)
  | raised (error : String)
deriving DecidableEq

def stagedObjectKey (fileId : String) : String := "phaze-staging/" ++ fileId

section Presign

variable (sign : Signer) (currentPutTtlSec : Int)

def signPart (fileId uploadId : String) (bucket : BucketConfig) (ttl : Int) (partNumber : Nat) :
    Except PresignError String :=
  match sign { bucket := bucket.bucket, key := stagedObjectKey fileId, uploadId, partNumber, expiresIn := ttl } with
  | .ok url => .ok url
  | .error .clientError => .error (.failed fileId)
  | .error (.other error) => .error (.raised error)

-- `currentPutTtlSec` is `current().s3_presign_put_ttl_sec`.
def presignUploadParts (fileId uploadId : String) (partCount : Nat) (bucket : BucketConfig)
    (expiresInSec : Option Int) : Except PresignError (List String) :=
  if s3MaxPartCount < partCount then .error (.refused partCount fileId)
  else
    let ttl := max 1 (min (expiresInSec.getD currentPutTtlSec) s3MaxPresignExpiresSec)
    (List.range' 1 partCount).mapM (signPart sign fileId uploadId bucket ttl)

/-! ## `_presign_multipart_parts` -/

structure PresignedParts where
  partSizeBytes : Nat
  partCount : Nat
  urls : List String
deriving DecidableEq

-- `_DEFAULT_PER_PART_TIMEOUT_SEC`, `_OUTER_TIMEOUT_BUFFER_SEC` and `_SAQ_JOB_TIMEOUT_MARGIN_SEC`.
def uploadFileSaqTimeoutSec (partCount : Nat) : Int := (600 + 30) * max 1 partCount + 30

def partSize (cfg : ControlSettings) (file : FileRecord) : Nat :=
  max cfg.s3MultipartPartSizeBytes ⌈(file.fileSize : ℚ) / s3MaxPartCount⌉₊

def partCount (cfg : ControlSettings) (file : FileRecord) : Nat :=
  max 1 ⌈(file.fileSize : ℚ) / partSize cfg file⌉₊

def presignMultipartParts (cfg : ControlSettings) (file : FileRecord) (uploadId : String) (bucket : BucketConfig) :
    Except PresignError PresignedParts :=
  let partSize := partSize cfg file
  let partCount := partCount cfg file
  let presignTtlSec := max cfg.s3PresignPutTtlSec (uploadFileSaqTimeoutSec partCount)
  (presignUploadParts sign currentPutTtlSec file.id uploadId partCount bucket (some presignTtlSec)).map fun urls =>
    { partSizeBytes := partSize, partCount := partCount, urls := urls }

end Presign

/-! ## The cut -/

section Cut

variable {cfg : ControlSettings} {file : FileRecord}

theorem le_partSize : cfg.s3MultipartPartSizeBytes ≤ partSize cfg file := le_max_left _ _

theorem one_le_partCount : 1 ≤ partCount cfg file := le_max_left _ _

theorem partSize_pos (floor : 1 ≤ cfg.s3MultipartPartSizeBytes) : 0 < partSize cfg file := floor.trans le_partSize

theorem partCount_le (floor : 1 ≤ cfg.s3MultipartPartSizeBytes) : partCount cfg file ≤ s3MaxPartCount := by
  have scaled : ⌈(file.fileSize : ℚ) / s3MaxPartCount⌉₊ ≤ partSize cfg file := le_max_right _ _
  have limited := (ceil_div_le_comm (by decide) (partSize_pos floor)).mp scaled
  exact max_le (by decide) limited

theorem fileSize_le (floor : 1 ≤ cfg.s3MultipartPartSizeBytes) :
    file.fileSize ≤ partCount cfg file * partSize cfg file := by
  have counted : ⌈(file.fileSize : ℚ) / partSize cfg file⌉₊ ≤ partCount cfg file := le_max_right _ _
  exact (ceil_div_le_iff (partSize_pos floor)).mp counted

-- The source divides in doubles, which have these numbers and more. Of a file that `_stage_file_to_s3`
-- lets through they make the same cut.
theorem rounded_cut (double : Rounding 53 53) (floor : 1 ≤ cfg.s3MultipartPartSizeBytes)
    (bounded : file.fileSize ≤ s3MaxObjectSizeBytes) :
    max cfg.s3MultipartPartSizeBytes ⌈double.round ((file.fileSize : ℚ) / s3MaxPartCount)⌉₊ = partSize cfg file ∧
      max 1 ⌈double.round ((file.fileSize : ℚ) / partSize cfg file)⌉₊ = partCount cfg file := by
  have representable : 2 * s3MaxObjectSizeBytes ≤ 2 ^ 53 := by decide
  have short : 2 * file.fileSize ≤ 2 ^ 53 := by omega
  constructor
  · rw [ceil_round_div double (by decide) short (by decide), partSize]
  · rw [max_one_ceil_round_div double (partSize_pos floor) short (by omega), partCount]

end Cut

/-! ## What is signed -/

-- The TTL of every URL, as `presign_upload_parts` clamps it.
def partTtl (cfg : ControlSettings) (file : FileRecord) : Int :=
  max 1 (min (max cfg.s3PresignPutTtlSec (uploadFileSaqTimeoutSec (partCount cfg file))) s3MaxPresignExpiresSec)

section Signed

variable {sign : Signer} {currentPutTtlSec : Int} {cfg : ControlSettings} {file : FileRecord} {uploadId : String}
  {bucket : BucketConfig}

variable (sign currentPutTtlSec uploadId bucket) in
theorem presignMultipartParts_eq (floor : 1 ≤ cfg.s3MultipartPartSizeBytes) :
    presignMultipartParts sign currentPutTtlSec cfg file uploadId bucket =
      ((List.range' 1 (partCount cfg file)).mapM (signPart sign file.id uploadId bucket (partTtl cfg file))).map
        (⟨partSize cfg file, partCount cfg file, ·⟩) := by
  rw [presignMultipartParts, presignUploadParts, if_neg (partCount_le floor).not_gt]
  rfl

theorem presigned_ok (floor : 1 ≤ cfg.s3MultipartPartSizeBytes) {presigned : PresignedParts}
    (yielded : presignMultipartParts sign currentPutTtlSec cfg file uploadId bucket = .ok presigned) :
    presigned.partSizeBytes = partSize cfg file ∧ presigned.partCount = partCount cfg file ∧
      List.Forall₂ (fun partNumber url => signPart sign file.id uploadId bucket (partTtl cfg file) partNumber = .ok url)
        (List.range' 1 (partCount cfg file)) presigned.urls := by
  rw [presignMultipartParts_eq sign currentPutTtlSec uploadId bucket floor] at yielded
  cases signed : (List.range' 1 (partCount cfg file)).mapM
      (signPart sign file.id uploadId bucket (partTtl cfg file)) with
  | error error => simp [signed, Except.map] at yielded
  | ok urls =>
    simp only [signed, Except.map, Except.ok.injEq] at yielded
    subst yielded
    exact ⟨rfl, rfl, mapM_ok.mp signed⟩

theorem presigned_error (floor : 1 ≤ cfg.s3MultipartPartSizeBytes) {error : PresignError}
    (raised : presignMultipartParts sign currentPutTtlSec cfg file uploadId bucket = .error error) :
    ∃ partNumber ∈ List.range' 1 (partCount cfg file),
      signPart sign file.id uploadId bucket (partTtl cfg file) partNumber = .error error := by
  rw [presignMultipartParts_eq sign currentPutTtlSec uploadId bucket floor] at raised
  cases signed : (List.range' 1 (partCount cfg file)).mapM
      (signPart sign file.id uploadId bucket (partTtl cfg file)) with
  | ok urls => simp [signed, Except.map] at raised
  | error cause =>
    simp only [signed, Except.map, Except.error.injEq] at raised
    exact raised ▸ mapM_error signed

theorem signPart_ne_refused {fileId refusedId : String} {ttl : Int} {partNumber count : Nat} :
    signPart sign fileId uploadId bucket ttl partNumber ≠ .error (.refused count refusedId) := by
  unfold signPart
  split <;> simp

theorem presigned_ne_refused (floor : 1 ≤ cfg.s3MultipartPartSizeBytes) (count : Nat) (fileId : String) :
    presignMultipartParts sign currentPutTtlSec cfg file uploadId bucket ≠ .error (.refused count fileId) := by
  intro refused
  obtain ⟨partNumber, -, raised⟩ := presigned_error floor refused
  exact signPart_ne_refused raised

end Signed

end Phaze.Staging.Parts
