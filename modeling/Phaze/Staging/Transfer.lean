import Mathlib.Data.List.DropRight
import Phaze.Shared.Chunks
import Phaze.Staging.Presign

set_option autoImplicit false

/-!
# The transfer of the parts

`_transfer_parts` (`tasks/s3_upload.py`): the agent PUTs the file slice by slice
to the URLs that the control plane has signed.
-/

namespace Phaze.Staging.Parts

open Phaze.Guards (mapM_ok mapM_returns)
open Phaze.Shared (slices flatten_slices mem_slices length_of_mem_dropLast_slices slices_eq_nil_iff)

abbrev Bytes := List UInt8

-- `Field(min_length=1)` and `Field(gt=0)` of the schema are the last two fields.
structure UploadFileS3Payload where
  fileId : String
  originalPath : String
  partUrls : List String
  partSizeBytes : Nat
  partUrls_ne_nil : partUrls ≠ []
  partSizeBytes_pos : 0 < partSizeBytes

structure Put where
  partNumber : Nat
  url : String
  content : Bytes
deriving DecidableEq

-- The response with its `ETag` header, if it has one, or what `wait_for` or the client raises.
inductive Answer where
  | response (statusCode : Nat) (text : List Char) (etag : Option (List Char))
  | raised (error : String)

abbrev Server := Put → Answer

structure UploadedPart where
  partNumber : Nat
  etag : List Char
  partNumber_pos : 1 ≤ partNumber
  etag_ne_nil : etag ≠ []

inductive TransferError where
  -- `upload_file_s3: cannot read original_path {original_path!r} for file_id={file_id}: {exc}`
  | unreadable (originalPath fileId cause : String)
  -- `upload_file_s3: part {part_number} PUT returned {status_code} for file_id={file_id}: {snippet}`
  | refused (partNumber statusCode : Nat) (fileId : String) (snippet : List Char)
  -- The `ValidationError` of an `UploadedPart`.
  | invalidPart (partNumber : Nat) (etag : List Char)
  | raised (error : String)

def UploadedPart.validate (partNumber : Nat) (etag : List Char) : Except TransferError UploadedPart :=
  if valid : 1 ≤ partNumber ∧ etag ≠ [] then .ok ⟨partNumber, etag, valid.1, valid.2⟩
  else .error (.invalidPart partNumber etag)

-- `strip('"')`
def stripQuotes (text : List Char) : List Char := (text.dropWhile (· = '"')).rdropWhile (· = '"')

def bodySnippetMax : Nat := 500

structure Transfer where
  puts : List Put
  result : Except TransferError (List UploadedPart)

section Transferring

variable (payload : UploadFileS3Payload) (server : Server)

def uploadedPart (put : Put) : Except TransferError UploadedPart :=
  match server put with
  | .raised error => .error (.raised error)
  | .response statusCode text etag =>
    if statusCode / 100 ≠ 2 then
      .error (.refused put.partNumber statusCode payload.fileId (text.take bodySnippetMax))
    else UploadedPart.validate put.partNumber (stripQuotes (etag.getD []))

-- The loop over the numbered URLs; `fh` is what is left to read.
def transferFrom : List (String × Nat) → Bytes → Transfer
  | [], _ => ⟨[], .ok []⟩
  | (url, partNumber) :: rest, fh =>
    let chunk := fh.take payload.partSizeBytes
    if chunk.isEmpty then ⟨[], .ok []⟩
    else
      let put : Put := ⟨partNumber, url, chunk⟩
      match uploadedPart payload server put with
      | .error error => ⟨[put], .error error⟩
      | .ok part =>
        let later := transferFrom rest (fh.drop payload.partSizeBytes)
        ⟨put :: later.puts, later.result.map (part :: ·)⟩

-- `opened` is what opening the resolved `original_path` comes to.
def transferParts (opened : Except String Bytes) : Transfer :=
  match opened with
  | .error cause => ⟨[], .error (.unreadable payload.originalPath payload.fileId cause)⟩
  | .ok content => transferFrom payload server (payload.partUrls.zipIdx 1) content

end Transferring

/-! ## Reading apart from sending -/

section Sending

variable (payload : UploadFileS3Payload) (server : Server)

def sendAll : List Put → Transfer
  | [] => ⟨[], .ok []⟩
  | put :: rest =>
    match uploadedPart payload server put with
    | .error error => ⟨[put], .error error⟩
    | .ok part => ⟨put :: (sendAll rest).puts, (sendAll rest).result.map (part :: ·)⟩

def plannedFrom (size : Nat) : List (String × Nat) → Bytes → List Put
  | [], _ => []
  | (url, partNumber) :: rest, fh =>
    if (fh.take size).isEmpty then []
    else ⟨partNumber, url, fh.take size⟩ :: plannedFrom size rest (fh.drop size)

def planned (content : Bytes) : List Put :=
  plannedFrom payload.partSizeBytes (payload.partUrls.zipIdx 1) content

theorem transferFrom_eq (targets : List (String × Nat)) (fh : Bytes) :
    transferFrom payload server targets fh = sendAll payload server (plannedFrom payload.partSizeBytes targets fh) := by
  induction targets generalizing fh with
  | nil => rfl
  | cons target rest ih =>
    simp only [transferFrom, plannedFrom]
    split
    next => rfl
    next => simp only [sendAll, ih]

theorem transferParts_eq (content : Bytes) :
    transferParts payload server (.ok content) = sendAll payload server (planned payload content) :=
  transferFrom_eq payload server (payload.partUrls.zipIdx 1) content

variable {payload server}

theorem sendAll_inOrder (puts : List Put) : (sendAll payload server puts).puts <+: puts := by
  induction puts with
  | nil => exact List.nil_prefix
  | cons put rest ih =>
    rw [sendAll]
    split
    next => simp
    next => simpa using ih

theorem sendAll_result (puts : List Put) :
    (sendAll payload server puts).result = puts.mapM (uploadedPart payload server) := by
  induction puts with
  | nil => rfl
  | cons put rest ih =>
    rw [sendAll, List.mapM_cons]
    split
    next error refused => rw [refused]; rfl
    next part accepted => rw [accepted, ih]; rfl

theorem sendAll_puts {puts : List Put} {parts : List UploadedPart}
    (returned : (sendAll payload server puts).result = .ok parts) : (sendAll payload server puts).puts = puts := by
  induction puts generalizing parts with
  | nil => rfl
  | cons put rest ih =>
    rw [sendAll] at returned ⊢
    split at returned
    next => cases returned
    next part accepted =>
      cases later : (sendAll payload server rest).result with
      | error error => simp [later, Except.map] at returned
      | ok parts => simp [ih later]

theorem uploadedPart_partNumber {put : Put} {part : UploadedPart} (accepted : uploadedPart payload server put = .ok part) :
    part.partNumber = put.partNumber := by
  unfold uploadedPart UploadedPart.validate at accepted
  split at accepted
  next => cases accepted
  next =>
    split at accepted
    next => cases accepted
    next =>
      split at accepted
      next => rw [← Except.ok.inj accepted]
      next => cases accepted

theorem sendAll_partNumbers {puts : List Put} {parts : List UploadedPart}
    (returned : (sendAll payload server puts).result = .ok parts) :
    parts.map UploadedPart.partNumber = puts.map Put.partNumber := by
  rw [sendAll_result, mapM_ok] at returned
  induction returned with
  | nil => rfl
  | cons accepted _ ih => rw [List.map_cons, List.map_cons, uploadedPart_partNumber accepted, ih]

-- What a transfer of `puts` comes to, whatever the server answers.
structure Sends (payload : UploadFileS3Payload) (server : Server) (puts : List Put) (transfer : Transfer) : Prop where
  inOrder : transfer.puts <+: puts
  returns_iff : (∃ parts, transfer.result = .ok parts) ↔ ∀ put ∈ puts, ∃ part, uploadedPart payload server put = .ok part
  reported : ∀ parts, transfer.result = .ok parts →
    transfer.puts = puts ∧ parts.map UploadedPart.partNumber = puts.map Put.partNumber

theorem sendAll_sends (puts : List Put) : Sends payload server puts (sendAll payload server puts) where
  inOrder := sendAll_inOrder puts
  returns_iff := by rw [sendAll_result, mapM_returns]
  reported := fun _ returned => ⟨sendAll_puts returned, sendAll_partNumbers returned⟩

end Sending

/-! ## What the parts carry -/

structure Carries (payload : UploadFileS3Payload) (content : Bytes) (puts : List Put) : Prop where
  numbered : puts.map Put.partNumber = List.range' 1 puts.length
  addressed : puts.map Put.url = payload.partUrls.take puts.length
  whole : (puts.map Put.content).flatten = content
  full : ∀ put ∈ puts.dropLast, put.content.length = payload.partSizeBytes
  sized : ∀ put ∈ puts, put.content ≠ [] ∧ put.content.length ≤ payload.partSizeBytes
  none_iff : puts = [] ↔ content = []

section Planned

theorem plannedFrom_contents (size : Nat) (targets : List (String × Nat)) (fh : Bytes) :
    (plannedFrom size targets fh).map Put.content = slices size targets.length fh := by
  induction targets generalizing fh with
  | nil => rfl
  | cons target rest ih =>
    simp only [plannedFrom, List.length_cons, slices]
    split
    · rfl
    · rw [List.map_cons, ih]

theorem plannedFrom_targets (size : Nat) (targets : List (String × Nat)) (fh : Bytes) :
    (plannedFrom size targets fh).map (fun put => (put.url, put.partNumber)) <+: targets := by
  induction targets generalizing fh with
  | nil => simp [plannedFrom]
  | cons target rest ih =>
    simp only [plannedFrom]
    split
    · exact List.nil_prefix
    · rw [List.map_cons, List.prefix_cons_inj]
      exact ih _

variable (payload : UploadFileS3Payload) (content : Bytes)

theorem planned_contents :
    (planned payload content).map Put.content = slices payload.partSizeBytes payload.partUrls.length content := by
  rw [planned, plannedFrom_contents, List.length_zipIdx]

theorem planned_start :
    (planned payload content).map (fun put => (put.url, put.partNumber)) <+: payload.partUrls.zipIdx 1 :=
  plannedFrom_targets payload.partSizeBytes (payload.partUrls.zipIdx 1) content

theorem planned_targets : (planned payload content).map (fun put => (put.url, put.partNumber)) =
    (payload.partUrls.zipIdx 1).take (planned payload content).length := by
  simpa using List.prefix_iff_eq_take.mp (planned_start payload content)

theorem planned_numbers :
    (planned payload content).map Put.partNumber = List.range' 1 (planned payload content).length := by
  have shorter : (planned payload content).length ≤ payload.partUrls.length := by
    simpa using (planned_start payload content).length_le
  calc (planned payload content).map Put.partNumber
      = ((planned payload content).map fun put => (put.url, put.partNumber)).map Prod.snd := by rw [List.map_map]; rfl
    _ = (List.range' 1 payload.partUrls.length).take (planned payload content).length := by
      rw [planned_targets, List.map_take, List.zipIdx_map_snd]
    _ = List.range' 1 (planned payload content).length := List.take_range'_of_length_ge shorter

theorem planned_urls :
    (planned payload content).map Put.url = payload.partUrls.take (planned payload content).length := by
  calc (planned payload content).map Put.url
      = ((planned payload content).map fun put => (put.url, put.partNumber)).map Prod.fst := by rw [List.map_map]; rfl
    _ = payload.partUrls.take (planned payload content).length := by
      rw [planned_targets, List.map_take, List.zipIdx_map_fst]

-- Bytes past the last URL's slice are never read.
theorem planned_whole : ((planned payload content).map Put.content).flatten =
    content.take (payload.partUrls.length * payload.partSizeBytes) := by
  rw [planned_contents, flatten_slices]

theorem planned_carries (covered : content.length ≤ payload.partUrls.length * payload.partSizeBytes) :
    Carries payload content (planned payload content) where
  numbered := planned_numbers payload content
  addressed := planned_urls payload content
  whole := by rw [planned_whole, List.take_of_length_le covered]
  full := by
    intro put member
    have sliced : put.content ∈ (slices payload.partSizeBytes payload.partUrls.length content).dropLast := by
      rw [← planned_contents, ← List.map_dropLast]
      exact List.mem_map_of_mem member
    exact length_of_mem_dropLast_slices sliced
  sized := by
    intro put member
    have sliced : put.content ∈ slices payload.partSizeBytes payload.partUrls.length content := by
      rw [← planned_contents]
      exact List.mem_map_of_mem member
    exact mem_slices sliced
  none_iff := by
    rw [← List.map_eq_nil_iff (f := Put.content), planned_contents]
    exact slices_eq_nil_iff payload.partSizeBytes_pos (List.length_pos_iff.mpr payload.partUrls_ne_nil)

theorem of_mem_zipIdx {signed : Nat → String → Prop} {start count : Nat} {urls : List String}
    (each : List.Forall₂ signed (List.range' start count) urls) :
    ∀ target ∈ urls.zipIdx start, signed target.2 target.1 := by
  induction urls generalizing start count with
  | nil => simp
  | cons url rest ih =>
    cases count with
    | zero => cases each
    | succ count =>
      rw [List.range'_succ, List.forall₂_cons] at each
      intro target member
      rcases List.mem_cons.mp member with rfl | later
      · exact each.1
      · exact ih each.2 target later

theorem planned_signed {signed : Nat → String → Prop} {count : Nat}
    (each : List.Forall₂ signed (List.range' 1 count) payload.partUrls) :
    ∀ put ∈ planned payload content, signed put.partNumber put.url := by
  intro put member
  have target := (planned_start payload content).subset (List.mem_map_of_mem member)
  exact of_mem_zipIdx each (put.url, put.partNumber) target

end Planned

/-! ## From the cut to the object -/

theorem presigned_covers {sign : Signer} {currentPutTtlSec : Int} {cfg : ControlSettings} {file : FileRecord}
    {uploadId : String} {bucket : BucketConfig} {presigned : PresignedParts} {payload : UploadFileS3Payload}
    (floor : 1 ≤ cfg.s3MultipartPartSizeBytes)
    (yielded : presignMultipartParts sign currentPutTtlSec cfg file uploadId bucket = .ok presigned)
    (urls : payload.partUrls = presigned.urls) (size : payload.partSizeBytes = presigned.partSizeBytes) :
    file.fileSize ≤ payload.partUrls.length * payload.partSizeBytes := by
  obtain ⟨sized, -, each⟩ := presigned_ok floor yielded
  have counted := each.length_eq
  rw [List.length_range'] at counted
  rw [urls, size, sized, ← counted]
  exact fileSize_le floor

theorem parts_carry_the_content (sign : Signer) (currentPutTtlSec : Int) (cfg : ControlSettings) (file : FileRecord)
    (uploadId : String) (bucket : BucketConfig) (floor : 1 ≤ cfg.s3MultipartPartSizeBytes) :
    cfg.s3MultipartPartSizeBytes ≤ partSize cfg file ∧
    1 ≤ partCount cfg file ∧ partCount cfg file ≤ s3MaxPartCount ∧
    partCount cfg file = max 1 ⌈(file.fileSize : ℚ) / partSize cfg file⌉₊ ∧
    (∀ count fileId, presignMultipartParts sign currentPutTtlSec cfg file uploadId bucket ≠ .error (.refused count fileId)) ∧
    (∀ error, presignMultipartParts sign currentPutTtlSec cfg file uploadId bucket = .error error →
      ∃ partNumber ∈ List.range' 1 (partCount cfg file),
        signPart sign file.id uploadId bucket (partTtl cfg file) partNumber = .error error) ∧
    ∀ presigned, presignMultipartParts sign currentPutTtlSec cfg file uploadId bucket = .ok presigned →
      presigned.partSizeBytes = partSize cfg file ∧ presigned.partCount = partCount cfg file ∧
      presigned.urls.length = partCount cfg file ∧
      ∀ payload : UploadFileS3Payload, payload.partUrls = presigned.urls →
        payload.partSizeBytes = presigned.partSizeBytes →
        ∀ content : Bytes, content.length ≤ file.fileSize →
          ∃ puts, Carries payload content puts ∧
            (∀ put ∈ puts, signPart sign file.id uploadId bucket (partTtl cfg file) put.partNumber = .ok put.url) ∧
            ∀ server, Sends payload server puts (transferParts payload server (.ok content)) := by
  refine ⟨le_partSize, one_le_partCount, partCount_le floor, rfl, ?_, ?_, ?_⟩
  · exact presigned_ne_refused floor
  · intro error raised
    exact presigned_error floor raised
  · intro presigned yielded
    obtain ⟨sized, counted, each⟩ := presigned_ok floor yielded
    refine ⟨sized, counted, by simpa using each.length_eq.symm, ?_⟩
    intro payload urls size content within
    refine ⟨planned payload content, ?_, ?_, ?_⟩
    · exact planned_carries payload content (within.trans (presigned_covers floor yielded urls size))
    · exact planned_signed payload content (urls ▸ each)
    · intro server
      rw [transferParts_eq]
      exact sendAll_sends _

-- Ten bytes in parts of four, at URLs that are the part numbers.
def tenBytes : FileRecord := { id := "f", fileSize := 10 }

def partsOfFour : ControlSettings := { s3MultipartPartSizeBytes := 4, s3PresignPutTtlSec := 3600 }

def numberedUrls : Signer := fun request => .ok (toString request.partNumber)

def threeParts : UploadFileS3Payload where
  fileId := "f"
  originalPath := "/f"
  partUrls := ["1", "2", "3"]
  partSizeBytes := 4
  partUrls_ne_nil := by decide
  partSizeBytes_pos := by decide

theorem tenBytes_cut : partSize partsOfFour tenBytes = 4 ∧ partCount partsOfFour tenBytes = 3 := by
  have size : partSize partsOfFour tenBytes = 4 := by
    norm_num [partSize, partsOfFour, tenBytes, s3MaxPartCount, Nat.ceil_eq_iff]
  refine ⟨size, ?_⟩
  rw [partCount, size]
  norm_num [tenBytes, Nat.ceil_eq_iff]

theorem ten_bytes_arrive :
    Carries threeParts [0, 1, 2, 3, 4, 5, 6, 7, 8, 9]
      (transferParts threeParts (fun _ => .response 200 [] (some ['e'])) (.ok [0, 1, 2, 3, 4, 5, 6, 7, 8, 9])).puts := by
  obtain ⟨-, -, -, -, -, -, delivered⟩ :=
    parts_carry_the_content numberedUrls 3600 partsOfFour tenBytes "u" { bucket := "b" } (by decide)
  have presigned : presignMultipartParts numberedUrls 3600 partsOfFour tenBytes "u" { bucket := "b" } =
      .ok ⟨4, 3, ["1", "2", "3"]⟩ := by
    rw [presignMultipartParts_eq _ _ _ _ (by decide), tenBytes_cut.1, tenBytes_cut.2]
    rfl
  obtain ⟨-, -, -, carried⟩ := delivered _ presigned
  obtain ⟨puts, carries, -, sent⟩ := carried threeParts rfl rfl [0, 1, 2, 3, 4, 5, 6, 7, 8, 9] (by decide)
  rw [((sent fun _ => .response 200 [] (some ['e'])).reported _ rfl).1]
  exact carries

end Phaze.Staging.Parts
