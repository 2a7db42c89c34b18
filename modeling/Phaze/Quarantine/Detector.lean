import Phaze.Quarantine.Review
import Phaze.Shared.PurePath
import Phaze.Shared.Runs

set_option autoImplicit false

/-!
# The junk review queue

The companions of every agent with their stored features and links, and the `companion_junk_review` rows:
the detector, the decisions on a content group (`services/companion_junk_review.py`), the claims and the reports
(`services/junk_quarantine.py`), and the runs that derive the links anew (`services/companion.py`).

`files` are companion rows; of a media row only its agent and its path are read.
-/

namespace Phaze.Quarantine.Detector

open Shared

abbrev FileId := Nat
abbrev ReviewId := Nat

inductive JunkClass where
  | empty
  | allNul
  | knownStamp
  | siteAd
deriving DecidableEq

-- `JunkReviewReason`
inductive JunkReviewReason where
  | junk (junkClass : JunkClass)
  | duplicate
deriving DecidableEq

/-! ## The rows -/

structure FileRecord (Hash : Type) where
  id : FileId
  agentId : Text
  originalPath : Text
  sha256Hash : Hash
deriving DecidableEq

structure CompanionContentFeatures (Hash : Type) where
  fingerprint : Hash
  junkClass : Option JunkClass
  contentJunkClass : Option JunkClass
  truncated : Bool
deriving DecidableEq

structure CompanionJunkReview (Hash : Type) where
  id : ReviewId
  agentId : Text
  originalPath : Text
  sha256Hash : Hash
  fileId : FileId
  reason : JunkReviewReason
  status : JunkReviewStatus
deriving DecidableEq

structure State (Hash : Type) where
  files : List (FileRecord Hash)
  -- Every companion row there has been.
  existed : List (FileRecord Hash)
  -- `available_companion_clause`: neither `missing_at` nor `companion_ambiguous_at` is set.
  available : FileId → Bool
  features : FileId → Option (CompanionContentFeatures Hash)
  -- Whether the companion has a `file_companions` row.
  linked : FileId → Bool
  -- The agent and the path of every media row.
  media : List (Text × Text)
  -- In the order of their ids.
  reviews : List (CompanionJunkReview Hash)
  nextReview : ReviewId

-- What `refresh_agent_stamps` decided on the way: the contents it looked at, and the stamps among them.
structure Stamps (Hash : Type) where
  rechecked : List Hash
  stamped : List Hash
deriving DecidableEq

/-! ## Why a companion is never linked -/

-- `path.rsplit("/", 1)[0]`
def mediaFolder (path : Text) : Text :=
  match path.rdropWhile (· ≠ '/') with
  | [] => path
  | upTo => upTo.dropLast

def quarantineDirname : Text := ".phaze-quarantine".toList

def isQuarantined (path : Text) : Bool :=
  quarantineDirname ∈ PurePath.parts path

-- `_PER_FILE_JUNK`
def JunkClass.perFile : JunkClass → Bool
  | .empty | .allNul | .siteAd => true
  | .knownStamp => false

def effectiveJunkClass (contentJunkClass : Option JunkClass) (stamp : Bool) : Option JunkClass :=
  if contentJunkClass = some .empty ∨ contentJunkClass = some .allNul then contentJunkClass
  else if stamp then some .knownStamp
  else contentJunkClass

def neverLinkReason (junkClass : Option JunkClass) (folderHasMedia identicalCopyLinked : Bool) :
    Option JunkReviewReason :=
  match junkClass with
  | some junkClass => some (.junk junkClass)
  | none => if identicalCopyLinked && !folderHasMedia then some .duplicate else none

section Detector

variable {Hash : Type} [DecidableEq Hash]

-- The class of a companion, as `_reasons` and `linking_junk_class` take it.
def junkClassOf (stamps : Stamps Hash) (sha256Hash : Hash) (features : CompanionContentFeatures Hash) :
    Option JunkClass :=
  let junkClass :=
    if sha256Hash ∈ stamps.rechecked then effectiveJunkClass features.contentJunkClass (sha256Hash ∈ stamps.stamped)
    else features.junkClass
  if features.truncated && junkClass.any JunkClass.perFile then none else junkClass

namespace State

variable (state : State Hash)

-- `CompanionContentFeatures.fingerprint == FileRecord.sha256_hash` on an available row.
def fresh (file : FileRecord Hash) : Bool :=
  state.available file.id && (state.features file.id).any fun features => features.fingerprint = file.sha256Hash

def folderHasMedia (agentId path : Text) : Bool :=
  state.media.any fun media => media.1 = agentId && mediaFolder media.2 = mediaFolder path

-- `linked_copy_fingerprints`
def linkedCopy (agentId : Text) (sha256Hash : Hash) : Bool :=
  state.files.any fun file =>
    file.agentId = agentId && file.sha256Hash = sha256Hash && state.fresh file && state.linked file.id

-- `_reasons` of one row of `_fresh_companions`.
def reason (stamps : Stamps Hash) (file : FileRecord Hash) : Option JunkReviewReason :=
  match state.features file.id with
  | some features =>
      if !state.fresh file || isQuarantined file.originalPath then none
      else
        match neverLinkReason (junkClassOf stamps file.sha256Hash features)
            (state.folderHasMedia file.agentId file.originalPath)
            (state.linkedCopy file.agentId file.sha256Hash) with
        | some .duplicate => if state.linked file.id then none else some .duplicate
        | reason => reason
  | none => none

end State

def CompanionJunkReview.live (row : CompanionJunkReview Hash) : Bool := !row.status.terminal

def CompanionJunkReview.names (row : CompanionJunkReview Hash) (file : FileRecord Hash) : Bool :=
  row.agentId = file.agentId && row.originalPath = file.originalPath && row.sha256Hash = file.sha256Hash

/-! ## The detector -/

variable (state : State Hash)

-- `_reappeared`: the reason of the first row the file was quarantined for.
def reappeared (file : FileRecord Hash) : Option JunkReviewReason :=
  if state.available file.id && !isQuarantined file.originalPath then
    (state.reviews.find? fun row => row.names file && row.status = .quarantined).map CompanionJunkReview.reason
  else none

def rejectedHash (sha256Hash : Hash) : Bool :=
  state.reviews.any fun row => row.sha256Hash = sha256Hash && row.status = .rejected

def candidateReason (stamps : Stamps Hash) (file : FileRecord Hash) : Option JunkReviewReason :=
  if rejectedHash state file.sha256Hash then none
  else (state.reason stamps file).or (reappeared state file)

def candidates (agentId : Text) (stamps : Stamps Hash) : List (FileRecord Hash × JunkReviewReason) :=
  (state.files.filter (·.agentId = agentId)).filterMap fun file =>
    (candidateReason state stamps file).map fun reason => (file, reason)

-- `_live_rows` outer-joins the file of the row.
def visible (row : CompanionJunkReview Hash) : Bool :=
  state.files.all fun file => file.id ≠ row.fileId || state.available file.id

def refreshed (agentId : Text) (stamps : Stamps Hash) (row : CompanionJunkReview Hash) :
    Option (CompanionJunkReview Hash) :=
  if row.agentId = agentId && row.status = .pending && visible state row then
    ((candidates state agentId stamps).find? fun candidate => row.names candidate.1).map fun candidate =>
      { row with fileId := candidate.1.id, reason := candidate.2 }
  else some row

-- The identities without a live row; one that `_live_rows` leaves out is in the partial index all the same.
def unlisted (agentId : Text) (stamps : Stamps Hash) : List (FileRecord Hash × JunkReviewReason) :=
  (candidates state agentId stamps).filter fun candidate =>
    !state.reviews.any fun row => row.names candidate.1 && row.live

def pendingRow (review : ReviewId) (file : FileRecord Hash) (reason : JunkReviewReason) : CompanionJunkReview Hash :=
  { id := review
    agentId := file.agentId
    originalPath := file.originalPath
    sha256Hash := file.sha256Hash
    fileId := file.id
    reason := reason
    status := .pending }

def inserted (agentId : Text) (stamps : Stamps Hash) : List (CompanionJunkReview Hash) :=
  (unlisted state agentId stamps).zipIdx.map fun entry => pendingRow (state.nextReview + entry.2) entry.1.1 entry.1.2

def detectJunkReviews (agentId : Text) (stamps : Stamps Hash) : State Hash :=
  { state with
    reviews := state.reviews.filterMap (refreshed state agentId stamps) ++ inserted state agentId stamps
    nextReview := state.nextReview + (inserted state agentId stamps).length }

/-! ## The decisions -/

-- The reason of the file of a pending duplicate, judged without a new look at the stamps.
def currentReason (row : CompanionJunkReview Hash) : Option JunkReviewReason :=
  (state.files.find? fun file => row.names file && state.fresh file).bind (state.reason ⟨[], []⟩)

def rejudged (sha256Hash : Hash) (row : CompanionJunkReview Hash) : Option (CompanionJunkReview Hash) :=
  if row.sha256Hash = sha256Hash && row.status = .pending && row.reason = .duplicate then
    (currentReason state row).map fun reason => { row with reason := reason }
  else some row

def rejudgePendingDuplicates (sha256Hash : Hash) : State Hash :=
  { state with reviews := state.reviews.filterMap (rejudged state sha256Hash) }

def CompanionJunkReview.moved (row : CompanionJunkReview Hash) (target : JunkReviewStatus) : CompanionJunkReview Hash :=
  if allowedFrom target row.status then { row with status := target } else row

def decideContentGroup (sha256Hash : Hash) (target : JunkReviewStatus) : Option (State Hash) :=
  if target.decision then
    let judged := if target = .approved then rejudgePendingDuplicates state sha256Hash else state
    some { judged with
      reviews := judged.reviews.map fun row => if row.sha256Hash = sha256Hash then row.moved target else row }
  else none

def transitionReview (review : ReviewId) (target : JunkReviewStatus) : State Hash :=
  { state with reviews := state.reviews.map fun row => if row.id = review then row.moved target else row }

/-! ## The quarantine -/

def claimApproved (reviews : List ReviewId) : State Hash :=
  { state with reviews := state.reviews.map fun row => if row.id ∈ reviews then row.moved .executing else row }

def recordQuarantineResult (agentId : Text) (review : ReviewId) (outcome : Outcome) : Option (State Hash) :=
  match state.reviews.find? fun row => row.id = review && row.agentId = agentId with
  | none => none
  | some row =>
      if row.status = .executing then
        match outcome with
        | .quarantined =>
            some { transitionReview state review .quarantined with files := state.files.filter fun file => !row.names file }
        | .failed => some (transitionReview state review .failed)
      else some state

/-! ## The links -/

-- `_decide_page` and `_replace_links`. `found` is whether the later steps of the chain name any media, `seen` what the
-- run has linked on its earlier pages.
def decidePage (stamps : Stamps Hash) (found : FileId → Bool) :
    List (FileRecord Hash) → List Hash → (FileId → Bool) → (FileId → Bool)
  | [], _, linked => linked
  | file :: rest, seen, linked =>
      match state.features file.id with
      | some features =>
          let links := found file.id &&
            (neverLinkReason (junkClassOf stamps file.sha256Hash features)
              (state.folderHasMedia file.agentId file.originalPath) (file.sha256Hash ∈ seen)).isNone
          decidePage stamps found rest (if links then file.sha256Hash :: seen else seen)
            (Function.update linked file.id links)
      | none => decidePage stamps found rest seen linked

def replaceLinks (stamps : Stamps Hash) (found : FileId → Bool) (page : List FileId) (seen : List Hash) : State Hash :=
  { state with
    linked := decidePage state stamps found
      (page.filterMap fun file => state.files.find? fun row => row.id = file && state.fresh row) seen state.linked }

/-! ## The steps -/

-- A new companion row: its id was never used, and its agent has no other row at the path.
def scanFile (file : FileRecord Hash) : Option (State Hash) :=
  if state.existed.any (fun other => other.id = file.id) ||
      state.files.any (fun other => other.agentId = file.agentId && other.originalPath = file.originalPath) then none
  else some { state with files := file :: state.files, existed := file :: state.existed }

def markFile (file : FileId) (available : Bool) : State Hash :=
  { state with available := Function.update state.available file available }

inductive Action (Hash : Type) where
  | detect (agentId : Text) (stamps : Stamps Hash)
  | decide (sha256Hash : Hash) (target : JunkReviewStatus)
  | transition (review : ReviewId) (target : JunkReviewStatus)
  | claim (reviews : List ReviewId)
  | report (agentId : Text) (review : ReviewId) (outcome : Outcome)
  | relink (stamps : Stamps Hash) (found : FileId → Bool) (page : List FileId) (seen : List Hash)
  | store (file : FileId) (features : CompanionContentFeatures Hash)
  | media (rows : List (Text × Text))
  | scan (file : FileRecord Hash)
  | mark (file : FileId) (available : Bool)

def step : Action Hash → Option (State Hash)
  | .detect agentId stamps => some (detectJunkReviews state agentId stamps)
  | .decide sha256Hash target => decideContentGroup state sha256Hash target
  | .transition review target => some (transitionReview state review target)
  | .claim reviews => some (claimApproved state reviews)
  | .report agentId review outcome => recordQuarantineResult state agentId review outcome
  | .relink stamps found page seen => some (replaceLinks state stamps found page seen)
  | .store file features => some { state with features := Function.update state.features file (some features) }
  | .media rows => some { state with media := rows }
  | .scan file => scanFile state file
  | .mark file available => some (markFile state file available)

end Detector

end Phaze.Quarantine.Detector
