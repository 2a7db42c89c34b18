import Phaze.Execution.Primitives

set_option autoImplicit false

/-!
# The move engine and the attempt that drives it

`LocalExecutionFilesystemEngine` of `tasks/execution_filesystem.py` and `_compute_proposed` of
`tasks/execution.py`.
-/

namespace Phaze.Execution

open Shared

variable {Hash : Type} [DecidableEq Hash]

structure FilesystemMoveRequest (Hash : Type) where
  item : ExecuteBatchProposalItem Hash
  scanRoots : List Text
  replayCorroborated : Bool
  tag : Text

structure FilesystemMoveResult where
  proposed : Path
  committedNow : Bool
  deriving DecidableEq

section Engine

variable (platform : Platform Hash)

def checkReplayCorroborated (original proposed : Path) (proposalId : Text) (movedFlagPresent : Bool) :
    Action Hash Bool := do
  let originalExists ← pathExists original
  let proposedExists ← pathExists proposed
  if originalExists ∨ ¬ proposedExists then pure false
  else do
    let marked ← pathExists (committedCopyMarkerPath proposed proposalId)
    pure (movedFlagPresent || marked)

def reclaimOrRefuseExistingDestination (original proposed : Path) (item : ExecuteBatchProposalItem Hash)
    (sameFs : Bool) : Action Hash Unit := do
  let ownMarker := committedCopyMarkerPath proposed item.proposalId
  let marked ← pathExists ownMarker
  if sameFs ∨ ¬ marked then Prog.raise (.refusingToOverwrite proposed)
  else do
    let committed ← destinationIsCommittedCopy platform original proposed item.sha256Hash
    if committed then do
      setStep .delete
      call (·.unlink original)
      call (·.unlinkMissingOk ownMarker)
    else Prog.raise (.refusingToOverwrite proposed)

def moveSameFsEntry (original proposed : Path) : Action Hash Unit :=
  if original ≠ proposed ∧ ¬ isCaseOnlySameEntry platform original proposed then do
    let source ← look (·.stat original)
    if source.nlink > 1 then do
      setStep .delete
      call (·.unlink original)
    else call (·.rename original proposed)
  else call (·.rename original proposed)

def verifyIfPresent (path : Path) (expected : Option Hash) (label suffix : Text) : Action Hash Unit :=
  match expected with
  | none => pure ()
  | some expected => do
      setStep .verify
      verifyHashOrRaise platform path expected label suffix

def moveAcrossFilesystem (tag : Text) (original proposed : Path) (item : ExecuteBatchProposalItem Hash) :
    Action Hash Unit := do
  atomicCrossFsCopy tag original proposed
  verifyIfPresent platform proposed item.sha256Hash
    ("published destination ".toList ++ PurePath.render proposed) " (post-publish re-verify)".toList
  let marker := committedCopyMarkerPath proposed item.proposalId
  writeCommitMarker marker item.proposalId
  setStep .delete
  call (·.unlink original)
  call (·.unlinkMissingOk marker)

def applyFileMove (tag : Text) (original proposed : Path) (item : ExecuteBatchProposalItem Hash) :
    Action Hash Unit := do
  setStep .copy
  mkdirParents proposed.parent
  let sameFs ← sameFilesystem original proposed.parent
  let occupied ← pathExists proposed
  let same ← isSameFile original proposed
  if occupied ∧ ¬ same then reclaimOrRefuseExistingDestination platform original proposed item sameFs
  else if sameFs then
    if same then moveSameFsEntry platform original proposed else atomicSameFsMove original proposed
  else moveAcrossFilesystem platform tag original proposed item

def move (request : FilesystemMoveRequest Hash) : Action Hash FilesystemMoveResult := do
  let item := request.item
  let (original, proposed) ← Prog.read fun world =>
    resolveMove platform world.fs item request.scanRoots
  let alreadyMoved ← checkReplayCorroborated original proposed item.proposalId request.replayCorroborated
  if alreadyMoved then do
    verifyIfPresent platform proposed item.sha256Hash item.sourcePath
      (" (already-moved replay check against ".toList ++ PurePath.render proposed ++ [')'])
    call (·.unlinkMissingOk (committedCopyMarkerPath proposed item.proposalId))
    pure ⟨proposed, false⟩
  else do
    verifyIfPresent platform original item.sha256Hash item.sourcePath []
    applyFileMove platform request.tag original proposed item
    pure ⟨proposed, true⟩

end Engine

section Attempt

variable (platform : Platform Hash)

def hashMoveSource (source : Path) : Action Hash Hash :=
  Prog.read fun world =>
    match world.fs.contents source with
    | some bytes => .ok (platform.sha256 bytes)
    | none => if (world.fs.dir source).isSome then .error .notARegularFile else .error (.os .fileNotFound)

-- `job.update(meta=...)`. That the write is lost, or lands and is not acknowledged, is a stop
-- before or after this step.
def updateJobMeta (change : JobMeta Hash → JobMeta Hash) : Action Hash Unit :=
  Prog.step fun world => .ok ((), { world with jobMeta := change world.jobMeta })

/-- The write-ahead half of `_compute_proposed`: the intent hash is persisted before the first
destructive step, unless a marker of an earlier run stands in for it. -/
def persistIntent (item : ExecuteBatchProposalItem Hash) (scanRoots : List Text) :
    Action Hash (Option Hash) := do
  let (source, destination) ← Prog.read fun world => resolveMove platform world.fs item scanRoots
  let sourceExists ← pathExists source
  let marked ← pathExists (committedCopyMarkerPath destination item.proposalId)
  if ¬ sourceExists ∧ marked then pure none
  else do
    setStep .verify
    let intentHash ← hashMoveSource platform source
    if item.sha256Hash ≠ none ∧ item.sha256Hash ≠ some intentHash then Prog.raise .moveSourceMismatch
    else do
      updateJobMeta fun known => { known with moveIntent := some intentHash }
      pure (some intentHash)

-- The identity the attempt works under: what an earlier attempt persisted, or what this one
-- does now.
def intentOf (job : Bool) (known : JobMeta Hash) (item : ExecuteBatchProposalItem Hash)
    (scanRoots : List Text) : Action Hash (Option Hash) :=
  if job ∧ known.moveIntent.isNone ∧ ¬ known.moved then persistIntent platform item scanRoots
  else pure known.moveIntent

def recordMoved (job : Bool) (result : FilesystemMoveResult) : Action Hash Unit :=
  if result.committedNow ∧ job then updateJobMeta fun known => { known with moved := true } else pure ()

def computeProposed (job : Bool) (tag : Text) (item : ExecuteBatchProposalItem Hash) (scanRoots : List Text) :
    Action Hash Path := do
  let known ← Prog.read fun world => .ok (if job then world.jobMeta else ⟨none, false⟩)
  let intentHash ← intentOf platform job known item scanRoots
  let checkedItem := { item with sha256Hash := intentHash.or item.sha256Hash }
  setStep .copy
  let result ← move platform ⟨checkedItem, scanRoots, known.moved || known.moveIntent.isSome, tag⟩
  recordMoved job result
  pure result.proposed

end Attempt

end Phaze.Execution
