import Phaze.Shared.Crash
import Phaze.Shared.PurePath

set_option autoImplicit false

/-!
# The local filesystem primitives of approved moves

`LocalFilesystemPrimitives` of `tasks/execution_filesystem.py`, with the containment check of
`services/containment.py` and the twin lookup of `services/media_path_resolve.py`. Flushing to
disk is left out: a crash here stops the process, not the machine.
-/

namespace Phaze.Execution

open Shared

inductive FailedAtStep where
  | copy | verify | delete
  deriving DecidableEq, Repr

-- One proposal on the wire; the file id it also carries is not read by the executor.
structure ExecuteBatchProposalItem (Hash : Type) where
  proposalId : Text
  sourcePath : Text
  proposedPath : Text
  proposedFilename : Text
  sha256Hash : Option Hash

inductive MoveError (Hash : Type) where
  | os (error : OsError)
  | sha256Mismatch (label : Text) (expected actual : Hash) (suffix : Text)
  | escapesScanRoots (candidate : List Name)
  | refusingToOverwrite (proposed : Path)
  | moveSourceMismatch
  | notARegularFile

-- What SAQ keeps of the job between attempts, for this proposal.
structure JobMeta (Hash : Type) where
  moveIntent : Option Hash
  moved : Bool

structure World (Hash : Type) where
  fs : FileSystem
  current : FailedAtStep
  jobMeta : JobMeta Hash

/-- What the code takes from the language and the machine: the digest, the two Unicode
mappings, the order in which a directory is listed and the working directory. -/
structure Platform (Hash : Type) where
  sha256 : Bytes → Hash
  casefold : Name → Name
  nfc : Name → Name
  iterdir : FileSystem → Path → Option (List Name)
  cwd : Path

abbrev Action (Hash α : Type) := Prog (World Hash) (MoveError Hash) α

variable {Hash : Type}

def call {α : Type} (operation : FileSystem → Except OsError (α × FileSystem)) : Action Hash α :=
  Prog.step fun world =>
    match operation world.fs with
    | .error error => .error (.os error)
    | .ok (value, fs) => .ok (value, { world with fs := fs })

def look {α : Type} (observe : FileSystem → Except OsError α) : Action Hash α :=
  Prog.read fun world => (observe world.fs).mapError .os

def setStep (step : FailedAtStep) : Action Hash Unit :=
  Prog.step fun world => .ok ((), { world with current := step })

section Paths

def copyTmpSuffix : Text := ".phaze-tmp".toList

def commitMarkerSuffix : Text := ".phaze-committed".toList

def copyChunkBytes : Nat := 16 * 1024 * 1024

def committedCopyMarkerPath (proposed : Path) (proposalId : Text) : Path :=
  proposed.withName (proposed.name ++ commitMarkerSuffix ++ '.' :: proposalId)

-- `tag` is the process id and the random hex that make the name unique to the attempt.
def uniqueTmpPath (dst : Path) (tag : Text) : Path :=
  dst.withName (dst.name ++ copyTmpSuffix ++ '.' :: tag)

variable (platform : Platform Hash) (fs : FileSystem)

-- `_nfc_match`: the first listed child whose NFC form is the wanted one.
def nfcMatch (parent : List Name) (wantedName : Name) : Option (List Name) :=
  match platform.iterdir fs (PurePath.collapse parent) with
  | none => none
  | some entries =>
      (entries.find? fun entry => platform.nfc entry = platform.nfc wantedName).map (parent ++ [·])

-- The longest existing ancestor and the components still to be found below it. The components
-- of the path come in reverse.
def existingAncestor : List Name → List Name → Option (List Name × List Name)
  | [], _ => none
  | name :: above, pending =>
      if PurePath.existsAt fs above.reverse then some (above.reverse, name :: pending)
      else existingAncestor above (name :: pending)

def resolveChild (resolved : List Name) (component : Name) : Option (List Name) :=
  if PurePath.existsAt fs (resolved ++ [component]) then some (resolved ++ [component])
  else nfcMatch platform fs resolved component

-- `resolve_media_path`: the path itself when it exists, else the entry on disk that spells
-- it in another normal form, component by component.
def resolveMediaPath (path : List Name) : List Name :=
  if PurePath.existsAt fs path then path
  else
    match existingAncestor fs path.reverse [] with
    | none => path
    | some (ancestor, pending) => (pending.foldlM (resolveChild platform fs) ancestor).getD path

def resolveAndCheckContainment (candidate : List Name) (scanRoots : List Text) :
    Except (MoveError Hash) (Path × Path) :=
  let resolved := PurePath.collapse candidate
  let owner := (scanRoots.map (PurePath.resolve platform.cwd)).find? (PurePath.isRelativeTo resolved)
  match owner with
  | some root => .ok (resolved, root)
  | none => .error (.escapesScanRoots candidate)

-- `resolve_contained_twin`: the containment check is made on the entry that was found.
def resolveContainment (candidate : List Name) (scanRoots : List Text) :
    Except (MoveError Hash) (Path × Path) :=
  resolveAndCheckContainment platform (resolveMediaPath platform fs candidate) scanRoots

def destDir (item : ExecuteBatchProposalItem Hash) (original owningRoot : Path) : List Name :=
  if item.proposedPath = [] then original.parent else PurePath.join owningRoot item.proposedPath

def resolveDestination (item : ExecuteBatchProposalItem Hash) (original owningRoot : Path)
    (scanRoots : List Text) : Except (MoveError Hash) Path := do
  let candidate := PurePath.join (destDir item original owningRoot) item.proposedFilename
  let (resolved, _) ← resolveContainment platform fs candidate scanRoots
  pure resolved

def resolveMove (item : ExecuteBatchProposalItem Hash) (scanRoots : List Text) :
    Except (MoveError Hash) (Path × Path) := do
  let (original, owningRoot) ←
    resolveContainment platform fs (PurePath.join platform.cwd item.sourcePath) scanRoots
  let proposed ← resolveDestination platform fs item original owningRoot scanRoots
  pure (original, proposed)

end Paths

section Hashing

variable [DecidableEq Hash] (platform : Platform Hash)

def sha256OfFile (path : Path) : Action Hash Hash := do
  let bytes ← look (·.readAll path)
  pure (platform.sha256 bytes)

def verifyHashOrRaise (path : Path) (expected : Hash) (label : Text) (suffix : Text) : Action Hash Unit := do
  let actual ← sha256OfFile platform path
  if actual = expected then pure () else Prog.raise (.sha256Mismatch label expected actual suffix)

def destinationIsCommittedCopy (original proposed : Path) (expected : Option Hash) : Action Hash Bool := do
  let proposedHash ← sha256OfFile platform proposed
  match expected with
  | some expected => pure (decide (proposedHash = expected))
  | none => do
      let originalHash ← sha256OfFile platform original
      pure (decide (proposedHash = originalHash))

end Hashing

def sameFilesystem (src dstDir : Path) : Action Hash Bool := do
  let source ← look (·.stat src)
  let target ← look (·.stat dstDir)
  pure (decide (source.device = target.device))

def sameFile (fs : FileSystem) (a b : Path) : Bool :=
  match fs.stat a, fs.stat b with
  | .ok left, .ok right => left.same right
  | _, _ => false

def isSameFile (a b : Path) : Action Hash Bool := look fun fs => .ok (sameFile fs a b)

def isCaseOnlySameEntry (platform : Platform Hash) (original proposed : Path) : Bool :=
  original.parent = proposed.parent ∧ original.name ≠ proposed.name ∧
    platform.casefold original.name = platform.casefold proposed.name

def pathExists (path : Path) : Action Hash Bool := look fun fs => .ok (fs.exist path)

-- The `exist_ok` half of `Path.mkdir`: an error is dropped when the directory is there.
def existOk (path : Path) (error : MoveError Hash) : Action Hash Unit := do
  let state ← look fun fs => .ok (fs.dir path)
  if state.isSome then pure () else Prog.raise error

def mkdirExistOk (path : Path) : Action Hash Unit :=
  Prog.recover (call (·.mkdir path)) (existOk path)

def mkdirParentsRev : List Name → Action Hash Unit
  | [] => mkdirExistOk []
  | name :: above =>
      Prog.recover (call (·.mkdir (name :: above).reverse)) fun error =>
        match error with
        | .os .fileNotFound => do
            mkdirParentsRev above
            mkdirExistOk (name :: above).reverse
        | error => existOk (name :: above).reverse error

def mkdirParents (path : Path) : Action Hash Unit := mkdirParentsRev path.reverse

def writeChunks (fd : Nat) : List Bytes → Action Hash Unit
  | [] => pure ()
  | chunk :: rest => do
      call (·.write fd chunk)
      writeChunks fd rest

-- Copy in bounded chunks to an exclusively created file. Nobody else writes the source, so
-- reading it at once gives what the loop reads piece by piece.
def streamedCopy (src dst : Path) : Action Hash Unit := do
  let source ← look (·.readAll src)
  let fd ← call (·.openExclusive dst)
  writeChunks fd (source.toChunks copyChunkBytes)

def claimDestinationByLink (src dst : Path) : Action Hash Unit := call (·.link src dst)

def atomicCrossFsCopy (tag : Text) (src dst : Path) : Action Hash Unit :=
  let tmp := uniqueTmpPath dst tag
  Prog.protect
    (do
      streamedCopy src tmp
      claimDestinationByLink tmp dst)
    (call (·.unlinkMissingOk tmp))

def atomicSameFsMove (src dst : Path) : Action Hash Unit := do
  claimDestinationByLink src dst
  call (·.unlink src)

def writeCommitMarker (marker : Path) (proposalId : Text) : Action Hash Unit := do
  let fd ← call (·.openTruncate marker)
  call (·.write fd (proposalId.map fun letter => UInt8.ofNat letter.toNat))

end Phaze.Execution
