import Mathlib
import Phaze.Execution.Primitives

set_option autoImplicit false

/-!
# The collision key and the dispatched destinations

`services/collision.py` groups approved proposals by a key computed in SQL;
`services/execution_dispatch.py` hands the same proposals to the executor.
-/

namespace Phaze.Collision

open Shared Execution

inductive ProposalStatus where
  | pending | approved | rejected | executed | failed
  deriving DecidableEq, Repr

structure Agent where
  id : Text
  scanRoots : List Text
  revokedAt : Option Nat

structure FileRecord where
  id : Text
  agentId : Text
  originalPath : Text
  currentPath : Text
  sha256Hash : Text

structure RenameProposal where
  id : Text
  fileId : Text
  proposedPath : Option Text
  proposedFilename : Text
  status : ProposalStatus
  createdAt : Nat

structure Database where
  agents : List Agent
  files : List FileRecord
  proposals : List RenameProposal
  agentKey : (agents.map Agent.id).Nodup
  fileKey : (files.map FileRecord.id).Nodup
  proposalKey : (proposals.map RenameProposal.id).Nodup

structure Row where
  proposal : RenameProposal
  file : FileRecord
  agent : Agent

-- The approved proposals of agents that are not revoked, joined to file and agent.
def Database.approved (db : Database) : List Row :=
  (db.proposals.filter (·.status = .approved)).flatMap fun proposal =>
    (db.files.filter (·.id = proposal.fileId)).flatMap fun file =>
      (db.agents.filter fun agent => agent.id = file.agentId ∧ agent.revokedAt = none).map fun agent =>
        ⟨proposal, file, agent⟩

section Sql

def rtrim (text : Text) : Text := text.rdropWhile (· = '/')

def ltrim (text : Text) : Text := text.dropWhile (· = '/')

def startsWith (text start : Text) : Bool := start.isPrefixOf text

-- `regexp_replace(text, '/[^/]*$', '')`: everything from the last slash on is dropped.
def dirname (text : Text) : Text :=
  match text.rdropWhile (· ≠ '/') with
  | [] => text
  | upTo => upTo.dropLast

/-- `_owning_root_expr`: the longest trimmed root the original path is under. -/
def owningRoot (agent : Agent) (file : FileRecord) : Option Text :=
  ((agent.scanRoots.map rtrim).filter fun root =>
    file.originalPath = root ∨ startsWith file.originalPath (root ++ ['/'])).argmax List.length

def inplaceDir (agent : Agent) (file : FileRecord) : Text :=
  let dir := dirname file.originalPath
  match owningRoot agent file with
  | some root => if startsWith dir root then ltrim (dir.drop root.length) else dir
  | none => dir

def destPath (row : Row) : Text :=
  row.proposal.proposedPath.getD (inplaceDir row.agent row.file) ++ '/' :: row.proposal.proposedFilename

def destKey (row : Row) : Text × Option Text × Text :=
  (row.file.agentId, owningRoot row.agent row.file, destPath row)

end Sql

-- `detect_collisions`: the destination and the size of every group of two or more.
def detectCollisions (db : Database) : List (Text × Nat) :=
  let keys := db.approved.map destKey
  (keys.dedup.filter fun key => keys.count key > 1).map fun key => (key.2.2, keys.count key)

-- What dispatch puts on the wire for a row. A missing directory becomes the empty one.
def toItem (row : Row) : ExecuteBatchProposalItem Text where
  proposalId := row.proposal.id
  sourcePath := row.file.currentPath
  proposedPath := row.proposal.proposedPath.getD []
  proposedFilename := row.proposal.proposedFilename
  sha256Hash := some row.file.sha256Hash

def dispatchOrder (left right : Row) : Bool :=
  left.proposal.createdAt < right.proposal.createdAt ∨
    left.proposal.createdAt = right.proposal.createdAt ∧ left.proposal.id ≤ right.proposal.id

def groupOf (db : Database) (agentId : Text) : List Row :=
  (db.approved.filter (·.file.agentId = agentId)).mergeSort dispatchOrder

-- Where the executor moves a row's file, or none where it refuses.
def destination (platform : Platform Text) (fs : FileSystem) (row : Row) : Option Path :=
  match resolveMove platform fs (toItem row) row.agent.scanRoots with
  | .ok (_, proposed) => some proposed
  | .error _ => none

end Phaze.Collision
