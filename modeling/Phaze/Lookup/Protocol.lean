import Phaze.Lookup.Work
import Phaze.Shared.Runs

set_option autoImplicit false

/-!
# Workers and expanders

The three phases of `execute_work` and the calls of `expand_batch`, interleaved. A claim may begin for any row at
any time, which covers every delivery of `dispatch_pending`. The id of a row is its position.
-/

namespace Phaze.Lookup

open Provider (Uuid)

abbrev WorkerId := Nat

inductive Worker where
  | idle
  | lookingUp (work : Uuid)
deriving DecidableEq

structure State where
  now : Int
  files : List Uuid
  works : List Work
  batches : List Batch
  memberships : List Membership
  workers : WorkerId → Worker
  -- The files that each batch has come to.
  examined : List (Uuid × Uuid)
  -- Which record was made of which row, and whether its outcome was transient.
  recorded : List (Uuid × Bool)
  -- The records that the unique index refused.
  refused : List Uuid

def State.initial (files : List Uuid) : State where
  now := 0
  files := files
  works := []
  batches := []
  memberships := []
  workers := fun _ => .idle
  examined := []
  recorded := []
  refused := []

def State.work (state : State) (id : Uuid) : Option Work :=
  state.works.find? fun row => row.id = id

def State.batch (state : State) (id : Uuid) : Option Batch :=
  state.batches.find? fun row => row.id = id

def setWork (works : List Work) (work : Work) : List Work :=
  works.map fun row => if row.id = work.id then work else row

def setBatch (batches : List Batch) (batch : Batch) : List Batch :=
  batches.map fun row => if row.id = batch.id then batch else row

def setWorker (state : State) (worker : WorkerId) (value : Worker) : State :=
  { state with workers := Function.update state.workers worker value }

inductive Action where
  | pass (duration : Nat)
  | addFile (file : Uuid)
  | removeFile (file : Uuid)
  -- The enabled providers of `provider_status`, one for each key.
  | create (providers : List String) (distinct : providers.Nodup)
  -- `excluded` is the answer of `eligibility` for each recording.
  | expand (batch : Uuid) (excluded : Uuid → Bool)
  | claim (worker : WorkerId) (work : Uuid) (reason : Option String) (digest : String)
  -- `none` where the lookup raises.
  | record (worker : WorkerId) (result : Option LookupResult)
  | die (worker : WorkerId)

variable (stopStatuses : String → Option (List Nat))

def createBatch (state : State) (providers : List String) : State :=
  let upper := state.files.max?
  { state with batches := state.batches ++
      [{ id := state.batches.length
         providers := providers
         cursor := none
         upperBound := upper
         expanded := providers.isEmpty || upper.isNone
         selected := 0
         existing := 0
         excluded := 0 }] }

def expandBatch (state : State) (id : Uuid) (excluded : Uuid → Bool) : State :=
  match state.batch id with
  | none => state
  | some batch =>
      if batch.expanded then state
      else
        let done := expandChunk excluded state.files
          { works := state.works, memberships := state.memberships, batch := batch }
        { state with
          works := done.works
          memberships := done.memberships
          batches := setBatch state.batches done.batch
          examined := state.examined ++ (chunkIds state.files batch).map fun media => (id, media) }

def claimWork (state : State) (worker : WorkerId) (id : Uuid) (reason : Option String) (digest : String) :
    Option State :=
  if state.workers worker ≠ .idle then none
  else
    match state.work id with
    | none => some state
    | some row =>
        match claim state.now reason digest row with
        | .inactive | .busy | .deferred => some state
        | .completed row => some { state with works := setWork state.works row }
        | .running row => some (setWorker { state with works := setWork state.works row } worker (.lookingUp id))

def verdictOf (providerId : String) : Option LookupResult → Verdict
  | none => workerError
  | some result => judge (stopCodes (stopStatuses providerId)) result

-- Another active row of the pair.
def occupied (state : State) (row : Work) : Bool :=
  state.works.any fun other => other.id ≠ row.id && other.active && other.pair = row.pair

def recordWork (state : State) (worker : WorkerId) (result : Option LookupResult) : Option State :=
  match state.workers worker with
  | .idle => none
  | .lookingUp id =>
      let state := setWorker state worker .idle
      match state.work id with
      | none => some state
      | some row =>
          let verdict := verdictOf stopStatuses row.providerId result
          let written := record state.now verdict row
          if written.active && occupied state written then some { state with refused := state.refused ++ [id] }
          else
            some { state with
              works := setWork state.works written
              recorded := state.recorded ++ [(id, verdict.transient)] }

def step (state : State) : Action → Option State
  | .pass duration => some { state with now := state.now + duration }
  | .addFile file => if state.files.contains file then none else some { state with files := state.files ++ [file] }
  | .removeFile file => some { state with files := state.files.filter (· ≠ file) }
  | .create providers _ => some (createBatch state providers)
  | .expand batch excluded => some (expandBatch state batch excluded)
  | .claim worker work reason digest => claimWork state worker work reason digest
  | .record worker result => recordWork stopStatuses state worker result
  | .die worker => some (setWorker state worker .idle)

/-- A lookup is recorded while its row is active. -/
def timely (state : State) : Action → Bool
  | .record worker _ =>
      match state.workers worker with
      | .idle => true
      | .lookingUp id => (state.work id).all Work.active
  | _ => true

end Phaze.Lookup
