import Phaze.Shared.Runs

set_option autoImplicit false

/-!
# The tag writes of one file

The `TagWriteLog` rows of a file, the requests that insert them (`services/tag_writer.py`, `routers/tags.py`),
the `write_file_tags` attempts on the agent (`tasks/tag_write.py`) and their two callbacks
(`routers/agent_tag_writes.py`). A callback that was sent once may be served at any later time, and more than
once, also when its attempt is over; an attempt may end at any point.

The rows stand in the order in which they were inserted. `LogEntry.key` is the order the queries use.
-/

namespace Phaze.Tagging

abbrev RowId := Nat
abbrev AttemptId := Nat
abbrev SessionId := Nat

inductive TagWriteStatus where
  | queued
  | completed
  | failed
  | saveFailed
  | discrepancy
  | verifyFailed
  | noOp
deriving DecidableEq

inductive Source where
  | proposal
  | undo
  | bulkNoop
deriving DecidableEq

/-! ## The audit rows -/

-- `Tags` are the dicts that are not empty; `none` is `{}`.
structure LogEntry (Tags : Type) where
  id : RowId
  source : Source
  status : TagWriteStatus
  beforeTags : Option Tags
  afterTags : Option Tags
  writtenAt : Int
deriving DecidableEq

section Rows

variable {Tags : Type}

-- The row value `(written_at, id)`.
def LogEntry.key (entry : LogEntry Tags) : Lex (Int × Nat) :=
  toLex (entry.writtenAt, entry.id)

def LogEntry.completedUndo (entry : LogEntry Tags) : Bool :=
  entry.source = .undo && entry.status = .completed

-- `_UNDOABLE_TAGWRITE_STATUSES`
def TagWriteStatus.undoable : TagWriteStatus → Bool
  | .completed | .discrepancy | .verifyFailed | .saveFailed => true
  | .queued | .failed | .noOp => false

def LogEntry.undoable (entry : LogEntry Tags) : Bool :=
  entry.status.undoable && entry.source ≠ .undo

-- The `terminal_predicate` of `_terminal_tagwrite_subq`.
def LogEntry.terminal (entry : LogEntry Tags) : Bool :=
  entry.status = .noOp || (entry.status = .completed && entry.source ≠ .undo)

-- `ORDER BY written_at DESC, id DESC LIMIT 1`
def newest : List (LogEntry Tags) → Option (LogEntry Tags)
  | [] => none
  | entry :: rest =>
      match newest rest with
      | none => some entry
      | some other => if entry.key < other.key then some other else some entry

-- `ORDER BY written_at ASC, id ASC LIMIT 1`
def oldest : List (LogEntry Tags) → Option (LogEntry Tags)
  | [] => none
  | entry :: rest =>
      match oldest rest with
      | none => some entry
      | some other => if other.key < entry.key then some other else some entry

-- `_get_latest_write_log`
def getLatestWriteLog (rows : List (LogEntry Tags)) : Option (LogEntry Tags) :=
  newest rows

-- `_get_write_log_to_undo`
def getWriteLogToUndo (rows : List (LogEntry Tags)) : Option (LogEntry Tags) :=
  let boundary := newest (rows.filter LogEntry.completedUndo)
  oldest (rows.filter fun entry => entry.undoable && boundary.all fun undo => undo.key < entry.key)

-- Whether `_terminal_tagwrite_subq` contains the file.
def terminalTagwrite (rows : List (LogEntry Tags)) : Bool :=
  rows.any fun entry => entry.terminal &&
    !rows.any fun undo => undo.completedUndo && entry.key < undo.key

def lookup (rows : List (LogEntry Tags)) (row : RowId) : Option (LogEntry Tags) :=
  rows.find? fun entry => entry.id = row

def update (rows : List (LogEntry Tags)) (row : RowId) (change : LogEntry Tags → LogEntry Tags) :
    List (LogEntry Tags) :=
  rows.map fun entry => if entry.id = row then change entry else entry

end Rows

/-! ## The state -/

inductive Message (Tags Hash : Type) where
  | snapshot (attempt : AttemptId) (row : RowId) (tags : Tags)
  -- `seen`: how many writes there had been when the attempt reported.
  | result (attempt : AttemptId) (row : RowId) (status : TagWriteStatus) (beforeTags : Option Tags) (hash : Option Hash) (seen : Nat)
deriving DecidableEq

inductive Stage (Tags : Type) where
  | idle
  | waiting (row : RowId)
  | owned (row : RowId)
  | asking (row : RowId)
  | writing (row : RowId) (beforeTags : Option Tags)
  | reporting (row : RowId)
  | over
deriving DecidableEq

structure Request (Tags : Type) where
  source : Source
  tags : Option Tags
  -- The row an undo has selected.
  target : Option RowId
deriving DecidableEq

inductive Session (Tags : Type) where
  | idle
  | opened (startedAt : Int)
  -- An undo that is not a repeat.
  | checked (startedAt : Int)
  | ready (startedAt : Int) (request : Request Tags)
  | locked (startedAt : Int) (request : Request Tags)
  | counted (startedAt : Int) (request : Request Tags)
  -- The row is committed, its job not enqueued.
  | dispatching (row : RowId)
deriving DecidableEq

structure State (Content Tags Hash : Type) where
  clock : Int
  rows : List (LogEntry Tags)
  content : Content
  sha256Hash : Hash
  sessions : SessionId → Session Tags
  advisory : Option SessionId
  -- The rows whose enqueue was begun: a job of theirs may run, again and again.
  enqueued : List RowId
  attempts : AttemptId → Stage Tags
  owner : Option AttemptId
  sent : List (Message Tags Hash)
  answers : List (AttemptId × TagWriteStatus)
  -- The writes so far, each with the row it was made for and whether it left the tags of the row.
  writes : List (RowId × Bool)
  -- The content before the first write for a row.
  original : RowId → Option Content
  -- A result with a hash was applied since the last write.
  refreshed : Bool

section Steps

variable {Content Tags Hash : Type} [DecidableEq Tags]

def State.initial (content : Content) (sha256Hash : Hash) : State Content Tags Hash :=
  { clock := 0
    rows := []
    content := content
    sha256Hash := sha256Hash
    sessions := fun _ => .idle
    advisory := none
    enqueued := []
    attempts := fun _ => .idle
    owner := none
    sent := []
    answers := []
    writes := []
    original := fun _ => none
    refreshed := false }

-- What the agent reads off a file: its tags (`_extract_before_tags`), its digest (`compute_sha256`).
structure Disk (Content Tags Hash : Type) where
  extract : Content → Option Tags
  hash : Content → Hash

inductive Action (Content Tags Hash : Type) where
  | pass (duration : Nat)
  -- The requests.
  | start (session : SessionId)
  | checkReverted (session : SessionId)
  | selectUndo (session : SessionId)
  | approve (session : SessionId) (tags : Option Tags)
  | noop (session : SessionId) (row : RowId)
  | lock (session : SessionId)
  | count (session : SessionId)
  | insert (session : SessionId) (row : RowId)
  | enqueue (session : SessionId)
  | refused (session : SessionId)
  | abandon (session : SessionId)
  -- The attempts.
  | begin (attempt : AttemptId) (row : RowId)
  | refusePath (attempt : AttemptId)
  | acquire (attempt : AttemptId)
  | snapshotFails (attempt : AttemptId) (observed : Bool)
  | snapshot (attempt : AttemptId)
  | answer (attempt : AttemptId) (status : TagWriteStatus)
  | write (attempt : AttemptId) (content : Content)
  | report (attempt : AttemptId) (status : TagWriteStatus) (observed : Bool)
  | finish (attempt : AttemptId)
  -- A callback that is served.
  | serve (message : Message Tags Hash)
deriving DecidableEq

variable (state : State Content Tags Hash)

/-! ## The requests -/

def setSession (session : SessionId) (stage : Session Tags) : State Content Tags Hash :=
  { state with sessions := Function.update state.sessions session stage }

-- The end of a transaction frees the advisory lock.
def release (session : SessionId) : State Content Tags Hash :=
  { setSession state session .idle with
    advisory := if state.advisory = some session then none else state.advisory }

-- `_already_reverted_response`
def checkReverted (session : SessionId) : Option (State Content Tags Hash) :=
  match state.sessions session with
  | .opened startedAt =>
      let repeats := (getLatestWriteLog state.rows).any fun entry =>
        entry.source = .undo && (entry.status = .completed || entry.status = .queued)
      some (setSession state session (if repeats then .idle else .checked startedAt))
  | _ => none

def selectUndo (session : SessionId) : Option (State Content Tags Hash) :=
  match state.sessions session with
  | .checked startedAt =>
      some (setSession state session (match getWriteLogToUndo state.rows with
        | none => .idle
        | some entry => .ready startedAt
            { source := .undo, tags := entry.beforeTags, target := some entry.id }))
  | _ => none

-- The zero-change marker of `_dispatch_bulk_candidate`; its reads guard nothing by the time it commits.
def insertNoop (session : SessionId) (row : RowId) : Option (State Content Tags Hash) :=
  match state.sessions session with
  | .opened startedAt =>
      if lookup state.rows row = none then
        some (setSession { state with rows := state.rows ++
          [{ id := row, source := .bulkNoop, status := .noOp, beforeTags := none, afterTags := none,
             writtenAt := startedAt }] } session .idle)
      else none
  | _ => none

-- `enqueue_tag_write`: the advisory lock, the count of QUEUED rows, the insert with its commit.
def lockFile (session : SessionId) : Option (State Content Tags Hash) :=
  match state.sessions session with
  | .ready startedAt request =>
      if state.advisory = none then
        some { setSession state session (.locked startedAt request) with advisory := some session }
      else none
  | _ => none

def countQueued (session : SessionId) : Option (State Content Tags Hash) :=
  match state.sessions session with
  | .locked startedAt request =>
      if state.rows.any fun entry => entry.status = .queued then some (release state session)
      else some (setSession state session (.counted startedAt request))
  | _ => none

def insertEntry (session : SessionId) (row : RowId) : Option (State Content Tags Hash) :=
  match state.sessions session with
  | .counted startedAt request =>
      if lookup state.rows row = none then
        some (setSession { release state session with
          rows := state.rows ++
            [{ id := row, source := request.source, status := .queued, beforeTags := none,
               afterTags := request.tags, writtenAt := startedAt }] } session (.dispatching row))
      else none
  | _ => none

-- The enqueue went through, or is ambiguous: the job may be there.
def enqueueJob (session : SessionId) : Option (State Content Tags Hash) :=
  match state.sessions session with
  | .dispatching row => some (setSession { state with enqueued := row :: state.enqueued } session .idle)
  | _ => none

-- `queue.connect()` raised: no job exists, and the row is downgraded.
def refuseJob (session : SessionId) : Option (State Content Tags Hash) :=
  match state.sessions session with
  | .dispatching row =>
      some (setSession { state with rows := update state.rows row fun entry => { entry with status := .failed } }
        session .idle)
  | _ => none

/-! ## The attempts -/

def setAttempt (attempt : AttemptId) (stage : Stage Tags) : State Content Tags Hash :=
  { state with attempts := Function.update state.attempts attempt stage }

def send (message : Message Tags Hash) : State Content Tags Hash :=
  { state with sent := message :: state.sent }

-- The attempt is over, also in a process that died, and the OS lock is free.
def finish (attempt : AttemptId) : State Content Tags Hash :=
  { setAttempt state attempt .over with owner := if state.owner = some attempt then none else state.owner }

variable (disk : Disk Content Tags Hash)

-- A path that escapes the scan roots, or that does not open: reported without the OS lock.
def refusePath (attempt : AttemptId) : Option (State Content Tags Hash) :=
  match state.attempts attempt with
  | .waiting row => some (finish (send state (.result attempt row .failed none none state.writes.length)) attempt)
  | _ => none

def acquire (attempt : AttemptId) : Option (State Content Tags Hash) :=
  match state.attempts attempt with
  | .waiting row =>
      if state.owner = none then some { setAttempt state attempt (.owned row) with owner := some attempt } else none
  | _ => none

def observedHash (observed : Bool) : Option Hash :=
  if observed then some (disk.hash state.content) else none

def snapshotFails (attempt : AttemptId) (observed : Bool) : Option (State Content Tags Hash) :=
  match state.attempts attempt with
  | .owned row =>
      some (setAttempt (send state
        (.result attempt row .failed none (observedHash state disk observed) state.writes.length)) attempt
        (.reporting row))
  | _ => none

def snapshot (attempt : AttemptId) : Option (State Content Tags Hash) :=
  match state.attempts attempt, disk.extract state.content with
  | .owned row, some tags => some (setAttempt (send state (.snapshot attempt row tags)) attempt (.asking row))
  | _, _ => none

def answer (attempt : AttemptId) (status : TagWriteStatus) : Option (State Content Tags Hash) :=
  match state.attempts attempt with
  | .asking row =>
      if (attempt, status) ∈ state.answers then
        if status = .queued then some (setAttempt state attempt (.writing row (disk.extract state.content)))
        else some (finish state attempt)
      else none
  | _ => none

-- Whether the content has the tags that the row asks for.
def restores (row : RowId) (content : Content) : Bool :=
  (lookup state.rows row).any fun entry => entry.source = .undo && disk.extract content = entry.afterTags

-- One change of the bytes; a save may make several, and may be cut short.
def write (attempt : AttemptId) (content : Content) : Option (State Content Tags Hash) :=
  match state.attempts attempt with
  | .writing row _ =>
      some { state with
        content := content
        writes := state.writes ++ [(row, restores state disk row content)]
        original := if state.original row = none then Function.update state.original row (some state.content)
          else state.original
        refreshed := false }
  | _ => none

def report (attempt : AttemptId) (status : TagWriteStatus) (observed : Bool) : Option (State Content Tags Hash) :=
  match state.attempts attempt with
  | .writing row beforeTags =>
      some (setAttempt (send state
        (.result attempt row status beforeTags (observedHash state disk observed) state.writes.length)) attempt
        (.reporting row))
  | _ => none

/-! ## The callbacks -/

-- `record_tag_write_before_snapshot`
def recordBeforeSnapshot (attempt : AttemptId) (row : RowId) (tags : Tags) : Option (State Content Tags Hash) :=
  match lookup state.rows row with
  | none => none
  | some entry =>
      if entry.status ≠ .queued ∨ entry.beforeTags ≠ none then
        some { state with answers := (attempt, entry.status) :: state.answers }
      else
        some { state with
          rows := update state.rows row fun entry => { entry with beforeTags := some tags }
          answers := (attempt, .queued) :: state.answers }

-- `patch_tag_write`
def patchTagWrite (row : RowId) (status : TagWriteStatus) (beforeTags : Option Tags) (hash : Option Hash) :
    Option (State Content Tags Hash) :=
  if status = .queued then some state
  else
    match lookup state.rows row with
    | none => none
    | some entry =>
        if entry.status ≠ .queued then some state
        else
          some { state with
            rows := update state.rows row fun entry =>
              { entry with status := status, beforeTags := entry.beforeTags.or beforeTags }
            sha256Hash := hash.getD state.sha256Hash
            refreshed := hash.isSome || state.refreshed }

variable [DecidableEq Hash]

def serve (message : Message Tags Hash) : Option (State Content Tags Hash) :=
  if message ∈ state.sent then
    match message with
    | .snapshot attempt row tags => recordBeforeSnapshot state attempt row tags
    | .result _ row status beforeTags hash _ => patchTagWrite state row status beforeTags hash
  else none

def step : Action Content Tags Hash → Option (State Content Tags Hash)
  | .pass duration => some { state with clock := state.clock + duration }
  | .start session =>
      if state.sessions session = .idle then some (setSession state session (.opened state.clock)) else none
  | .checkReverted session => checkReverted state session
  | .selectUndo session => selectUndo state session
  | .approve session tags =>
      match state.sessions session with
      | .opened startedAt =>
          some (setSession state session (.ready startedAt { source := .proposal, tags := tags, target := none }))
      | _ => none
  | .noop session row => insertNoop state session row
  | .lock session => lockFile state session
  | .count session => countQueued state session
  | .insert session row => insertEntry state session row
  | .enqueue session => enqueueJob state session
  | .refused session => refuseJob state session
  | .abandon session => some (release state session)
  | .begin attempt row =>
      if state.attempts attempt = .idle ∧ row ∈ state.enqueued then some (setAttempt state attempt (.waiting row))
      else none
  | .refusePath attempt => refusePath state attempt
  | .acquire attempt => acquire state attempt
  | .snapshotFails attempt observed => snapshotFails state disk attempt observed
  | .snapshot attempt => snapshot state disk attempt
  | .answer attempt status => answer state disk attempt status
  | .write attempt content => write state disk attempt content
  | .report attempt status observed => report state disk attempt status observed
  | .finish attempt => some (finish state attempt)
  | .serve message => serve state message

end Steps

end Phaze.Tagging
