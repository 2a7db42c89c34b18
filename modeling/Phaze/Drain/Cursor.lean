import Phaze.Drain.Writes

set_option autoImplicit false

/-!
# The queue behind the ticks

`get_cloud_staging_candidates` and the keyset walk of `tasks/release_awaiting_cloud.py`: where a tick
starts in the queue, which rows it reaches, and the position it carries to the next one.
-/

namespace Phaze.Drain

-- The row value `(created_at, id)`.
abbrev Position := Lex (Int × Nat)

structure Queued (File : Type) where
  position : Position
  candidate : Candidate File

structure Queue (File : Type) where
  rows : List (Queued File)
  fifo : rows.Pairwise fun first second => first.position < second.position

section Queue

variable {File : Type}

def Queue.behind (queue : Queue File) : Option Position → List (Queued File)
  | none => queue.rows
  | some after => queue.rows.filter fun row => after < row.position

def getCloudStagingCandidates (queue : Queue File) (limit : Nat) (after : Option Position) : List (Queued File) :=
  (queue.behind after).take limit

-- `_first_candidate_page`: past the cursor, or from the head when nothing lies past it.
def firstCandidatePage (queue : Queue File) (limit : Nat) (cursor : Option Position) : List (Queued File) :=
  let rows := getCloudStagingCandidates queue limit cursor
  if rows.isEmpty then getCloudStagingCandidates queue limit none else rows

def lastPosition (page : List (Queued File)) : Option Position :=
  page.getLast?.map Queued.position

end Queue

section Walking

variable {File : Type} [DecidableEq File] (settings : Settings)

-- The rows of a page that the loop body is entered for, each with the slots it is routed against.
def reachedPage (walk : Walk File) : List (Queued File) → List (Queued File × List BackendSlot)
  | [] => []
  | row :: rest =>
      let (next, event) := stageCandidate settings walk row.candidate (rest.length + 1)
      match event with
      | .vanished | .aborted | .poisoned => [(row, walk.slots)]
      | .held _ | .dispatched _ | .raised .. => (row, walk.slots) :: reachedPage next rest

structure PagedWalk (File : Type) where
  walk : Walk File
  events : List (Event File)
  reached : List (Queued File × List BackendSlot)
  resumeAfter : Option Position

-- The one ending of `_next_candidate_page` that leaves a position: the scan budget is spent, slots are left.
def spendsBudget (walk : Walk File) (events : List (Event File)) (pageLength pageLimit : Nat) : Bool :=
  .vanished ∉ events && .aborted ∉ events && freeSlots walk.slots ≠ 0 && pageLimit ≤ pageLength &&
    maxCandidateScan ≤ walk.scanned

-- `_walk_candidate_pages` with the queries of `_next_candidate_page`.
def walkPages (queue : Queue File) : Nat → Walk File → List (Queued File) → Nat → PagedWalk File
  | 0, walk, _, _ => { walk := walk, events := [], reached := [], resumeAfter := none }
  | fuel + 1, walk, page, pageLimit =>
      let counted := { walk with scanned := walk.scanned + page.length }
      let (next, events) := stageCandidatePage settings counted (page.map Queued.candidate)
      let reached := reachedPage settings counted page
      let last := lastPosition page
      match nextCandidatePage next events page.length pageLimit (queue.behind last).isEmpty with
      | .stop =>
          { walk := next
            events := events
            reached := reached
            resumeAfter := if spendsBudget next events page.length pageLimit then last else none }
      | .abort => { walk := next, events := events ++ [.aborted], reached := reached, resumeAfter := none }
      | .page limit =>
          let later := walkPages queue fuel next (getCloudStagingCandidates queue limit last) limit
          { later with events := events ++ later.events, reached := reached ++ later.reached }

structure QueueTick (File : Type) where
  enabled : Bool
  fileserverOnline : Bool
  slots : List BackendSlot
  queue : Queue File
  commitRaises : Bool
  abortedCommitRaises : Bool

namespace QueueTick

variable (tick : QueueTick File) (cursor : Option Position)

-- The rows from where the tick starts.
def start : List (Queued File) :=
  if (tick.queue.behind cursor).isEmpty then tick.queue.rows else tick.queue.behind cursor

def firstPage : List (Queued File) :=
  firstCandidatePage tick.queue (freeSlots tick.slots) cursor

def walks : Bool :=
  tick.enabled && freeSlots tick.slots ≠ 0 && !(tick.firstPage cursor).isEmpty && tick.fileserverOnline

def paged : PagedWalk File :=
  if tick.walks cursor then
    walkPages settings tick.queue ((tick.start cursor).length + 1) (.start tick.slots) (tick.firstPage cursor)
      (freeSlots tick.slots)
  else { walk := .start tick.slots, events := [], reached := [], resumeAfter := none }

-- What `_resume_cursor` is after the tick. Only a tick whose COMMIT returns sets it, and one without rows.
def nextCursor : Option Position :=
  if !tick.enabled || freeSlots tick.slots = 0 then cursor
  else if (tick.firstPage cursor).isEmpty then none
  else if !tick.fileserverOnline then cursor
  else
    let paged := tick.paged settings cursor
    if .aborted ∈ paged.events then cursor
    else if (if .poisoned ∈ paged.events then tick.abortedCommitRaises else tick.commitRaises) then cursor
    else paged.resumeAfter

-- The tick without its queue, which starts at the first page.
def toTick : Tick File :=
  { enabled := tick.enabled
    fileserverOnline := tick.fileserverOnline
    slots := tick.slots
    candidates := (tick.start cursor).map Queued.candidate
    commitRaises := tick.commitRaises
    abortedCommitRaises := tick.abortedCommitRaises }

end QueueTick

-- The ticks of a run, each with the cursor it starts from.
def visits : Option Position → List (QueueTick File) → List (QueueTick File × Option Position)
  | _, [] => []
  | cursor, tick :: rest => (tick, cursor) :: visits (tick.nextCursor settings cursor) rest

end Walking

end Phaze.Drain
