import Mathlib

set_option autoImplicit false

/-!
# The outcome of one file's analysis

The `analysis` row of a file with its windows, its `set_profile` row and its `process_file` ledger row, under the
three callbacks of `routers/agent_analysis.py`. The callbacks are steps: any of them arrives at any time, any
number of times. The file itself stays; the staged object is deleted after the commit and is not part of the rows.
-/

namespace Phaze.Analysis

-- A JSON or scalar value as the callback carries it; no rule reads it.
abbrev Value := String

-- The agents are told apart by the instants at which their attempts were enqueued.
abbrev Attempt := Int

/-! ## The rows -/

structure AnalysisRow where
  bpm : Option Value := none
  musicalKey : Option Value := none
  mood : Option Value := none
  style : Option Value := none
  dominantStyle : Option String := none
  features : Option Value := none
  fineWindowsAnalyzed : Option Nat := none
  fineWindowsTotal : Option Nat := none
  coarseWindowsAnalyzed : Option Nat := none
  coarseWindowsTotal : Option Nat := none
  coarseWorkPercent : Option Nat := none
  coarseWorkDone : Option Nat := none
  coarseWorkTotal : Option Nat := none
  analysisCompletedAt : Option Int := none
  failedAt : Option Int := none
  errorMessage : Option String := none
deriving DecidableEq

inductive Tier where
  | fine
  | coarse
deriving DecidableEq

structure Window where
  tier : Tier
  windowIndex : Nat
  startSec : ℚ
  endSec : ℚ
  style : Option String
  -- `bpm`, `musical_key`, `mood`, `danceability` and `features`
  measured : Value
  -- The projection of the window; NULL until `annotate_window_rows` has computed it.
  energy : Option Value := none
  moodScores : Option Value := none
deriving DecidableEq

structure Ledger where
  enqueuedAt : Int
  terminalAt : Option Int
deriving DecidableEq

structure Db (Profile : Type) where
  analysis : Option AnalysisRow := none
  windows : List Window := []
  setProfile : Option Profile := none
  ledger : Option Ledger := none
  -- A `saq_jobs` row of the key is `queued`.
  queued : Bool := false
  -- The `cloud_job` row of the file is `awaiting`.
  awaiting : Bool := false
deriving DecidableEq

/-! ## The callbacks -/

-- What `exclude_unset` and `_fold_wire_fields` leave of the fields: unset, or set to a value or to NULL.
structure Dumped where
  bpm : Option (Option Value) := none
  musicalKey : Option (Option Value) := none
  mood : Option (Option Value) := none
  style : Option (Option Value) := none
  dominantStyle : Option (Option String) := none
  features : Option (Option Value) := none
  fineWindowsAnalyzed : Option (Option Nat) := none
  fineWindowsTotal : Option (Option Nat) := none
  coarseWindowsAnalyzed : Option (Option Nat) := none
  coarseWindowsTotal : Option (Option Nat) := none
deriving DecidableEq

structure WritePayload where
  fields : Dumped := {}
  -- The first label of `style`, which the fold takes where nothing else names the dominant style.
  styleLabel : Option String := none
  windows : Option (List Window) := none
deriving DecidableEq

structure ProgressPayload where
  fineWindowsAnalyzed : Nat
  fineWindowsTotal : Nat
  coarseWindowsAnalyzed : Option Nat := none
  coarseWindowsTotal : Option Nat := none
  coarseWorkPercent : Option Nat := none
  coarseWorkDone : Option Nat := none
  coarseWorkTotal : Option Nat := none
deriving DecidableEq

inductive Reason where
  | timeout
  | crashed
  | error
deriving DecidableEq

def Reason.text : Reason → String
  | .timeout => "timeout"
  | .crashed => "crashed"
  | .error => "error"

structure FailurePayload where
  attemptEnqueuedAt : Option Int := none
  reason : Reason
  error : Option String := none
deriving DecidableEq

-- How the liveness probe of `clear_ledger_entry` ends.
inductive Probe where
  | answered
  | missingTable
  | degraded
deriving DecidableEq

-- Which parts of the projection raise.
structure Faults where
  annotate : Bool := false
  build : Bool := false
  upsert : Bool := false
deriving DecidableEq

/-! ## Finalizing -/

section Finalize

variable {Profile : Type}

-- `clear_ledger_entry` with `from_running_job`: only a queued row of the key protects the ledger row.
def clearLedgerEntry (db : Db Profile) : Probe → Db Profile
  | .answered => if db.queued then db else { db with ledger := none }
  | .missingTable => { db with ledger := none }
  | .degraded => db

def finalizeAnalysisOutcome (db : Db Profile) (probe : Probe) : Db Profile :=
  { clearLedgerEntry db probe with awaiting := false }

def markAnalysisAttemptTerminal (db : Db Profile) (enqueuedAt now : Int) : Db Profile :=
  { db with ledger := db.ledger.map fun row =>
      if row.enqueuedAt = enqueuedAt then { row with terminalAt := some now } else row }

def analysisFailureAckMatches (db : Db Profile) (enqueuedAt : Int) : Bool :=
  match db.ledger with
  | none => true
  | some row => decide (row.enqueuedAt = enqueuedAt)

end Finalize

/-! ## The write of a result -/

-- The weights in the order in which the styles are first met.
def weigh (weights : List (String × ℚ)) (style : String) (duration : ℚ) : List (String × ℚ) :=
  if weights.any fun entry => entry.1 = style then
    weights.map fun entry => if entry.1 = style then (entry.1, entry.2 + duration) else entry
  else weights ++ [(style, duration)]

-- `max` keeps the first of equal weights.
def heaviest : List (String × ℚ) → Option (String × ℚ)
  | [] => none
  | entry :: rest => some (rest.foldl (fun best other => if best.2 < other.2 then other else best) entry)

def dominantFromWindows (windows : List Window) : Option String :=
  let ordered := windows.insertionSort fun one other => one.windowIndex ≤ other.windowIndex
  let weights := ordered.foldl (fun weights window =>
    match window.tier, window.style with
    | .coarse, some style => if style.isEmpty then weights else weigh weights style (window.endSec - window.startSec)
    | _, _ => weights) []
  (heaviest weights).map (·.1)

def WritePayload.dumped (body : WritePayload) : Dumped :=
  let fromWindows := if body.fields.dominantStyle.isNone then dominantFromWindows (body.windows.getD []) else none
  let named := (body.fields.dominantStyle.orElse fun _ => fromWindows.map some).orElse fun _ => body.styleLabel.map some
  { body.fields with dominantStyle := named }

-- `build_field_lww_set_clause`: the fields that are set, and the failure marker cleared.
def AnalysisRow.setFields (row : AnalysisRow) (dumped : Dumped) : AnalysisRow :=
  { row with
    bpm := dumped.bpm.getD row.bpm
    musicalKey := dumped.musicalKey.getD row.musicalKey
    mood := dumped.mood.getD row.mood
    style := dumped.style.getD row.style
    dominantStyle := dumped.dominantStyle.getD row.dominantStyle
    features := dumped.features.getD row.features
    fineWindowsAnalyzed := dumped.fineWindowsAnalyzed.getD row.fineWindowsAnalyzed
    fineWindowsTotal := dumped.fineWindowsTotal.getD row.fineWindowsTotal
    coarseWindowsAnalyzed := dumped.coarseWindowsAnalyzed.getD row.coarseWindowsAnalyzed
    coarseWindowsTotal := dumped.coarseWindowsTotal.getD row.coarseWindowsTotal
    failedAt := none
    errorMessage := none }

section Callbacks

-- `annotate_window_rows` and `build_profile`.
variable {Profile : Type} (annotate : List Window → List Window) (buildProfile : List Window → Profile)

def replaceAnalysisWindows (db : Db Profile) (windows : List Window) (faults : Faults) : Db Profile :=
  let cleared := { db with windows := [], setProfile := none }
  if windows.isEmpty then cleared
  else
    let rows := if faults.annotate then windows else annotate windows
    let inserted := { cleared with windows := rows }
    if faults.annotate || faults.build || faults.upsert then inserted
    else { inserted with setProfile := some (buildProfile rows) }

def putAnalysis (db : Db Profile) (body : WritePayload) (faults : Faults) (now : Int) (probe : Probe) : Db Profile :=
  let dumped := body.dumped
  -- A new row starts from NULLs; with nothing set, a row that exists stays as it is.
  let row := db.analysis.getD {}
  let upserted := { db with analysis := some (if dumped = {} then row else row.setFields dumped) }
  let replaced := match body.windows with
    | none => upserted
    | some windows => replaceAnalysisWindows annotate buildProfile upserted windows faults
  let completed :=
    if dumped = {} then replaced
    else { replaced with analysis := replaced.analysis.map fun row =>
      { row with analysisCompletedAt := some now, coarseWorkPercent := some 100 } }
  finalizeAnalysisOutcome completed probe

/-! ## Progress -/

-- `greatest` of the database skips NULL.
def greatest : Option Nat → Option Nat → Option Nat
  | none, incoming => incoming
  | stored, none => stored
  | some stored, some incoming => some (max stored incoming)

-- A new run's initial zero.
def ProgressPayload.restarts (body : ProgressPayload) (counter : Option Nat) : Bool :=
  decide (counter = some 0 ∧ body.fineWindowsAnalyzed = 0 ∧ body.coarseWindowsAnalyzed = some 0)

def ProgressPayload.inserted (body : ProgressPayload) : AnalysisRow :=
  let coarse := body.coarseWindowsAnalyzed.isSome && body.coarseWindowsTotal.isSome
  let steps := body.coarseWorkDone.isSome && body.coarseWorkTotal.isSome
  { fineWindowsAnalyzed := some body.fineWindowsAnalyzed
    fineWindowsTotal := some body.fineWindowsTotal
    coarseWindowsAnalyzed := if coarse then body.coarseWindowsAnalyzed else none
    coarseWindowsTotal := if coarse then body.coarseWindowsTotal else none
    coarseWorkPercent := body.coarseWorkPercent
    coarseWorkDone := if steps then body.coarseWorkDone else none
    coarseWorkTotal := if steps then body.coarseWorkTotal else none }

def AnalysisRow.progressed (row : AnalysisRow) (body : ProgressPayload) : AnalysisRow :=
  let coarse := body.coarseWindowsAnalyzed.isSome && body.coarseWindowsTotal.isSome
  let steps := body.coarseWorkDone.isSome && body.coarseWorkTotal.isSome
  { row with
    fineWindowsAnalyzed := some body.fineWindowsAnalyzed
    fineWindowsTotal := some body.fineWindowsTotal
    coarseWindowsAnalyzed := if coarse then body.coarseWindowsAnalyzed else row.coarseWindowsAnalyzed
    coarseWindowsTotal := if coarse then body.coarseWindowsTotal else row.coarseWindowsTotal
    coarseWorkPercent :=
      if body.restarts body.coarseWorkPercent then some 0 else greatest row.coarseWorkPercent body.coarseWorkPercent
    coarseWorkDone :=
      if steps then
        if body.restarts body.coarseWorkDone then some 0 else greatest row.coarseWorkDone body.coarseWorkDone
      else row.coarseWorkDone
    coarseWorkTotal := if steps then body.coarseWorkTotal else row.coarseWorkTotal }

def postAnalysisProgress (db : Db Profile) (body : ProgressPayload) : Db Profile :=
  { db with analysis := some (match db.analysis with
      | none => body.inserted
      | some row => row.progressed body) }

/-! ## A failure -/

-- `sanitize_pg_text`, then the bound of the column.
def errorMessage (body : FailurePayload) : String :=
  let composed := body.reason.text ++ ": " ++ body.error.getD "None"
  String.ofList ((composed.toList.filter (· ≠ Char.ofNat 0)).take 2000)

-- The conflict clause writes only a row that is not complete.
def AnalysisRow.failed (row : AnalysisRow) (now : Int) (message : String) : AnalysisRow :=
  if row.analysisCompletedAt.isNone then { row with failedAt := some now, errorMessage := some message } else row

def reportAnalysisFailed (db : Db Profile) (body : FailurePayload) (now : Int) (probe : Probe) : Db Profile :=
  if (body.attemptEnqueuedAt.map (analysisFailureAckMatches db)).getD true then
    let stamped := { db with analysis := some ((db.analysis.getD {}).failed now (errorMessage body)) }
    let marked := match body.attemptEnqueuedAt with
      | none => stamped
      | some enqueuedAt => markAnalysisAttemptTerminal stamped enqueuedAt now
    finalizeAnalysisOutcome marked probe
  else db

/-! ## Runs -/

-- The attempts whose final PUT has been applied are kept beside the rows; no callback reads them.
structure State (Profile : Type) where
  db : Db Profile := {}
  finished : List Attempt := []
deriving DecidableEq

inductive Action where
  | put (attempt : Attempt) (isFinal : Bool) (body : WritePayload) (faults : Faults) (now : Int) (probe : Probe)
  | progress (attempt : Attempt) (body : ProgressPayload)
  | fail (attempt : Attempt) (body : FailurePayload) (now : Int) (probe : Probe)
  -- `upsert_ledger_entry` of a new attempt
  | enqueue (instant : Int)
  -- The broker and the cloud hold of the file change.
  | surroundings (queued awaiting : Bool)
deriving DecidableEq

def next (state : State Profile) : Action → State Profile
  | .put attempt isFinal body faults now probe =>
      { db := putAnalysis annotate buildProfile state.db body faults now probe
        finished := if isFinal then attempt :: state.finished else state.finished }
  | .progress _ body => { state with db := postAnalysisProgress state.db body }
  | .fail _ body now probe => { state with db := reportAnalysisFailed state.db body now probe }
  | .enqueue instant => { state with db := { state.db with ledger := some { enqueuedAt := instant, terminalAt := none } } }
  | .surroundings queued awaiting => { state with db := { state.db with queued, awaiting } }

def step (state : State Profile) (action : Action) : Option (State Profile) :=
  some (next annotate buildProfile state action)

end Callbacks

end Phaze.Analysis
