import Phaze.Cloud.Job
import Phaze.Shared.Runs

set_option autoImplicit false

/-!
# The control-plane-unreachable breaker

`services/backend_breaker.py`. The code decides from the rows of `cloud_job`, which keep the latest
failure of a file and its latest backend; `TripRule` is the documented rule, on the exits themselves.
An exit is one step: `record_unreachable_exit`, then the row's failure record. Where the Job of an exit
that is not held is still terminating, the record has no instant, and a later tick feeds the exit again.
-/

namespace Phaze.Cloud.Breaker

def unreachableExitCode : Int := 14

def tripDistinctFiles : Nat := 3

def tripWindow : Int := seconds (15 * 60)

def probeInterval : Int := seconds (15 * 60)

inductive TripReason (File : Type) where
  | twice (file : File)
  | files (count : Nat)
deriving DecidableEq, Repr

structure BackendBreaker (File : Type) where
  trippedAt : Option Int
  tripReason : Option (TripReason File)
  nextProbeAt : Option Int
  resetAt : Option Int
deriving DecidableEq, Repr

-- The row `_lock_breaker_row` inserts for a backend that has none.
def BackendBreaker.untripped (File : Type) : BackendBreaker File :=
  { trippedAt := none, tripReason := none, nextProbeAt := none, resetAt := none }

structure UnreachableVerdict (File : Type) where
  held : Bool
  trippedNow : Bool
  reason : Option (TripReason File)
deriving DecidableEq, Repr

variable {File : Type} [DecidableEq File]

def since (breaker : BackendBreaker File) (now : Int) : Int :=
  match breaker.resetAt with
  | some resetAt => if now - tripWindow < resetAt then resetAt else now - tripWindow
  | none => now - tripWindow

-- A recorded failure that counts as an unreachable exit after `start`.
def unreachableAfter (start : Int) (exitCode : Option Int) (failedAt : Option Int) : Bool :=
  exitCode = some unreachableExitCode && failedAt.any fun failed => start < failed

def otherFiles (rows : Table File CloudJob) (backend : BackendId) (file : File) (start : Int) : Finset File :=
  rows.matching fun other row =>
    row.backendId = some backend && unreachableAfter start row.lastExitCode row.lastFailedAt && other ≠ file

def recordUnreachableExit (rows : Table File CloudJob) (breaker : BackendBreaker File) (backend : BackendId)
    (file : File) (now : Int) (previousExitCode : Option Int) (previousFailedAt : Option Int) :
    BackendBreaker File × UnreachableVerdict File :=
  if breaker.trippedAt.isSome then
    ({ breaker with nextProbeAt := some (now + probeInterval) }, ⟨true, false, breaker.tripReason⟩)
  else
    let start := since breaker now
    let distinctFiles := (otherFiles rows backend file start).card + 1
    let trip (reason : TripReason File) :=
      ({ breaker with
          trippedAt := some now, tripReason := some reason, nextProbeAt := some (now + probeInterval) },
        (⟨true, true, some reason⟩ : UnreachableVerdict File))
    if unreachableAfter start previousExitCode previousFailedAt then trip (.twice file)
    else if tripDistinctFiles ≤ distinctFiles then trip (.files distinctFiles)
    else (breaker, ⟨false, false, none⟩)

def closeBreaker (breaker : BackendBreaker File) (now : Int) : BackendBreaker File × Bool :=
  if breaker.trippedAt.isSome then
    ({ trippedAt := none, tripReason := none, nextProbeAt := none, resetAt := some now }, true)
  else
    (breaker, false)

/-! ## The rule -/

inductive Event (File : Type) where
  | exit (file : File) (backend : BackendId) (exitCode : Option Int) (failed : Int)
  | close (backend : BackendId) (closed : Int)
deriving DecidableEq, Repr

-- Histories are listed newest first.
def lastClose (history : List (Event File)) (backend : BackendId) : Option Int :=
  history.findSome? fun
    | .close closed instant => if closed = backend then some instant else none
    | .exit .. => none

def windowStart (history : List (Event File)) (backend : BackendId) (now : Int) : Int :=
  (lastClose history backend).elim (now - tripWindow) (max (now - tripWindow))

-- The files that exited unreachable on the backend after `start`, each as often as it did.
def unreachableExits (history : List (Event File)) (backend : BackendId) (start : Int) : List File :=
  history.filterMap fun
    | .exit file exited exitCode failed =>
        if exited = backend ∧ exitCode = some unreachableExitCode ∧ start < failed then some file else none
    | .close .. => none

def TripRule (history : List (Event File)) (backend : BackendId) (now : Int) : Prop :=
  let files := unreachableExits history backend (windowStart history backend now)
  3 ≤ files.toFinset.card ∨ ∃ file ∈ files, 2 ≤ files.count file

instance (history : List (Event File)) (backend : BackendId) (now : Int) :
    Decidable (TripRule history backend now) :=
  inferInstanceAs (Decidable (_ ∨ _))

/-! ## Runs -/

structure State (File : Type) where
  rows : Table File CloudJob
  breakers : BackendId → BackendBreaker File
  history : List (Event File)
  clock : Int

def State.initial : State File :=
  { rows := ∅, breakers := fun _ => .untripped File, history := [], clock := 0 }

inductive Action (File : Type) where
  | exited (file : File) (failure : TerminalFailure) (now : Int)
  -- The exit takes the still-terminating branch of `_redrive_under_ceiling`.
  | deferred (file : File) (failure : TerminalFailure) (now : Int)
  -- A deferred exit comes up again, and is stamped once its Job is gone.
  | refed (file : File) (stamped : Bool) (now : Int)
  | closed (backend : BackendId) (now : Int)
  | dispatched (file : File) (backend : BackendId) (placement : Placement) (now : Int)
  | removed (file : File) (now : Int)

-- What the exit is told by the breaker, and the breakers after it.
def feed (state : State File) (file : File) (row : CloudJob) (failure : TerminalFailure) (now : Int) :
    (BackendId → BackendBreaker File) × Bool :=
  if failure.exitCode = some unreachableExitCode then
    match row.backendId with
    | some backend =>
        let fed := recordUnreachableExit state.rows (state.breakers backend) backend file now row.lastExitCode
          row.lastFailedAt
        (Function.update state.breakers backend fed.1, fed.2.held)
    | none => (state.breakers, true)
  else (state.breakers, false)

def feedStep (state : State File) (file : File) (row : CloudJob) (failure : TerminalFailure) (failedAt : Option Int)
    (now : Int) : State File :=
  { state with
    rows := state.rows.insert file (recordFailure row failure failedAt)
    breakers := (feed state file row failure now).1
    clock := now }

def exitStep (state : State File) (file : File) (row : CloudJob) (failure : TerminalFailure) (failedAt : Option Int)
    (now : Int) : State File :=
  { feedStep state file row failure failedAt now with
    history :=
      match row.backendId with
      | some backend => .exit file backend failure.exitCode now :: state.history
      | none => state.history }

-- The record of a deferred exit, as `_effective_failure` reads it back.
def pending (row : CloudJob) : Option TerminalFailure :=
  if row.lastFailedAt = none then row.lastFailureReason.map fun reason => ⟨row.lastExitCode, reason⟩ else none

def closeStep (state : State File) (backend : BackendId) (now : Int) : State File :=
  { state with
    breakers := Function.update state.breakers backend (closeBreaker (state.breakers backend) now).1
    history :=
      if (closeBreaker (state.breakers backend) now).2 then .close backend now :: state.history
      else state.history
    clock := now }

def step (state : State File) : Action File → Option (State File)
  | .exited file failure now =>
      if state.clock ≤ now then
        (state.rows.lookup file).map fun row => exitStep state file row failure (some now) now
      else none
  | .deferred file failure now =>
      if state.clock ≤ now then
        (state.rows.lookup file).bind fun row =>
          if (feed state file row failure now).2 then none else some (exitStep state file row failure none now)
      else none
  | .refed file stamped now =>
      if state.clock ≤ now then
        (state.rows.lookup file).bind fun row => (pending row).bind fun failure =>
          if stamped then some (feedStep state file row failure (some now) now)
          else if (feed state file row failure now).2 then none
          else some (feedStep state file row failure none now)
      else none
  | .closed backend now => if state.clock ≤ now then some (closeStep state backend now) else none
  | .dispatched file backend placement now =>
      if state.clock ≤ now then
        some { state with
          rows := state.rows.insert file (dispatchRow (state.rows.lookup file) backend placement now)
          clock := now }
      else none
  | .removed file now =>
      if state.clock ≤ now then some { state with rows := state.rows.erase file, clock := now } else none

-- The row's failure counts on a closed breaker of `backend`.
def Evidence (state : State File) (backend : BackendId) (row : CloudJob) (now : Int) : Prop :=
  (state.breakers backend).trippedAt = none ∧
    unreachableAfter (since (state.breakers backend) now) row.lastExitCode row.lastFailedAt = true

instance (state : State File) (backend : BackendId) (row : CloudJob) (now : Int) :
    Decidable (Evidence state backend row now) :=
  inferInstanceAs (Decidable (_ ∧ _))

-- The step leaves standing what the rows show of the unreachable exits in the window, and brings no exit of
-- another backend into it. An unreachable exit is not deferred.
def KeepsEvidence (state : State File) : Action File → Prop
  | .exited file failure now =>
      failure.exitCode = some unreachableExitCode ∨
        ∀ row ∈ state.rows.lookup file, ∀ backend ∈ row.backendId, ¬ Evidence state backend row now
  | .deferred file failure now =>
      failure.exitCode ≠ some unreachableExitCode ∧
        ∀ row ∈ state.rows.lookup file, ∀ backend ∈ row.backendId, ¬ Evidence state backend row now
  | .refed _ _ _ => True
  | .closed _ _ => True
  | .dispatched file backend _ now =>
      ∀ row ∈ state.rows.lookup file, row.backendId = some backend ∨
        (¬ Evidence state backend row now ∧ ∀ old ∈ row.backendId, ¬ Evidence state old row now)
  | .removed file now =>
      ∀ row ∈ state.rows.lookup file, ∀ backend ∈ row.backendId, ¬ Evidence state backend row now

instance (state : State File) : ∀ action, Decidable (KeepsEvidence state action)
  | .exited _ failure _ => inferInstanceAs (Decidable (failure.exitCode = some unreachableExitCode ∨ _))
  | .deferred _ failure _ => inferInstanceAs (Decidable (failure.exitCode ≠ some unreachableExitCode ∧ _))
  | .refed _ _ _ => isTrue trivial
  | .closed _ _ => isTrue trivial
  | .dispatched file _ _ _ => inferInstanceAs (Decidable (∀ row ∈ state.rows.lookup file, _))
  | .removed file _ => inferInstanceAs (Decidable (∀ row ∈ state.rows.lookup file, _))

end Phaze.Cloud.Breaker
