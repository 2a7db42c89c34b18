import Mathlib.Data.Rat.Defs
import Mathlib.Algebra.Order.Ring.Rat
import Phaze.Shared.Dict
import Phaze.Shared.Runs

set_option autoImplicit false

/-!
# The watcher's debouncer and its sweep loop

`Debouncer` (`agent_watcher/debouncer.py`) under the sweep loop of `agent_watcher/__main__.py`. Events reach the event
loop between any two awaits of the loop: while it sleeps, and while a post is under way.
-/

namespace Phaze.Watcher

open Runs

structure PendingEntry where
  firstSeenAt : ℚ
  lastChangeAt : ℚ
  policy : Option (ℚ × ℚ)
  capGraceUsed : Bool
deriving DecidableEq

structure Debouncer (Path : Type) where
  pending : Dict Path PendingEntry
  lineage : Dict Path (List Path)

variable {Path : Type} [DecidableEq Path]

namespace Debouncer

def new : Debouncer Path := ⟨.empty, .empty⟩

-- `policy` is what the policy provider returns at that moment, where there is one.
def touch (debouncer : Debouncer Path) (now : ℚ) (policy : Option (ℚ × ℚ)) (path : Path) : Debouncer Path :=
  match debouncer.pending.get? path with
  | none =>
    let entry := { firstSeenAt := now, lastChangeAt := now, policy, capGraceUsed := false }
    { debouncer with pending := debouncer.pending.set path entry }
  | some entry => { debouncer with pending := debouncer.pending.set path { entry with lastChangeAt := now } }

def lineageOf (debouncer : Debouncer Path) (path : Path) : List Path := (debouncer.lineage.get? path).getD []

def forget (debouncer : Debouncer Path) (path : Path) : Debouncer Path :=
  { debouncer with lineage := debouncer.lineage.pop path }

def drop (debouncer : Debouncer Path) (path : Path) : Debouncer Path :=
  { pending := debouncer.pending.pop path, lineage := debouncer.lineage.pop path }

def move (debouncer : Debouncer Path) (now : ℚ) (policy : Option (ℚ × ℚ)) (src dest : Path) : Debouncer Path :=
  let lineage := debouncer.lineageOf src ++ [src]
  let left := if (debouncer.pending.get? src).isSome then debouncer.drop src else debouncer
  let touched := left.touch now policy dest
  { touched with lineage := touched.lineage.set dest lineage }

structure Swept (Path : Type) where
  debouncer : Debouncer Path
  ready : List Path
  evicted : List Path

-- One round of the loop over the snapshot of the items.
def sweepEntry (now settlePeriod maxPending : ℚ) (swept : Swept Path) (path : Path) (entry : PendingEntry) : Swept Path :=
  let (entrySettle, entryCap) := entry.policy.getD (settlePeriod, maxPending)
  let debouncer := swept.debouncer
  if entrySettle ≤ now - entry.lastChangeAt then
    { swept with debouncer := { debouncer with pending := debouncer.pending.pop path }, ready := swept.ready ++ [path] }
  else if entryCap < now - entry.firstSeenAt then
    if entry.capGraceUsed then { swept with debouncer := debouncer.drop path, evicted := swept.evicted ++ [path] }
    else
      let graced := { entry with capGraceUsed := true, firstSeenAt := now }
      { swept with debouncer := { debouncer with pending := debouncer.pending.set path graced } }
  else swept

def sweep (debouncer : Debouncer Path) (now settlePeriod maxPending : ℚ) : Swept Path :=
  debouncer.pending.items.foldl (fun swept item => sweepEntry now settlePeriod maxPending swept item.1 item.2)
    { debouncer, ready := [], evicted := [] }

end Debouncer

/-! ## The sweep loop -/

inductive Sweeper (Path : Type) where
  | sleeping
  -- `post_one(path, previous_paths=…)` is awaited; `rest` is what `_post_ready_paths` has not come to.
  | posting (path : Path) (previousPaths rest : List Path)
deriving DecidableEq

structure State (Path : Type) where
  now : ℚ
  debouncer : Debouncer Path
  sweeper : Sweeper Path

def State.new (now : ℚ) : State Path := ⟨now, .new, .sleeping⟩

-- `for path in ready:` up to the next `await`
def postNext (debouncer : Debouncer Path) : List Path → Sweeper Path
  | [] => .sleeping
  | path :: rest => .posting path (debouncer.lineageOf path) rest

inductive Action (Path : Type) where
  | elapse (seconds : ℚ)
  | touch (policy : Option (ℚ × ℚ)) (path : Path)
  | move (policy : Option (ℚ × ℚ)) (src dest : Path)
  | sweep
  -- `post_one` returns, or raises what `_post_ready_paths` catches.
  | posted

def step (settlePeriod maxPending : ℚ) (state : State Path) : Action Path → Option (State Path)
  | .elapse seconds => if 0 ≤ seconds then some { state with now := state.now + seconds } else none
  | .touch policy path => some { state with debouncer := state.debouncer.touch state.now policy path }
  | .move policy src dest => some { state with debouncer := state.debouncer.move state.now policy src dest }
  | .sweep =>
    match state.sweeper with
    | .posting _ _ _ => none
    | .sleeping =>
      let swept := state.debouncer.sweep state.now settlePeriod maxPending
      some { state with debouncer := swept.debouncer, sweeper := postNext swept.debouncer swept.ready }
  | .posted =>
    match state.sweeper with
    | .sleeping => none
    | .posting path _ rest =>
      let debouncer := state.debouncer.forget path
      some { state with debouncer, sweeper := postNext debouncer rest }

end Phaze.Watcher
