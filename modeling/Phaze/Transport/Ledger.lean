import Mathlib

set_option autoImplicit false

/-!
# The ledger of the remote transport

The two tables of `models/remote_transport.py`, one account for each provider with the advisory lock of the provider,
and the exchanges of `services/remote_transport.py`. The wall clock is common and never runs backwards; a sleep
lasts at least its argument. An exchange may end at any await: its session goes, and with it the lock.
-/

namespace Phaze.Transport

abbrev Provider := String
abbrev RunId := Nat

-- `MAX_RETRY_AFTER_SECONDS`
def maxRetryAfter : ℚ := 3600

/-! ## Policy -/

structure Profile where
  minGap : ℚ
  perRunBudget : Nat
  durableBudget : Nat
  durableWindow : ℚ
deriving DecidableEq

structure Policy where
  available : Bool
  profile : Profile
deriving DecidableEq

-- The profiles of the transport, and the policy that resolves another one where there is one.
structure Setup where
  profile : Provider → Profile
  policy : Option (Provider → Policy)

def Setup.effective (setup : Setup) (provider : Provider) : Profile :=
  match setup.policy with
  | none => setup.profile provider
  | some resolve => (resolve provider).profile

/-! ## The tables -/

structure Ledger where
  ordinal : Nat
  lastReservedAt : Option ℚ
  notBefore : Option ℚ
  stopCode : Option String
deriving DecidableEq

inductive Kind where
  | search
  | fetch
  | robots
deriving DecidableEq

structure Attempt where
  ordinal : Nat
  reservedAt : ℚ
  kind : Kind
  run : RunId
  outcome : Option String
  -- The crawl delay of the exchange; not a column.
  crawlDelay : Option ℚ
deriving DecidableEq

structure Account where
  ledger : Option Ledger
  attempts : List Attempt
  -- The exchange whose session has the advisory lock.
  holder : Option Nat
  -- Each `not_before` that was recorded, with the number of attempts there were; not a column.
  recorded : List (Nat × ℚ)
deriving DecidableEq

def Account.empty : Account := { ledger := none, attempts := [], holder := none, recorded := [] }

def Account.highest (account : Account) : Nat :=
  (account.attempts.map (·.ordinal)).foldl max 0

def Account.latest (account : Account) : Option ℚ :=
  (account.attempts.find? fun attempt => attempt.ordinal = account.highest).map (·.reservedAt)

-- `_load`: nothing where the ledger and the attempts disagree.
def Account.load (account : Account) : Option Ledger :=
  match account.ledger with
  | none =>
      if account.attempts.isEmpty then
        some { ordinal := 0, lastReservedAt := none, notBefore := none, stopCode := none }
      else none
  | some row =>
      if row.ordinal = account.attempts.length ∧ account.highest = row.ordinal ∧ row.lastReservedAt = account.latest then
        some row
      else none

def Account.inWindow (account : Account) (now window : ℚ) : Nat :=
  (account.attempts.filter fun attempt => now - window < attempt.reservedAt).length

def Account.ofRun (account : Account) (run : RunId) : Nat :=
  (account.attempts.filter fun attempt => attempt.run = run).length

/-! ## Runs and exchanges -/

-- A `RemoteTransportRun`.
structure Run where
  id : RunId
  durable : Bool
  spent : Provider → Nat

inductive Stage where
  | waiting
  | locked
  -- The policy has been resolved.
  | governed
  -- The spending of a durable run has been counted.
  | counted
  | loaded (ledger : Ledger)
  | sleeping (wakeAt : ℚ)
  -- The ledger has been read again after the sleep.
  | woken (ledger : Ledger)
  | ready (ordinal : Nat)
  -- The reservation is in an open transaction.
  | reserving (ordinal : Nat) (reservedAt : ℚ)
  | reserved (ordinal : Nat)
  -- The exchange has its result, or was interrupted while it was sent.
  | answered (ordinal : Nat) (outcome : String) (notBefore : Option ℚ) (stop : Option String)
  -- The result is returned; the lock is still held.
  | leaving
  | over
deriving DecidableEq

structure Exchange where
  provider : Provider
  run : Nat
  kind : Kind
  crawlDelay : Option ℚ
  deadline : ℚ
  profile : Profile
  gap : ℚ
  stage : Stage
deriving DecidableEq

structure State where
  now : ℚ
  accounts : Provider → Account
  runs : List Run
  exchanges : List Exchange
  -- A `_load` has found a ledger that disagrees with its attempts.
  corrupt : Bool

def State.initial (now : ℚ) : State :=
  { now, accounts := fun _ => .empty, runs := [], exchanges := [], corrupt := false }

/-! ## Steps of an exchange -/

-- What the host answers, or that the send fails.
structure Answer where
  outcome : String
  notBefore : Option ℚ
  stop : Option String
deriving DecidableEq

inductive Action where
  | tick (now : ℚ)
  | openRun (id : RunId) (durable : Bool)
  | begin (provider : Provider) (run : Nat) (kind : Kind) (crawlDelay : Option ℚ) (deadline : ℚ)
  | lock (index : Nat)
  | govern (index : Nat)
  | count (index : Nat) (cached : Bool)
  | load (index : Nat) (clockOk : Bool)
  -- The wait for the quarantine of the process is known to the process alone.
  | pace (index : Nat) (quarantine : ℚ)
  | wake (index : Nat) (clockOk : Bool)
  | recheck (index : Nat)
  | reserve (index : Nat)
  | commit (index : Nat)
  | send (index : Nat) (answer : Answer)
  | record (index : Nat)
  | leave (index : Nat)
  -- The session of the exchange ends.
  | cut (index : Nat)
  -- The unlocked writers: a robots disallow, and the operator.
  | stop (provider : Provider) (code : String)
  | clearStop (provider : Provider)
deriving DecidableEq

def State.setExchange (state : State) (index : Nat) (exchange : Exchange) : State :=
  { state with exchanges := state.exchanges.set index exchange }

def State.setAccount (state : State) (provider : Provider) (account : Account) : State :=
  { state with accounts := Function.update state.accounts provider account }

def State.spend (state : State) (run : Nat) (provider : Provider) (spent : Nat) : State :=
  { state with runs := state.runs.modify run fun row => { row with spent := Function.update row.spent provider spent } }

-- `gap` in `read`: the profile's, widened by the crawl delay of robots.
def Setup.readGap (setup : Setup) (provider : Provider) (crawlDelay : Option ℚ) : ℚ :=
  match crawlDelay with
  | none => (setup.profile provider).minGap
  | some delay => max (setup.profile provider).minGap (min delay maxRetryAfter)

def Exchange.waits (exchange : Exchange) (ledger : Ledger) (now quarantine : ℚ) : ℚ :=
  let paced := ledger.lastReservedAt.elim 0 fun last => last - now + exchange.gap
  let held := ledger.notBefore.elim 0 fun notBefore => notBefore - now
  max (max 0 quarantine) (max paced held)

def greatest (stored incoming : Option ℚ) : Option ℚ :=
  match stored, incoming with
  | stored, none => stored
  | none, some instant => some instant
  | some before, some instant => some (max before instant)

section Exchange

variable (setup : Setup) (state : State) (index : Nat) (exchange : Exchange) (run : Run)

def State.moved (stage : Stage) : State :=
  state.setExchange index { exchange with stage }

def lockStep : Option State :=
  let account := state.accounts exchange.provider
  match account.holder with
  | none => some ((state.setAccount exchange.provider { account with holder := some index }).moved index exchange .locked)
  -- A durable run only tries the lock; a direct one waits for it.
  | some _ => if run.durable then some (state.moved index exchange .over) else none

def governStep : Option State :=
  match setup.policy with
  | none => some (state.moved index exchange .governed)
  | some resolve =>
      let policy := resolve exchange.provider
      if policy.available then
        let gap := max exchange.gap policy.profile.minGap
        some (state.setExchange index { exchange with profile := policy.profile, gap, stage := .governed })
      else some (state.moved index exchange .leaving)

def countStep (cached : Bool) : Option State :=
  if run.durable then
    let spent := (state.accounts exchange.provider).ofRun run.id
    let stage := if cached then .leaving else .counted
    some ((state.spend exchange.run exchange.provider spent).moved index exchange stage)
  else some (state.moved index exchange .counted)

def loadStep (next : Ledger → Stage) (clockOk : Bool) : Option State :=
  if clockOk then
    let account := state.accounts exchange.provider
    match account.load with
    | none => some { state.moved index exchange .leaving with corrupt := true }
    | some ledger =>
        let created := state.setAccount exchange.provider { account with ledger := some ledger }
        some (created.moved index exchange (if ledger.stopCode.isSome then .leaving else next ledger))
  else some (state.moved index exchange .leaving)

def paceStep (ledger : Ledger) (quarantine : ℚ) : Option State :=
  let delay := exchange.waits ledger state.now quarantine
  if exchange.deadline < delay ∨ (run.durable ∧ 0 < delay) then some (state.moved index exchange .leaving)
  else if 0 < delay then some (state.moved index exchange (.sleeping (state.now + delay)))
  else some (state.moved index exchange (.ready ledger.ordinal))

def recheckStep (ledger : Ledger) : Option State :=
  match setup.policy with
  | none => some (state.moved index exchange (.ready ledger.ordinal))
  | some resolve =>
      let current := resolve exchange.provider
      if !current.available then some (state.moved index exchange .leaving)
      else if exchange.gap < current.profile.minGap then
        -- `_locked_exchange` calls itself with the wider gap.
        some (state.setExchange index
          { exchange with profile := current.profile, gap := current.profile.minGap, stage := .locked })
      else
        some (state.setExchange index { exchange with profile := current.profile, stage := .ready ledger.ordinal })

def reserveStep (ordinal : Nat) : Option State :=
  let account := state.accounts exchange.provider
  if exchange.profile.durableBudget ≤ account.inWindow state.now exchange.profile.durableWindow ∨
      exchange.profile.perRunBudget ≤ run.spent exchange.provider then
    some (state.moved index exchange .leaving)
  else
    some ((state.spend exchange.run exchange.provider (run.spent exchange.provider + 1)).moved index exchange
      (.reserving (ordinal + 1) state.now))

def Ledger.reserve (row : Ledger) (attempt : Attempt) : Ledger :=
  { row with ordinal := attempt.ordinal, lastReservedAt := some attempt.reservedAt }

def Account.reserve (account : Account) (attempt : Attempt) : Account :=
  { account with
    attempts := account.attempts ++ [attempt]
    ledger := account.ledger.map (·.reserve attempt) }

def commitStep (ordinal : Nat) (reservedAt : ℚ) : Option State :=
  let account := state.accounts exchange.provider
  let attempt : Attempt :=
    { ordinal, reservedAt, kind := exchange.kind, run := run.id, outcome := none, crawlDelay := exchange.crawlDelay }
  some ((state.setAccount exchange.provider (account.reserve attempt)).moved index exchange (.reserved ordinal))

-- The policy is resolved once more before the request is sent.
def sendStep (ordinal : Nat) (answer : Answer) : Option State :=
  let refusal := setup.policy.bind fun resolve =>
    let current := resolve exchange.provider
    if current.profile.perRunBudget < run.spent exchange.provider then some "run_budget_exhausted"
    else if exchange.profile.minGap < current.profile.minGap then some "paced"
    else if current.available then none
    else some "disabled_provider"
  match refusal with
  | some code => some (state.moved index exchange (.answered ordinal code none none))
  | none => some (state.moved index exchange (.answered ordinal answer.outcome answer.notBefore answer.stop))

def Ledger.record (row : Ledger) (notBefore : Option ℚ) (stop : Option String) : Ledger :=
  { row with
    notBefore := greatest row.notBefore notBefore
    stopCode := if row.stopCode.isNone then stop else row.stopCode }

def Account.record (account : Account) (ordinal : Nat) (outcome : String) (notBefore : Option ℚ) (stop : Option String) :
    Account :=
  { account with
    attempts := account.attempts.map fun attempt =>
      if attempt.ordinal = ordinal then { attempt with outcome := some outcome } else attempt
    ledger := account.ledger.map (·.record notBefore stop)
    recorded := account.recorded ++ (notBefore.map fun instant => (account.attempts.length, instant)).toList }

def recordStep (ordinal : Nat) (outcome : String) (notBefore : Option ℚ) (stop : Option String) : Option State :=
  let account := (state.accounts exchange.provider).record ordinal outcome notBefore stop
  some ((state.setAccount exchange.provider account).moved index exchange .leaving)

-- The end of a session releases the lock that it holds.
def releaseStep : Option State :=
  let account := state.accounts exchange.provider
  let holder := if account.holder = some index then none else account.holder
  some ((state.setAccount exchange.provider { account with holder }).moved index exchange .over)

def exchangeStep : Stage → Action → Option State
  | .over, _ => none
  | _, .cut _ => releaseStep state index exchange
  | .waiting, .lock _ => lockStep state index exchange run
  | .locked, .govern _ => governStep setup state index exchange
  | .governed, .count _ cached => countStep state index exchange run cached
  | .counted, .load _ clockOk => loadStep state index exchange .loaded clockOk
  | .loaded ledger, .pace _ quarantine => paceStep state index exchange run ledger quarantine
  | .sleeping wakeAt, .wake _ clockOk =>
      if wakeAt ≤ state.now then loadStep state index exchange .woken clockOk else none
  | .woken ledger, .recheck _ => recheckStep setup state index exchange ledger
  | .ready ordinal, .reserve _ => reserveStep state index exchange run ordinal
  | .reserving ordinal reservedAt, .commit _ => commitStep state index exchange run ordinal reservedAt
  | .reserved ordinal, .send _ answer => sendStep setup state index exchange run ordinal answer
  | .answered ordinal outcome notBefore stop, .record _ => recordStep state index exchange ordinal outcome notBefore stop
  | .leaving, .leave _ => releaseStep state index exchange
  | _, _ => none

end Exchange

/-! ## Steps -/

def Account.stop (account : Account) (code : String) : Account :=
  { account with ledger := account.ledger.map fun row =>
      { row with stopCode := if row.stopCode.isNone then some code else row.stopCode } }

def Account.clearStop (account : Account) : Account :=
  { account with ledger := account.ledger.map fun row => { row with stopCode := none } }

def Action.exchange : Action → Option Nat
  | .lock index | .govern index | .count index _ | .load index _ | .pace index _ | .wake index _ | .recheck index
  | .reserve index | .commit index | .send index _ | .record index | .leave index | .cut index => some index
  | .tick _ | .openRun .. | .begin .. | .stop .. | .clearStop _ => none

def step (setup : Setup) (state : State) (action : Action) : Option State :=
  match action with
  | .tick now => if state.now ≤ now then some { state with now } else none
  -- A direct run draws a fresh id; a durable one takes up its own again.
  | .openRun id durable =>
      if state.runs.any fun run => run.id = id && !(durable && run.durable) then none
      else some { state with runs := state.runs ++ [{ id, durable, spent := fun _ => 0 }] }
  | .begin provider run kind crawlDelay deadline =>
      (state.runs[run]?).map fun _ => { state with exchanges := state.exchanges ++
        [{ provider, run, kind, crawlDelay, deadline, profile := setup.profile provider,
           gap := setup.readGap provider crawlDelay, stage := .waiting }] }
  | .stop provider code => some (state.setAccount provider ((state.accounts provider).stop code))
  | .clearStop provider => some (state.setAccount provider (state.accounts provider).clearStop)
  | action =>
      action.exchange.bind fun index => (state.exchanges[index]?).bind fun exchange =>
        (state.runs[exchange.run]?).bind fun run => exchangeStep setup state index exchange run exchange.stage action

end Phaze.Transport
