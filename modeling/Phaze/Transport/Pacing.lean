import Phaze.Transport.Accounts
import Phaze.Shared.Runs

set_option autoImplicit false

/-!
# Reservations under the lock

Between the load of the ledger and the commit of a reservation the exchange that holds the lock is the only one that
reserves or records for its provider, so what it has read still stands when it writes.
-/

namespace Phaze.Transport

open Runs

variable {setup : Setup} {state next : State} {index : Nat} {exchange : Exchange} {run : Run}

/-! ## What an exchange may rely on -/

def Stage.holds : Stage → Bool
  | .waiting | .over => false
  | _ => true

def Stage.resolved : Stage → Bool
  | .waiting | .locked | .leaving | .over | .reserved _ | .answered .. => false
  | _ => true

-- From the count of the run to its reservation.
def Stage.spends : Stage → Bool
  | .counted | .loaded _ | .sleeping _ | .woken _ | .ready _ => true
  | _ => false

def Account.At (account : Account) (ordinal : Nat) : Prop :=
  ∃ row, account.ledger = some row ∧ row.ordinal = ordinal

def Exchange.Stands (now : ℚ) (account : Account) (run : Run) (exchange : Exchange) : Stage → Prop
  | .loaded ledger => ∃ row, account.ledger = some row ∧ row.ordinal = ledger.ordinal ∧
      row.lastReservedAt = ledger.lastReservedAt ∧ row.notBefore = ledger.notBefore
  | .sleeping wakeAt => account.Paces exchange.gap wakeAt
  | .woken ledger => account.At ledger.ordinal ∧ account.Paces exchange.gap now
  | .ready ordinal => account.At ordinal ∧ account.Paces exchange.gap now
  | .reserving ordinal reservedAt => (∃ before, ordinal = before + 1 ∧ account.At before) ∧
      account.Paces exchange.gap reservedAt ∧ reservedAt ≤ now ∧
      account.inWindow reservedAt exchange.profile.durableWindow < exchange.profile.durableBudget ∧
      account.ofRun run.id < exchange.profile.perRunBudget ∧
      (run.durable = false → account.ofRun run.id < run.spent exchange.provider)
  | .answered .. => account.ledger.isSome
  | .reserved _ => account.ledger.isSome
  | _ => True

structure Exchange.Fits (setup : Setup) (now : ℚ) (account : Account) (index : Nat) (run : Run) (exchange : Exchange) :
    Prop where
  widened : setup.readGap exchange.provider exchange.crawlDelay ≤ exchange.gap
  plain : setup.policy = none → exchange.profile = setup.profile exchange.provider
  holds : exchange.stage.holds = true → account.holder = some index
  resolved : exchange.stage.resolved = true → exchange.profile = setup.effective exchange.provider ∧
    (setup.effective exchange.provider).minGap ≤ exchange.gap
  spends : exchange.stage.spends = true → account.ofRun run.id ≤ run.spent exchange.provider
  stands : exchange.Stands now account run exchange.stage

structure Sound (setup : Setup) (state : State) : Prop where
  accounts : ∀ provider, (state.accounts provider).Sound setup provider state.now
  exchanges : ∀ (index : Nat) (exchange : Exchange), state.exchanges[index]? = some exchange →
    ∃ run, state.runs[exchange.run]? = some run ∧
      exchange.Fits setup state.now (state.accounts exchange.provider) index run
  direct : ∀ run ∈ state.runs, run.durable = false → ∀ provider,
    (state.accounts provider).ofRun run.id ≤ run.spent provider
  apart : ∀ (first second : Nat) (one other : Run), state.runs[first]? = some one → state.runs[second]? = some other →
    one.durable = false → one.id = other.id → first = second
  opened : ∀ provider, ∀ attempt ∈ (state.accounts provider).attempts, ∃ run ∈ state.runs, run.id = attempt.run
  clean : state.corrupt = false

theorem Sound.initial (setup : Setup) (now : ℚ) : Sound setup (State.initial now) where
  accounts := fun provider => .empty setup provider now
  exchanges := by simp [State.initial]
  direct := by simp [State.initial]
  apart := by simp [State.initial]
  opened := by simp [State.initial, Account.empty]
  clean := rfl

theorem Exchange.Fits.later {now after : ℚ} {account : Account} (fits : exchange.Fits setup now account index run)
    (later : now ≤ after) : exchange.Fits setup after account index run := by
  refine { fits with stands := ?_ }
  have stands := fits.stands
  cases stage : exchange.stage <;> rw [stage] at stands <;> simp only [Exchange.Stands] at stands ⊢ <;> try exact stands
  · exact ⟨stands.1, stands.2.later later⟩
  · exact ⟨stands.1, stands.2.later later⟩
  · exact ⟨stands.1, stands.2.1, stands.2.2.1.trans later, stands.2.2.2⟩

theorem Account.Paces.rewritten {account : Account} {gap instant : ℚ} (paces : account.Paces gap instant)
    {write : Ledger → Ledger} (keeps : Ledger.Keeps write) :
    { account with ledger := account.ledger.map write }.Paces gap instant := by
  obtain ⟨row, stored, spaced, held⟩ := paces
  refine ⟨write row, by simp [stored], ?_, ?_⟩
  · rw [(keeps row).2.1]
    exact spaced
  · rw [(keeps row).2.2]
    exact held

theorem Account.At.rewritten {account : Account} {ordinal : Nat} (at' : account.At ordinal)
    {write : Ledger → Ledger} (keeps : Ledger.Keeps write) :
    { account with ledger := account.ledger.map write }.At ordinal := by
  obtain ⟨row, stored, counted⟩ := at'
  exact ⟨write row, by simp [stored], (keeps row).1.trans counted⟩

theorem Exchange.Fits.rewritten {now : ℚ} {account : Account} (fits : exchange.Fits setup now account index run)
    {write : Ledger → Ledger} (keeps : Ledger.Keeps write) :
    exchange.Fits setup now { account with ledger := account.ledger.map write } index run := by
  refine ⟨fits.widened, fits.plain, fits.holds, fits.resolved, fits.spends, ?_⟩
  have stands := fits.stands
  cases stage : exchange.stage <;> rw [stage] at stands <;> simp only [Exchange.Stands] at stands ⊢
  case loaded ledger =>
    obtain ⟨row, stored, ordinal, last, held⟩ := stands
    exact ⟨write row, by simp [stored], (keeps row).1.trans ordinal, (keeps row).2.1.trans last,
      (keeps row).2.2.trans held⟩
  case sleeping wakeAt => exact stands.rewritten keeps
  case woken ledger => exact ⟨stands.1.rewritten keeps, stands.2.rewritten keeps⟩
  case ready ordinal => exact ⟨stands.1.rewritten keeps, stands.2.rewritten keeps⟩
  case reserving ordinal reservedAt =>
    obtain ⟨⟨before, next, at'⟩, paces, rest⟩ := stands
    exact ⟨⟨before, next, at'.rewritten keeps⟩, paces.rewritten keeps, rest⟩
  case reserved ordinal => simpa using stands
  case answered => simpa using stands

-- An exchange that does not have the lock relies on nothing of its account.
theorem Exchange.Fits.idle {now : ℚ} {account other : Account} {spent : Run}
    (fits : exchange.Fits setup now account index run) (idle : exchange.stage.holds = false) :
    exchange.Fits setup now other index spent := by
  cases stage : exchange.stage <;> simp only [stage, Stage.holds, reduceCtorEq] at idle
  all_goals
    constructor
    case widened => exact fits.widened
    case plain => exact fits.plain
    all_goals simp [stage, Stage.holds, Stage.resolved, Stage.spends, Exchange.Stands]

-- The runs differ only in what they have spent at the provider.
structure Agree (provider : Provider) (runs others : List Run) : Prop where
  length : others.length = runs.length
  same : ∀ (place : Nat) (other : Run), others[place]? = some other → ∃ run, runs[place]? = some run ∧
    other.id = run.id ∧ other.durable = run.durable ∧ ∀ elsewhere, elsewhere ≠ provider →
      other.spent elsewhere = run.spent elsewhere

theorem Agree.refl (provider : Provider) (runs : List Run) : Agree provider runs runs :=
  ⟨rfl, fun _ other found => ⟨other, found, rfl, rfl, fun _ _ => rfl⟩⟩

theorem Exchange.Fits.elsewhere {now : ℚ} {account : Account} {other : Run}
    (fits : exchange.Fits setup now account index run)
    (id : other.id = run.id) (durable : other.durable = run.durable)
    (spent : other.spent exchange.provider = run.spent exchange.provider) :
    exchange.Fits setup now account index other := by
  refine ⟨fits.widened, fits.plain, fits.holds, fits.resolved, ?_, ?_⟩
  · rw [id, spent]
    exact fits.spends
  · have stands := fits.stands
    cases stage : exchange.stage <;> rw [stage] at stands <;> simp only [Exchange.Stands] at stands ⊢ <;>
      try exact stands
    rw [id, durable, spent]
    exact stands

/-- A step of an exchange that has the lock, or takes a free one. -/
theorem Sound.advanced (sound : Sound setup state) (found : state.exchanges[index]? = some exchange)
    {account : Account} {after : Exchange} {runs : List Run}
    (provider : after.provider = exchange.provider) (place : after.run = exchange.run)
    (agree : Agree exchange.provider state.runs runs)
    (alone : ∀ other, other ≠ index → (state.accounts exchange.provider).holder ≠ some other)
    (kept : account.Sound setup exchange.provider state.now)
    (fits : ∀ run, runs[exchange.run]? = some run → after.Fits setup state.now account index run)
    (direct : ∀ run ∈ runs, run.durable = false → account.ofRun run.id ≤ run.spent exchange.provider)
    (opened : ∀ attempt ∈ account.attempts, ∃ run ∈ state.runs, run.id = attempt.run) :
    Sound setup { state with
      accounts := Function.update state.accounts exchange.provider account
      exchanges := state.exchanges.set index after
      runs := runs } := by
  have back : ∀ (place : Nat) (run : Run), state.runs[place]? = some run → ∃ other, runs[place]? = some other := by
    intro place run known
    have inside := (List.getElem?_eq_some_iff.mp known).1
    exact ⟨_, List.getElem?_eq_getElem (by rw [agree.length]; exact inside)⟩
  constructor
  case accounts =>
    intro other
    by_cases same : other = exchange.provider
    · subst same
      simpa using kept
    · simpa [Function.update_of_ne same] using sound.accounts other
  case exchanges =>
    intro spot other there
    simp only [List.getElem?_set] at there
    by_cases here : index = spot
    · subst here
      have inside := (List.getElem?_eq_some_iff.mp found).1
      simp only [if_true, inside, Option.some.injEq] at there
      subst there
      obtain ⟨run, known, -⟩ := sound.exchanges index exchange found
      obtain ⟨now, there⟩ := back _ run known
      refine ⟨now, by rw [place]; exact there, ?_⟩
      simpa [provider] using fits now there
    · simp only [here, if_false] at there
      obtain ⟨run, known, fit⟩ := sound.exchanges spot other there
      obtain ⟨now, there⟩ := back _ run known
      refine ⟨now, there, ?_⟩
      obtain ⟨old, before, id, durable, spent⟩ := agree.same _ now there
      obtain rfl := Option.some.inj (before.symm.trans known)
      by_cases same : other.provider = exchange.provider
      · refine fit.idle ?_
        cases holds : other.stage.holds with
        | false => rfl
        | true => exact absurd (same ▸ fit.holds holds) (alone spot (Ne.symm here))
      · simpa [Function.update_of_ne same] using fit.elsewhere id durable (spent _ same)
  case direct =>
    intro other member mine site
    obtain ⟨spot, listed⟩ := List.mem_iff_getElem?.mp member
    obtain ⟨old, before, id, durable, spent⟩ := agree.same spot other listed
    by_cases same : site = exchange.provider
    · subst same
      simpa using direct other member mine
    · simp only [Function.update_of_ne same]
      rw [id, spent _ same]
      exact sound.direct old (List.mem_of_getElem? before) (durable ▸ mine) site
  case apart =>
    intro first second one other foundOne foundOther mine ids
    obtain ⟨old, before, id, durable, -⟩ := agree.same first one foundOne
    obtain ⟨old', before', id', -, -⟩ := agree.same second other foundOther
    exact sound.apart first second old old' before before' (durable ▸ mine) (id ▸ id' ▸ ids)
  case opened =>
    intro site attempt member
    have before : ∃ run ∈ state.runs, run.id = attempt.run := by
      by_cases same : site = exchange.provider
      · subst same
        exact opened attempt (by simpa using member)
      · exact sound.opened site attempt (by simpa [Function.update_of_ne same] using member)
    obtain ⟨run, listed, id⟩ := before
    obtain ⟨spot, known⟩ := List.mem_iff_getElem?.mp listed
    obtain ⟨other, there⟩ := back spot run known
    obtain ⟨old, first, kept, -⟩ := agree.same spot other there
    obtain rfl := Option.some.inj (first.symm.trans known)
    exact ⟨other, List.mem_of_getElem? there, kept.trans id⟩
  case clean => exact sound.clean

theorem Sound.moved (sound : Sound setup state) (found : state.exchanges[index]? = some exchange) {after : Exchange}
    (provider : after.provider = exchange.provider) (place : after.run = exchange.run)
    (holds : (state.accounts exchange.provider).holder = some index)
    (fits : ∀ run, state.runs[exchange.run]? = some run →
      after.Fits setup state.now (state.accounts exchange.provider) index run) :
    Sound setup (state.setExchange index after) := by
  have moved := sound.advanced found provider place (.refl _ _) (fun other differs same => differs ?_)
    (sound.accounts exchange.provider) fits (fun run member mine => sound.direct run member mine _) (sound.opened _)
  · simpa [State.setExchange, Function.update_eq_self] using moved
  · exact Option.some.inj (same.symm.trans holds)

-- An exchange that ends without the lock.
theorem Sound.idled (sound : Sound setup state) (found : state.exchanges[index]? = some exchange) :
    Sound setup (state.moved index exchange .over) := by
  refine ⟨sound.accounts, ?_, sound.direct, sound.apart, sound.opened, sound.clean⟩
  intro spot other there
  simp only [State.moved, State.setExchange, List.getElem?_set] at there
  by_cases here : index = spot
  · subst here
    have inside := (List.getElem?_eq_some_iff.mp found).1
    simp only [if_true, inside, Option.some.injEq] at there
    subst there
    obtain ⟨run, known, fits⟩ := sound.exchanges index exchange found
    refine ⟨run, known, fits.widened, fits.plain, ?_, ?_, ?_, trivial⟩ <;>
      simp [Stage.holds, Stage.resolved, Stage.spends]
  · simp only [here, if_false] at there
    exact sound.exchanges spot other there

theorem Exchange.Fits.leaving {now : ℚ} {account : Account} (fits : exchange.Fits setup now account index run)
    (holds : exchange.stage.holds = true) (other : Run) :
    { exchange with stage := .leaving }.Fits setup now account index other where
  widened := fits.widened
  plain := fits.plain
  holds := fun _ => fits.holds holds
  resolved := by simp [Stage.resolved]
  spends := by simp [Stage.spends]
  stands := trivial

theorem Sound.left (sound : Sound setup state) (found : state.exchanges[index]? = some exchange)
    (holds : exchange.stage.holds = true) : Sound setup (state.moved index exchange .leaving) := by
  obtain ⟨run, known, fits⟩ := sound.exchanges index exchange found
  exact sound.moved found rfl rfl (fits.holds holds) fun other _ => fits.leaving holds other

/-! ## The steps -/

theorem lockStep_sound (sound : Sound setup state) (found : state.exchanges[index]? = some exchange)
    (stepped : lockStep state index exchange run = some next) : Sound setup next := by
  obtain ⟨own, known, fits⟩ := sound.exchanges index exchange found
  simp only [lockStep] at stepped
  split at stepped
  · rename_i free
    obtain rfl := Option.some.inj stepped
    refine sound.advanced found rfl rfl (.refl _ state.runs) (by simp [free])
      ((sound.accounts exchange.provider).held_by (some index)) (fun other _ => ?_)
      (fun other member mine => sound.direct other member mine exchange.provider) (sound.opened exchange.provider)
    refine ⟨fits.widened, fits.plain, fun _ => rfl, ?_, ?_, trivial⟩ <;> simp [Stage.resolved, Stage.spends]
  · split at stepped
    · obtain rfl := Option.some.inj stepped
      exact sound.idled found
    · cases stepped

theorem releaseStep_sound (sound : Sound setup state) (found : state.exchanges[index]? = some exchange)
    (stepped : releaseStep state index exchange = some next) : Sound setup next := by
  obtain ⟨own, known, fits⟩ := sound.exchanges index exchange found
  simp only [releaseStep, Option.some.injEq] at stepped
  subst stepped
  by_cases mine : (state.accounts exchange.provider).holder = some index
  · simp only [mine, if_true]
    refine sound.advanced found rfl rfl (.refl _ state.runs) (fun other differs same => ?_)
      ((sound.accounts exchange.provider).held_by none) (fun other _ => ?_)
      (fun other member direct => sound.direct other member direct exchange.provider) (sound.opened exchange.provider)
    · exact differs (Option.some.inj (same.symm.trans mine))
    · refine ⟨fits.widened, fits.plain, ?_, ?_, ?_, trivial⟩ <;> simp [Stage.holds, Stage.resolved, Stage.spends]
  · simp only [mine, if_false]
    simpa [State.setAccount, Function.update_eq_self] using sound.idled found

theorem readGap_ge (setup : Setup) (provider : Provider) (crawlDelay : Option ℚ) :
    (setup.profile provider).minGap ≤ setup.readGap provider crawlDelay := by
  cases crawlDelay with
  | none => exact le_rfl
  | some delay => exact le_max_left ..

theorem effective_plain {provider : Provider} (plain : setup.policy = none) :
    setup.effective provider = setup.profile provider := by
  rw [Setup.effective, plain]

theorem effective_resolved {resolve : Provider → Policy} (resolved : setup.policy = some resolve)
    (provider : Provider) : setup.effective provider = (resolve provider).profile := by
  rw [Setup.effective, resolved]

theorem governStep_sound (sound : Sound setup state) (found : state.exchanges[index]? = some exchange)
    (stage : exchange.stage = .locked) (stepped : governStep setup state index exchange = some next) :
    Sound setup next := by
  obtain ⟨own, known, fits⟩ := sound.exchanges index exchange found
  have holds : exchange.stage.holds = true := by rw [stage]; rfl
  have mine := fits.holds holds
  simp only [governStep] at stepped
  split at stepped
  · rename_i plain
    obtain rfl := Option.some.inj stepped
    refine sound.moved found rfl rfl mine fun other _ => ⟨fits.widened, fits.plain, fun _ => mine, fun _ => ?_, ?_, trivial⟩
    · rw [effective_plain plain]
      exact ⟨fits.plain plain, (readGap_ge ..).trans fits.widened⟩
    · simp [Stage.spends]
  · rename_i resolve resolved
    split at stepped
    · obtain rfl := Option.some.inj stepped
      refine sound.moved found rfl rfl mine fun other _ =>
        ⟨fits.widened.trans (le_max_left ..), by simp [resolved], fun _ => mine, fun _ => ?_, ?_, trivial⟩
      · rw [effective_resolved resolved]
        exact ⟨rfl, le_max_right ..⟩
      · simp [Stage.spends]
    · obtain rfl := Option.some.inj stepped
      exact sound.left found holds

/-! ### The spending of a run -/

theorem spend_at {provider : Provider} {place spent : Nat} {spot : Nat} {other : Run}
    (listed : (state.spend place provider spent).runs[spot]? = some other) :
    ∃ run, state.runs[spot]? = some run ∧ other.id = run.id ∧ other.durable = run.durable ∧
      (∀ elsewhere, elsewhere ≠ provider → other.spent elsewhere = run.spent elsewhere) ∧
      other.spent provider = if spot = place then spent else run.spent provider := by
  simp only [State.spend, List.getElem?_modify] at listed
  cases there : state.runs[spot]? with
  | none => simp [there] at listed
  | some run =>
    refine ⟨run, rfl, ?_⟩
    rw [there] at listed
    by_cases here : place = spot
    · simp only [here, if_true, Option.map_eq_map, Option.map_some, Option.some.injEq] at listed
      subst listed
      exact ⟨rfl, rfl, fun elsewhere differs => Function.update_of_ne differs .., by simp [here]⟩
    · simp only [here, if_false, Option.map_eq_map, Option.map_some, Option.some.injEq] at listed
      subst listed
      exact ⟨rfl, rfl, fun _ _ => rfl, by simp [Ne.symm here]⟩

theorem spend_agree (state : State) (provider : Provider) (place spent : Nat) :
    Agree provider state.runs (state.spend place provider spent).runs where
  length := by simp [State.spend]
  same := by
    intro spot other listed
    obtain ⟨run, there, id, durable, elsewhere, -⟩ := spend_at listed
    exact ⟨run, there, id, durable, elsewhere⟩

-- The exchange goes on with a new amount spent by its run.
theorem Sound.spent (sound : Sound setup state) (found : state.exchanges[index]? = some exchange)
    (known : state.runs[exchange.run]? = some run) (after : Exchange)
    (provider : after.provider = exchange.provider) (place : after.run = exchange.run)
    (holds : (state.accounts exchange.provider).holder = some index) (amount : Nat)
    (covers : run.durable = false → (state.accounts exchange.provider).ofRun run.id ≤ amount)
    (fits : ∀ own : Run, own.id = run.id → own.durable = run.durable → own.spent exchange.provider = amount →
      after.Fits setup state.now (state.accounts exchange.provider) index own) :
    Sound setup ((state.spend exchange.run exchange.provider amount).setExchange index after) := by
  have moved := sound.advanced found provider place (spend_agree state exchange.provider exchange.run amount)
    (fun other differs same => differs ?_) (sound.accounts exchange.provider) (fun own there => ?_)
    (fun other member mine => ?_) (sound.opened exchange.provider)
  · simpa [State.setExchange, State.spend, Function.update_eq_self] using moved
  · exact Option.some.inj (same.symm.trans holds)
  · obtain ⟨old, before, id, durable, -, spent⟩ := spend_at there
    obtain rfl := Option.some.inj (before.symm.trans known)
    exact fits own id durable (by simpa using spent)
  · obtain ⟨spot, listed⟩ := List.mem_iff_getElem?.mp member
    obtain ⟨old, before, id, durable, -, spent⟩ := spend_at listed
    rw [id, spent]
    split
    · rename_i here
      subst here
      obtain rfl := Option.some.inj (before.symm.trans known)
      exact covers (durable ▸ mine)
    · exact sound.direct old (List.mem_of_getElem? before) (durable ▸ mine) exchange.provider

theorem countStep_sound (sound : Sound setup state) (found : state.exchanges[index]? = some exchange)
    (known : state.runs[exchange.run]? = some run) (stage : exchange.stage = .governed) {cached : Bool}
    (stepped : countStep state index exchange run cached = some next) : Sound setup next := by
  obtain ⟨own, there, fits⟩ := sound.exchanges index exchange found
  obtain rfl := Option.some.inj (there.symm.trans known)
  have holds : exchange.stage.holds = true := by rw [stage]; rfl
  have mine := fits.holds holds
  have resolved := fits.resolved (by rw [stage]; rfl)
  simp only [countStep] at stepped
  split at stepped
  · rename_i durable
    obtain rfl := Option.some.inj stepped
    cases cached with
    | true =>
      exact sound.spent found known { exchange with stage := .leaving } rfl rfl mine _ (by simp [durable])
        fun now _ _ _ => fits.leaving holds now
    | false =>
      refine sound.spent found known { exchange with stage := .counted } rfl rfl mine _ (by simp [durable])
        fun now id _ spent => ?_
      exact ⟨fits.widened, fits.plain, fun _ => mine, fun _ => resolved, fun _ => by simp [id, spent], trivial⟩
  · rename_i direct
    obtain rfl := Option.some.inj stepped
    refine sound.moved found rfl rfl mine fun now listed => ?_
    obtain rfl := Option.some.inj (listed.symm.trans known)
    refine ⟨fits.widened, fits.plain, fun _ => mine, fun _ => resolved, fun _ => ?_, trivial⟩
    exact sound.direct now (List.mem_of_getElem? known) (by simpa using direct) exchange.provider

/-! ### The ledger -/

theorem loadStep_sound (sound : Sound setup state) (found : state.exchanges[index]? = some exchange)
    (holds : exchange.stage.holds = true) {after : Ledger → Stage} {clockOk : Bool}
    (goes : ∀ (row : Ledger) (run : Run), row = (state.accounts exchange.provider).ledger.getD
        { ordinal := 0, lastReservedAt := none, notBefore := none, stopCode := none } →
      state.runs[exchange.run]? = some run →
      { exchange with stage := after row }.Fits setup state.now
        { state.accounts exchange.provider with ledger := some row } index run)
    (stepped : loadStep state index exchange after clockOk = some next) : Sound setup next := by
  obtain ⟨own, known, fits⟩ := sound.exchanges index exchange found
  have mine := fits.holds holds
  have account := sound.accounts exchange.provider
  simp only [loadStep, account.load] at stepped
  split at stepped
  · obtain rfl := Option.some.inj stepped
    refine sound.advanced found rfl rfl (.refl _ state.runs) (fun other differs same => ?_) account.created
      (fun run listed => ?_) (fun run member direct => sound.direct run member direct exchange.provider)
      (sound.opened exchange.provider)
    · exact differs (Option.some.inj (same.symm.trans mine))
    · split
      · refine ⟨fits.widened, fits.plain, fun _ => mine, ?_, ?_, trivial⟩ <;> simp [Stage.resolved, Stage.spends]
      · exact goes _ run rfl listed
  · obtain rfl := Option.some.inj stepped
    exact sound.left found holds

theorem firstLoad_sound (sound : Sound setup state) (found : state.exchanges[index]? = some exchange)
    (stage : exchange.stage = .counted) {clockOk : Bool}
    (stepped : loadStep state index exchange .loaded clockOk = some next) : Sound setup next := by
  have holds : exchange.stage.holds = true := by rw [stage]; rfl
  refine loadStep_sound sound found holds (fun row run same listed => ?_) stepped
  obtain ⟨own, known, fits⟩ := sound.exchanges index exchange found
  obtain rfl := Option.some.inj (known.symm.trans listed)
  have spends : exchange.stage.spends = true := by rw [stage]; rfl
  have resolved : exchange.stage.resolved = true := by rw [stage]; rfl
  exact ⟨fits.widened, fits.plain, fun _ => fits.holds holds, fun _ => fits.resolved resolved,
    fun _ => fits.spends spends, row, rfl, rfl, rfl, rfl⟩

theorem secondLoad_sound (sound : Sound setup state) (found : state.exchanges[index]? = some exchange) {wakeAt : ℚ}
    (stage : exchange.stage = .sleeping wakeAt) (due : wakeAt ≤ state.now) {clockOk : Bool}
    (stepped : loadStep state index exchange .woken clockOk = some next) : Sound setup next := by
  have holds : exchange.stage.holds = true := by rw [stage]; rfl
  refine loadStep_sound sound found holds (fun row run same listed => ?_) stepped
  obtain ⟨own, known, fits⟩ := sound.exchanges index exchange found
  obtain rfl := Option.some.inj (known.symm.trans listed)
  have spends : exchange.stage.spends = true := by rw [stage]; rfl
  have resolved : exchange.stage.resolved = true := by rw [stage]; rfl
  have stands := fits.stands
  rw [stage] at stands
  obtain ⟨old, stored, spaced, held⟩ := stands.later due
  rw [stored, Option.getD_some] at same
  subst same
  exact ⟨fits.widened, fits.plain, fun _ => fits.holds holds, fun _ => fits.resolved resolved,
    fun _ => fits.spends spends, ⟨row, rfl, rfl⟩, row, rfl, spaced, held⟩

/-! ### The wait -/

-- After the wait the gap is over and the host has been let alone.
theorem waits_pace {account : Account} {row ledger : Ledger} (stored : account.ledger = some row)
    (last : row.lastReservedAt = ledger.lastReservedAt) (held : row.notBefore = ledger.notBefore) {now quarantine after : ℚ}
    (waited : now + exchange.waits ledger now quarantine ≤ after) : account.Paces exchange.gap after := by
  refine ⟨row, stored, fun instant reserved => ?_, fun instant recorded => ?_⟩
  · have paced : instant - now + exchange.gap ≤ exchange.waits ledger now quarantine := by
      rw [Exchange.waits, ← last, reserved]
      exact (le_max_left ..).trans (le_max_right ..)
    linarith
  · have paced : instant - now ≤ exchange.waits ledger now quarantine := by
      rw [Exchange.waits, ← held, recorded]
      exact (le_max_right ..).trans (le_max_right ..)
    linarith

theorem paceStep_sound (sound : Sound setup state) (found : state.exchanges[index]? = some exchange) {ledger : Ledger}
    (stage : exchange.stage = .loaded ledger) {quarantine : ℚ}
    (stepped : paceStep state index exchange run ledger quarantine = some next) : Sound setup next := by
  obtain ⟨own, known, fits⟩ := sound.exchanges index exchange found
  have holds : exchange.stage.holds = true := by rw [stage]; rfl
  have mine := fits.holds holds
  have spends := fits.spends (by rw [stage]; rfl)
  have resolved := fits.resolved (by rw [stage]; rfl)
  have stands := fits.stands
  rw [stage] at stands
  obtain ⟨row, stored, ordinal, last, held⟩ := stands
  simp only [paceStep] at stepped
  split at stepped
  · obtain rfl := Option.some.inj stepped
    exact sound.left found holds
  · split at stepped
    · obtain rfl := Option.some.inj stepped
      refine sound.moved found rfl rfl mine fun now listed => ?_
      obtain rfl := Option.some.inj (listed.symm.trans known)
      exact ⟨fits.widened, fits.plain, fun _ => mine, fun _ => resolved, fun _ => spends,
        waits_pace stored last held le_rfl⟩
    · rename_i due
      obtain rfl := Option.some.inj stepped
      refine sound.moved found rfl rfl mine fun now listed => ?_
      obtain rfl := Option.some.inj (listed.symm.trans known)
      refine ⟨fits.widened, fits.plain, fun _ => mine, fun _ => resolved, fun _ => spends, ⟨row, stored, ordinal⟩, ?_⟩
      have waited : state.now + exchange.waits ledger state.now quarantine ≤ state.now := by linarith [not_lt.mp due]
      exact waits_pace stored last held waited

theorem recheckStep_sound (sound : Sound setup state) (found : state.exchanges[index]? = some exchange) {ledger : Ledger}
    (stage : exchange.stage = .woken ledger) (stepped : recheckStep setup state index exchange ledger = some next) :
    Sound setup next := by
  obtain ⟨own, known, fits⟩ := sound.exchanges index exchange found
  have holds : exchange.stage.holds = true := by rw [stage]; rfl
  have mine := fits.holds holds
  have spends := fits.spends (by rw [stage]; rfl)
  have resolved := fits.resolved (by rw [stage]; rfl)
  have stands := fits.stands
  rw [stage] at stands
  simp only [recheckStep] at stepped
  split at stepped
  · obtain rfl := Option.some.inj stepped
    refine sound.moved found rfl rfl mine fun now listed => ?_
    obtain rfl := Option.some.inj (listed.symm.trans known)
    exact ⟨fits.widened, fits.plain, fun _ => mine, fun _ => resolved, fun _ => spends, stands⟩
  · rename_i resolve same
    split at stepped
    · obtain rfl := Option.some.inj stepped
      exact sound.left found holds
    · split at stepped
      · rename_i wider
        obtain rfl := Option.some.inj stepped
        refine sound.moved found rfl rfl mine fun now listed => ?_
        refine ⟨fits.widened.trans wider.le, by simp [same], fun _ => mine, ?_, ?_, trivial⟩ <;>
          simp [Stage.resolved, Stage.spends]
      · obtain rfl := Option.some.inj stepped
        refine sound.moved found rfl rfl mine fun now listed => ?_
        obtain rfl := Option.some.inj (listed.symm.trans known)
        refine ⟨fits.widened, by simp [same], fun _ => mine, fun _ => ⟨?_, resolved.2⟩, fun _ => spends, stands⟩
        exact (effective_resolved same exchange.provider).symm

end Phaze.Transport
