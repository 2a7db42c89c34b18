import Phaze.Transport.Pacing

set_option autoImplicit false

/-!
# Reservation, send and record

The three transactions of an exchange, the unlocked writers between them, and what every run keeps.
-/

namespace Phaze.Transport

open Runs

variable {setup : Setup} {state next : State} {index : Nat} {exchange : Exchange} {run : Run}

theorem reserveStep_sound (sound : Sound setup state) (found : state.exchanges[index]? = some exchange)
    (known : state.runs[exchange.run]? = some run) {ordinal : Nat} (stage : exchange.stage = .ready ordinal)
    (stepped : reserveStep state index exchange run ordinal = some next) : Sound setup next := by
  obtain ⟨own, there, fits⟩ := sound.exchanges index exchange found
  obtain rfl := Option.some.inj (there.symm.trans known)
  have holds : exchange.stage.holds = true := by rw [stage]; rfl
  have mine := fits.holds holds
  have spends := fits.spends (by rw [stage]; rfl)
  have resolved := fits.resolved (by rw [stage]; rfl)
  have stands := fits.stands
  rw [stage] at stands
  simp only [reserveStep] at stepped
  split at stepped
  · obtain rfl := Option.some.inj stepped
    exact sound.left found holds
  · rename_i refused
    obtain ⟨room, left⟩ := not_or.mp refused
    obtain rfl := Option.some.inj stepped
    refine sound.spent found known { exchange with stage := .reserving (ordinal + 1) state.now } rfl rfl mine _
      (fun _ => by omega) fun now id _ spent => ?_
    refine ⟨fits.widened, fits.plain, fun _ => mine, fun _ => resolved, by simp [Stage.spends], ?_⟩
    refine ⟨⟨ordinal, rfl, stands.1⟩, stands.2, le_rfl, not_le.mp room, ?_, fun _ => ?_⟩
    · rw [id]
      exact spends.trans_lt (not_le.mp left)
    · rw [id, spent]
      omega

theorem commitStep_sound (sound : Sound setup state) (found : state.exchanges[index]? = some exchange)
    (known : state.runs[exchange.run]? = some run) {ordinal : Nat} {reservedAt : ℚ}
    (stage : exchange.stage = .reserving ordinal reservedAt)
    (stepped : commitStep state index exchange run ordinal reservedAt = some next) : Sound setup next := by
  obtain ⟨own, there, fits⟩ := sound.exchanges index exchange found
  obtain rfl := Option.some.inj (there.symm.trans known)
  have mine := fits.holds (by rw [stage]; rfl)
  obtain ⟨profile, gap⟩ := fits.resolved (by rw [stage]; rfl)
  have stands := fits.stands
  rw [stage] at stands
  obtain ⟨⟨before, rfl, row, stored, counted⟩, paces, past, room, left, direct⟩ := stands
  have account := sound.accounts exchange.provider
  have counts := (account.row row stored).1
  simp only [commitStep, Option.some.injEq] at stepped
  subst stepped
  refine sound.advanced found rfl rfl (.refl _ state.runs) (fun other differs same => ?_) ?_ (fun now listed => ?_)
    (fun other member mine => ?_) fun attempt member => ?_
  · exact differs (Option.some.inj (same.symm.trans mine))
  · refine account.reserved ?_ (by simp only; omega) past (profile ▸ room) (profile ▸ left)
    obtain ⟨row, there, spaced, held⟩ := paces
    refine ⟨row, there, fun last reserved => ?_, held⟩
    have wide : setup.gapInForce exchange.provider exchange.crawlDelay ≤ exchange.gap := max_le gap fits.widened
    have far := spaced last reserved
    simp only
    linarith
  · refine ⟨fits.widened, fits.plain, fun _ => mine, ?_, ?_, ?_⟩
    · simp [Stage.resolved]
    · simp [Stage.spends]
    · simp [Exchange.Stands, Account.reserve, stored]
  · rw [Account.reserve_ofRun]
    have covered := sound.direct other member mine exchange.provider
    split
    · rename_i same
      obtain ⟨place, listed⟩ := List.mem_iff_getElem?.mp member
      simp only at same
      -- A direct run has its id for itself.
      have here := sound.apart place exchange.run other own listed known mine same.symm
      rw [here] at listed
      obtain rfl := Option.some.inj (known.symm.trans listed)
      have less := direct mine
      omega
    · omega
  · rcases List.mem_append.mp member with old | new
    · exact sound.opened exchange.provider attempt old
    · exact ⟨own, List.mem_of_getElem? known, by rw [List.mem_singleton.mp new]⟩

theorem sendStep_sound (sound : Sound setup state) (found : state.exchanges[index]? = some exchange) {ordinal : Nat}
    (stage : exchange.stage = .reserved ordinal) {answer : Answer}
    (stepped : sendStep setup state index exchange run ordinal answer = some next) : Sound setup next := by
  obtain ⟨own, known, fits⟩ := sound.exchanges index exchange found
  have mine := fits.holds (by rw [stage]; rfl)
  have stands := fits.stands
  rw [stage] at stands
  have answered : ∀ (outcome : String) (notBefore : Option ℚ) (stop : Option String),
      Sound setup (state.moved index exchange (.answered ordinal outcome notBefore stop)) := by
    intro outcome notBefore stop
    refine sound.moved found rfl rfl mine fun now _ => ?_
    refine ⟨fits.widened, fits.plain, fun _ => mine, ?_, ?_, stands⟩ <;> simp [Stage.resolved, Stage.spends]
  simp only [sendStep] at stepped
  split at stepped
  all_goals
    obtain rfl := Option.some.inj stepped
    exact answered ..

theorem record_ofRun (account : Account) (ordinal : Nat) (outcome : String) (notBefore : Option ℚ) (stop : Option String)
    (run : RunId) : (account.record ordinal outcome notBefore stop).ofRun run = account.ofRun run := by
  rw [Account.ofRun, Account.record, List.filter_map, List.length_map, Account.ofRun]
  congr 1
  refine List.filter_congr fun attempt _ => ?_
  simp only [Function.comp_apply]
  split <;> rfl

theorem recordStep_sound (sound : Sound setup state) (found : state.exchanges[index]? = some exchange) {ordinal : Nat}
    {outcome : String} {notBefore : Option ℚ} {stop : Option String}
    (stage : exchange.stage = .answered ordinal outcome notBefore stop)
    (stepped : recordStep state index exchange ordinal outcome notBefore stop = some next) : Sound setup next := by
  obtain ⟨own, known, fits⟩ := sound.exchanges index exchange found
  have mine := fits.holds (by rw [stage]; rfl)
  have stands := fits.stands
  rw [stage] at stands
  simp only [recordStep, Option.some.injEq] at stepped
  subst stepped
  refine sound.advanced found rfl rfl (.refl _ state.runs) (fun other differs same => ?_)
    ((sound.accounts exchange.provider).recorded stands ordinal outcome notBefore stop) (fun now listed => ?_)
    (fun other member direct => ?_) fun attempt member => ?_
  · exact differs (Option.some.inj (same.symm.trans mine))
  · refine ⟨fits.widened, fits.plain, fun _ => mine, ?_, ?_, trivial⟩ <;> simp [Stage.resolved, Stage.spends]
  · rw [record_ofRun]
    exact sound.direct other member direct exchange.provider
  · obtain ⟨old, listed, rfl⟩ := List.mem_map.mp member
    split <;> exact sound.opened exchange.provider old listed

theorem exchangeStep_sound (sound : Sound setup state) (found : state.exchanges[index]? = some exchange)
    (known : state.runs[exchange.run]? = some run) {action : Action}
    (stepped : exchangeStep setup state index exchange run exchange.stage action = some next) : Sound setup next := by
  generalize at' : exchange.stage = stage at stepped
  unfold exchangeStep at stepped
  split at stepped
  next => cases stepped
  next => exact releaseStep_sound sound found stepped
  next => exact lockStep_sound sound found stepped
  next => exact governStep_sound sound found at' stepped
  next => exact countStep_sound sound found known at' stepped
  next => exact firstLoad_sound sound found at' stepped
  next => exact paceStep_sound sound found at' stepped
  next =>
    split at stepped
    next due => exact secondLoad_sound sound found at' due stepped
    next => cases stepped
  next => exact recheckStep_sound sound found at' stepped
  next => exact reserveStep_sound sound found known at' stepped
  next => exact commitStep_sound sound found known at' stepped
  next => exact sendStep_sound sound found at' stepped
  next => exact recordStep_sound sound found at' stepped
  next => exact releaseStep_sound sound found stepped
  next => cases stepped

/-! ## Steps outside the lock -/

-- The unlocked writers touch only the stop of the row.
theorem Sound.stopped (sound : Sound setup state) (provider : Provider) {write : Ledger → Ledger}
    (keeps : Ledger.Keeps write) :
    Sound setup (state.setAccount provider
      { state.accounts provider with ledger := (state.accounts provider).ledger.map write }) := by
  have attempts : ∀ site, ((state.setAccount provider
      { state.accounts provider with ledger := (state.accounts provider).ledger.map write }).accounts site).attempts =
        (state.accounts site).attempts := by
    intro site
    by_cases same : site = provider
    · subst same
      simp [State.setAccount]
    · simp [State.setAccount, Function.update_of_ne same]
  constructor
  case accounts =>
    intro site
    by_cases same : site = provider
    · subst same
      simpa [State.setAccount] using (sound.accounts site).rewritten keeps
    · simpa [State.setAccount, Function.update_of_ne same] using sound.accounts site
  case exchanges =>
    intro index exchange found
    obtain ⟨run, known, fits⟩ := sound.exchanges index exchange found
    refine ⟨run, known, ?_⟩
    by_cases same : exchange.provider = provider
    · subst same
      simpa [State.setAccount] using fits.rewritten keeps
    · simpa [State.setAccount, Function.update_of_ne same] using fits
  case direct =>
    intro run member direct site
    rw [Account.ofRun, attempts]
    exact sound.direct run member direct site
  case apart => exact sound.apart
  case opened =>
    intro site attempt member
    exact sound.opened site attempt (attempts site ▸ member)
  case clean => exact sound.clean

theorem Sound.opens (sound : Sound setup state) {id : RunId} {durable : Bool}
    (fresh : (state.runs.any fun run => run.id = id && !(durable && run.durable)) = false) :
    Sound setup { state with runs := state.runs ++ [{ id, durable, spent := fun _ => 0 }] } := by
  have other : ∀ run ∈ state.runs, run.id = id → durable = true ∧ run.durable = true := by
    intro run member same
    simpa [same] using List.any_eq_false.mp fresh run member
  constructor
  case accounts => exact sound.accounts
  case exchanges =>
    intro index exchange found
    obtain ⟨run, known, fits⟩ := sound.exchanges index exchange found
    exact ⟨run, List.getElem?_append_left (List.getElem?_eq_some_iff.mp known).1 ▸ known, fits⟩
  case direct =>
    intro run member direct provider
    rcases List.mem_append.mp member with old | new
    · exact sound.direct run old direct provider
    · obtain rfl := List.mem_singleton.mp new
      simp only at direct
      -- Nothing has been reserved under an id that was never used.
      have unused : (state.accounts provider).ofRun id = 0 := by
        rw [Account.ofRun, List.length_eq_zero_iff, List.filter_eq_nil_iff]
        intro attempt listed same
        obtain ⟨run, there, mine⟩ := sound.opened provider attempt listed
        have taken := (other run there (mine.trans (of_decide_eq_true same))).1
        rw [direct] at taken
        cases taken
      exact unused.le
  case apart =>
    intro first second one two foundOne foundTwo direct same
    rw [List.getElem?_append] at foundOne foundTwo
    split at foundOne <;> split at foundTwo
    · exact sound.apart first second one two foundOne foundTwo direct same
    · obtain ⟨inside, rfl⟩ := List.getElem?_eq_some_iff.mp foundTwo
      have taken := (other one (List.mem_of_getElem? foundOne) (by simpa using same)).2
      rw [direct] at taken
      cases taken
    · obtain ⟨inside, rfl⟩ := List.getElem?_eq_some_iff.mp foundOne
      have taken := (other two (List.mem_of_getElem? foundTwo) (by simpa using same.symm)).1
      simp only [List.getElem_singleton] at direct
      rw [direct] at taken
      cases taken
    · have lastOne := (List.getElem?_eq_some_iff.mp foundOne).1
      have lastTwo := (List.getElem?_eq_some_iff.mp foundTwo).1
      simp only [List.length_singleton] at lastOne lastTwo
      omega
  case opened =>
    intro provider attempt member
    obtain ⟨run, listed, same⟩ := sound.opened provider attempt member
    exact ⟨run, List.mem_append_left _ listed, same⟩
  case clean => exact sound.clean

theorem Sound.begins (sound : Sound setup state) {exchange : Exchange}
    (known : state.runs[exchange.run]? = some run) (waiting : exchange.stage = .waiting)
    (profile : exchange.profile = setup.profile exchange.provider)
    (gap : exchange.gap = setup.readGap exchange.provider exchange.crawlDelay) :
    Sound setup { state with exchanges := state.exchanges ++ [exchange] } := by
  refine { sound with exchanges := ?_ }
  intro index other found
  rw [List.getElem?_append] at found
  split at found
  · exact sound.exchanges index other found
  · obtain ⟨inside, rfl⟩ := List.getElem?_eq_some_iff.mp found
    simp only [List.getElem_singleton]
    refine ⟨run, known, gap.ge, fun _ => profile, ?_, ?_, ?_, ?_⟩ <;>
      simp [waiting, Stage.holds, Stage.resolved, Stage.spends, Exchange.Stands]

theorem step_sound (sound : Sound setup state) (action : Action) (stepped : step setup state action = some next) :
    Sound setup next := by
  cases action with
  | tick now =>
    simp only [step] at stepped
    split at stepped
    next later =>
      obtain rfl := Option.some.inj stepped
      refine ⟨fun provider => (sound.accounts provider).later later, fun index exchange found => ?_, sound.direct,
        sound.apart, sound.opened, sound.clean⟩
      obtain ⟨run, known, fits⟩ := sound.exchanges index exchange found
      exact ⟨run, known, fits.later later⟩
    next => cases stepped
  | openRun id durable =>
    simp only [step] at stepped
    split at stepped
    next => cases stepped
    next fresh =>
      obtain rfl := Option.some.inj stepped
      exact sound.opens (by simpa using fresh)
  | «begin» provider place kind crawlDelay deadline =>
    obtain ⟨run, known, rfl⟩ := Option.map_eq_some_iff.mp stepped
    exact sound.begins known rfl rfl rfl
  | stop provider code =>
    obtain rfl := Option.some.inj stepped
    exact sound.stopped provider fun row => ⟨rfl, rfl, rfl⟩
  | clearStop provider =>
    obtain rfl := Option.some.inj stepped
    exact sound.stopped provider fun row => ⟨rfl, rfl, rfl⟩
  | _ =>
    obtain ⟨exchange, found, stepped⟩ := Option.bind_eq_some_iff.mp stepped
    obtain ⟨run, known, stepped⟩ := Option.bind_eq_some_iff.mp stepped
    exact exchangeStep_sound sound found known stepped

end Phaze.Transport
