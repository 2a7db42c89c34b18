import Phaze.Transport.Reservations

set_option autoImplicit false

/-!
# What a host sees of the transport

Distance, budgets and recorded waits of the attempts of one provider, in every run.
-/

namespace Phaze.Transport

open Runs

variable {setup : Setup} {state : State}

-- What `_load` checks, and that nothing precedes the row.
structure Account.Consistent (account : Account) : Prop where
  missing : account.ledger = none → account.attempts = []
  counted : ∀ row, account.ledger = some row → row.ordinal = account.attempts.length ∧ row.ordinal = account.highest ∧
    row.lastReservedAt = account.latest

structure Account.Polite (gap : Option ℚ → ℚ) (profile : Profile) (account : Account) : Prop where
  consistent : account.Consistent
  spaced : account.attempts.IsChain fun one other => one.reservedAt + gap other.crawlDelay ≤ other.reservedAt
  -- What is reserved after an instant was recorded waits for it.
  held : ∀ entry ∈ account.recorded, ∀ (place : Nat) (attempt : Attempt), account.attempts[place]? = some attempt →
    entry.1 ≤ place → entry.2 ≤ attempt.reservedAt
  windowed : ∀ (place : Nat) (attempt : Attempt), account.attempts[place]? = some attempt →
    ((account.attempts.take (place + 1)).filter fun other =>
      attempt.reservedAt - profile.durableWindow < other.reservedAt).length ≤ profile.durableBudget
  budgeted : ∀ run, account.ofRun run ≤ profile.perRunBudget

theorem Account.Sound.polite {provider : Provider} {now : ℚ} {account : Account}
    (sound : account.Sound setup provider now) :
    account.Polite (setup.gapInForce provider) (setup.effective provider) where
  consistent :=
    { missing := sound.missing
      counted := by
        intro row stored
        obtain ⟨counted, last⟩ := sound.row row stored
        exact ⟨counted, counted.trans sound.highest.symm, last.trans sound.latest.symm⟩ }
  spaced := sound.paced
  held := by
    intro entry member place attempt found after
    refine sound.held entry member attempt (List.mem_of_getElem? found) ?_
    rw [sound.ordinal_at found]
    omega
  windowed := sound.windowed
  budgeted := sound.budgeted

/-- In every reachable state the ledger of every provider agrees with its attempts and was never found to disagree,
and the attempts keep the gap in force, the recorded waits, the window and the budget of their run. The gap in force
is the profile's, widened by a crawl delay of an hour at most. -/
theorem attempts_stay_polite (setup : Setup) (start : ℚ) (actions : List Action) (final : State)
    (ran : run (step setup) (State.initial start) actions = some final) :
    final.corrupt = false ∧
      ∀ provider, (final.accounts provider).Polite (setup.gapInForce provider) (setup.effective provider) := by
  have sound : Sound setup final :=
    run_invariant (fun _ action _ sound stepped => step_sound sound action stepped) actions (Sound.initial setup start) ran
  exact ⟨sound.clean, fun provider => (sound.accounts provider).polite⟩

def patient : Setup :=
  { profile := fun _ => { minGap := 5, perRunBudget := 60, durableBudget := 500, durableWindow := 86400 }, policy := none }

def exchangeActions (index : Nat) : List Action :=
  [.begin "mixesdb" 0 .fetch (some 7200) 60, .lock index, .govern index, .count index false, .load index true,
    .pace index 0, .reserve index, .commit index, .send index { outcome := "found", notBefore := none, stop := none },
    .record index, .leave index]

-- Robots asks for two hours; the second request leaves after one.
def twoHourDelay : List Action :=
  .openRun 0 false :: exchangeActions 0 ++ .tick 3600 :: exchangeActions 1

unseal Rat.add Rat.sub in
theorem twoHourDelay_attempts :
    ((run (step patient) (State.initial 0) twoHourDelay).map fun final =>
      (final.accounts "mixesdb").attempts.map fun attempt => (attempt.reservedAt, attempt.crawlDelay)) =
        some [(0, some 7200), (3600, some 7200)] := by
  decide

theorem two_hour_delay_stays_polite : ∃ final, run (step patient) (State.initial 0) twoHourDelay = some final ∧
    (final.accounts "mixesdb").Polite (patient.gapInForce "mixesdb") (patient.effective "mixesdb") := by
  obtain ⟨final, ran, -⟩ := Option.map_eq_some_iff.mp twoHourDelay_attempts
  exact ⟨final, ran, (attempts_stay_polite patient 0 twoHourDelay final ran).2 "mixesdb"⟩

-- With the whole crawl delay as the gap the second reservation is early.
theorem two_hour_delay_is_cut_short : ∃ final, run (step patient) (State.initial 0) twoHourDelay = some final ∧
    ¬ (final.accounts "mixesdb").Polite (fun crawlDelay => max 5 (crawlDelay.getD 5)) (patient.effective "mixesdb") := by
  obtain ⟨final, ran, attempts⟩ := Option.map_eq_some_iff.mp twoHourDelay_attempts
  refine ⟨final, ran, fun polite => ?_⟩
  have spaced : ((final.accounts "mixesdb").attempts.map fun attempt =>
      (attempt.reservedAt, attempt.crawlDelay)).IsChain fun one other => one.1 + max 5 (other.2.getD 5) ≤ other.1 :=
    (List.isChain_map _).mpr polite.spaced
  rw [attempts] at spaced
  norm_num at spaced

end Phaze.Transport
