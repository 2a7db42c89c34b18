import Phaze.Transport.Ledger

set_option autoImplicit false

/-!
# What holds of an account

The ledger row counts the attempts and names the last of them, the attempts keep their distance and their budgets,
and none of them comes before an instant that had been recorded as too early.
-/

namespace Phaze.Transport

variable {setup : Setup} {provider : Provider} {now : ℚ} {account : Account}

-- The gap between a reservation and the one before it.
def Setup.gapInForce (setup : Setup) (provider : Provider) (crawlDelay : Option ℚ) : ℚ :=
  max (setup.effective provider).minGap (setup.readGap provider crawlDelay)

structure Account.Sound (setup : Setup) (provider : Provider) (now : ℚ) (account : Account) : Prop where
  missing : account.ledger = none → account.attempts = []
  row : ∀ row, account.ledger = some row →
    row.ordinal = account.attempts.length ∧ row.lastReservedAt = account.attempts.getLast?.map (·.reservedAt)
  ordinals : account.attempts.map (·.ordinal) = List.range' 1 account.attempts.length
  past : ∀ attempt ∈ account.attempts, attempt.reservedAt ≤ now
  paced : account.attempts.IsChain fun one other =>
    one.reservedAt + setup.gapInForce provider other.crawlDelay ≤ other.reservedAt
  windowed : ∀ (place : Nat) (attempt : Attempt), account.attempts[place]? = some attempt →
    ((account.attempts.take (place + 1)).filter fun other =>
      attempt.reservedAt - (setup.effective provider).durableWindow < other.reservedAt).length ≤
        (setup.effective provider).durableBudget
  budgeted : ∀ run, account.ofRun run ≤ (setup.effective provider).perRunBudget
  known : ∀ entry ∈ account.recorded, entry.1 ≤ account.attempts.length ∧
    ∃ row notBefore, account.ledger = some row ∧ row.notBefore = some notBefore ∧ entry.2 ≤ notBefore
  held : ∀ entry ∈ account.recorded, ∀ attempt ∈ account.attempts, entry.1 < attempt.ordinal →
    entry.2 ≤ attempt.reservedAt

theorem Account.Sound.empty (setup : Setup) (provider : Provider) (now : ℚ) :
    Account.empty.Sound setup provider now := by
  constructor <;> simp [Account.empty, Account.ofRun]

theorem Account.Sound.later (sound : account.Sound setup provider now) {after : ℚ} (later : now ≤ after) :
    account.Sound setup provider after :=
  { sound with past := fun attempt member => (sound.past attempt member).trans later }

-- What the lock and the unlocked writers touch.
theorem Account.Sound.held_by (sound : account.Sound setup provider now) (holder : Option Nat) :
    { account with holder }.Sound setup provider now :=
  ⟨sound.missing, sound.row, sound.ordinals, sound.past, sound.paced, sound.windowed, sound.budgeted, sound.known,
    sound.held⟩

def Ledger.Keeps (write : Ledger → Ledger) : Prop :=
  ∀ row, (write row).ordinal = row.ordinal ∧ (write row).lastReservedAt = row.lastReservedAt ∧
    (write row).notBefore = row.notBefore

theorem Account.Sound.rewritten (sound : account.Sound setup provider now) {write : Ledger → Ledger}
    (keeps : Ledger.Keeps write) :
    { account with ledger := account.ledger.map write }.Sound setup provider now where
  missing := fun none => sound.missing (by simpa using none)
  row := by
    intro row written
    obtain ⟨old, stored, rfl⟩ := Option.map_eq_some_iff.mp written
    rw [(keeps old).1, (keeps old).2.1]
    exact sound.row old stored
  ordinals := sound.ordinals
  past := sound.past
  paced := sound.paced
  windowed := sound.windowed
  budgeted := sound.budgeted
  known := by
    intro entry member
    obtain ⟨counted, row, notBefore, stored, same, below⟩ := sound.known entry member
    exact ⟨counted, write row, notBefore, by simp [stored], by rw [(keeps row).2.2, same], below⟩
  held := sound.held

/-! ## The ledger is never refused -/

theorem foldl_max_range' (count : Nat) : (List.range' 1 count).foldl max 0 = count := by
  induction count with
  | zero => rfl
  | succ count ih => rw [List.range'_1_concat, List.foldl_append, ih]; simp; omega

theorem Account.Sound.highest (sound : account.Sound setup provider now) :
    account.highest = account.attempts.length := by
  rw [Account.highest, sound.ordinals, foldl_max_range']

theorem Account.Sound.ordinal_at (sound : account.Sound setup provider now) {place : Nat} {attempt : Attempt}
    (found : account.attempts[place]? = some attempt) : attempt.ordinal = place + 1 := by
  have listed : (account.attempts.map (·.ordinal))[place]? = some attempt.ordinal := by simp [found]
  have inside := (List.getElem?_eq_some_iff.mp found).1
  rw [sound.ordinals, List.getElem?_range' inside] at listed
  simp only [Option.some.injEq] at listed
  omega

theorem Account.Sound.latest (sound : account.Sound setup provider now) :
    account.latest = account.attempts.getLast?.map (·.reservedAt) := by
  rw [Account.latest, sound.highest]
  cases last : account.attempts.getLast? with
  | none => simp [List.getLast?_eq_none_iff.mp last]
  | some attempt =>
    have found : account.attempts[account.attempts.length - 1]? = some attempt := by
      rw [← List.getLast?_eq_getElem?, last]
    have inside := (List.getElem?_eq_some_iff.mp found).1
    have first : account.attempts.find? (fun other => other.ordinal = account.attempts.length) = some attempt := by
      rw [List.find?_eq_some_iff_getElem]
      refine ⟨by simp [sound.ordinal_at found]; omega, account.attempts.length - 1, inside, ?_, fun place before => ?_⟩
      · exact (List.getElem?_eq_some_iff.mp found).2
      · have there : account.attempts[place]? = some account.attempts[place] := List.getElem?_eq_getElem (by omega)
        simp [sound.ordinal_at there]
        omega
    rw [first]

theorem Account.Sound.load (sound : account.Sound setup provider now) :
    account.load = some (account.ledger.getD { ordinal := 0, lastReservedAt := none, notBefore := none, stopCode := none }) := by
  cases stored : account.ledger with
  | none => simp [Account.load, stored, sound.missing stored]
  | some row =>
    obtain ⟨ordinal, last⟩ := sound.row row stored
    simp [Account.load, stored, ordinal, last, sound.highest, sound.latest]

-- A row that `_load` creates counts nothing.
theorem Account.Sound.created (sound : account.Sound setup provider now) :
    { account with ledger := some (account.ledger.getD
      { ordinal := 0, lastReservedAt := none, notBefore := none, stopCode := none }) }.Sound setup provider now := by
  cases stored : account.ledger with
  | some row =>
    have same : { account with ledger := some row } = account := by rw [← stored]
    simpa [same] using sound
  | none =>
    have none := sound.missing stored
    refine ⟨by simp, by simp [none], sound.ordinals, sound.past, sound.paced, sound.windowed, sound.budgeted, ?_,
      sound.held⟩
    intro entry member
    obtain ⟨-, row, -, there, -⟩ := sound.known entry member
    simp [stored] at there

/-! ## A reservation -/

-- A reservation at that instant keeps its distance.
def Account.Paces (account : Account) (gap instant : ℚ) : Prop :=
  ∃ row, account.ledger = some row ∧ (∀ last, row.lastReservedAt = some last → last + gap ≤ instant) ∧
    ∀ notBefore, row.notBefore = some notBefore → notBefore ≤ instant

theorem Account.Paces.later {gap instant after : ℚ} (paces : account.Paces gap instant) (later : instant ≤ after) :
    account.Paces gap after := by
  obtain ⟨row, stored, last, held⟩ := paces
  exact ⟨row, stored, fun instant reserved => (last instant reserved).trans later,
    fun instant recorded => (held instant recorded).trans later⟩

theorem Account.ofRun_append (attempt : Attempt) (run : RunId) (row : Option Ledger) (holder : Option Nat)
    (recorded : List (Nat × ℚ)) :
    Account.ofRun { ledger := row, attempts := account.attempts ++ [attempt], holder, recorded } run =
      account.ofRun run + if attempt.run = run then 1 else 0 := by
  by_cases same : attempt.run = run <;> simp [Account.ofRun, List.filter_append, same]

theorem Account.reserve_ofRun (attempt : Attempt) (run : RunId) :
    (account.reserve attempt).ofRun run = account.ofRun run + if attempt.run = run then 1 else 0 :=
  Account.ofRun_append attempt run _ _ _

theorem Account.Sound.reserved (sound : account.Sound setup provider now) {attempt : Attempt}
    (paces : account.Paces (setup.gapInForce provider attempt.crawlDelay) attempt.reservedAt)
    (ordinal : attempt.ordinal = account.attempts.length + 1) (past : attempt.reservedAt ≤ now)
    (room : account.inWindow attempt.reservedAt (setup.effective provider).durableWindow <
      (setup.effective provider).durableBudget)
    (left : account.ofRun attempt.run < (setup.effective provider).perRunBudget) :
    (account.reserve attempt).Sound setup provider now := by
  obtain ⟨row, stored, spaced, open'⟩ := paces
  obtain ⟨counted, latest⟩ := sound.row row stored
  constructor
  case missing => simp [Account.reserve, stored]
  case row => simp [Account.reserve, Ledger.reserve, stored, ordinal]
  case ordinals =>
    simp only [Account.reserve, List.map_append, sound.ordinals, List.length_append, List.length_singleton,
      List.map_cons, List.map_nil, ordinal, List.range'_1_concat]
    rw [Nat.add_comm]
  case past =>
    intro other member
    rcases List.mem_append.mp member with old | new
    · exact sound.past other old
    · exact List.mem_singleton.mp new ▸ past
  case paced =>
    refine sound.paced.append (by simp) fun one last other first => ?_
    obtain rfl : other = attempt := by simpa using first.symm
    refine spaced one.reservedAt ?_
    rw [latest, Option.mem_def.mp last, Option.map_some]
  case windowed =>
    intro place other found
    simp only [Account.reserve] at found ⊢
    rw [List.getElem?_append] at found
    split at found
    · rename_i inside
      rw [List.take_append_of_le_length (by omega)]
      exact sound.windowed place other found
    · obtain ⟨inside, rfl⟩ := List.getElem?_eq_some_iff.mp found
      simp only [List.length_singleton] at inside
      rw [List.take_of_length_le (by simp; omega), List.getElem_singleton, List.filter_append, List.length_append]
      have one := List.length_filter_le (fun other : Attempt =>
        attempt.reservedAt - (setup.effective provider).durableWindow < other.reservedAt) [attempt]
      rw [List.length_singleton] at one
      rw [Account.inWindow] at room
      omega
  case budgeted =>
    intro run
    rw [Account.reserve_ofRun]
    split
    · rename_i same
      rw [← same]
      omega
    · exact sound.budgeted run
  case known =>
    intro entry member
    obtain ⟨before, old, notBefore, there, same, below⟩ := sound.known entry member
    obtain rfl := Option.some.inj (there.symm.trans stored)
    have counts : entry.1 ≤ (account.attempts ++ [attempt]).length := by
      rw [List.length_append]
      omega
    exact ⟨counts, old.reserve attempt, notBefore, by simp [Account.reserve, stored], same, below⟩
  case held =>
    intro entry member other listed later
    rcases List.mem_append.mp listed with old | new
    · exact sound.held entry member other old later
    · obtain rfl := List.mem_singleton.mp new
      obtain ⟨-, old, notBefore, there, same, below⟩ := sound.known entry member
      obtain rfl := Option.some.inj (there.symm.trans stored)
      exact below.trans (open' notBefore same)

/-! ## A record -/

theorem le_greatest {stored : Option ℚ} (incoming : Option ℚ) {before : ℚ} (present : stored = some before) :
    ∃ after, greatest stored incoming = some after ∧ before ≤ after := by
  subst present
  cases incoming with
  | none => exact ⟨before, rfl, le_rfl⟩
  | some instant => exact ⟨_, rfl, le_max_left ..⟩

theorem greatest_ge (stored : Option ℚ) {incoming : Option ℚ} {instant : ℚ} (present : incoming = some instant) :
    ∃ after, greatest stored incoming = some after ∧ instant ≤ after := by
  subst present
  cases stored with
  | none => exact ⟨instant, rfl, le_rfl⟩
  | some before => exact ⟨_, rfl, le_max_right ..⟩

theorem Account.Sound.recorded (sound : account.Sound setup provider now) (present : account.ledger.isSome)
    (ordinal : Nat) (outcome : String) (notBefore : Option ℚ) (stop : Option String) :
    (account.record ordinal outcome notBefore stop).Sound setup provider now := by
  obtain ⟨row, stored⟩ := Option.isSome_iff_exists.mp present
  let note : Attempt → Attempt := fun attempt =>
    if attempt.ordinal = ordinal then { attempt with outcome := some outcome } else attempt
  have ordinals : ∀ attempt, (note attempt).ordinal = attempt.ordinal := by
    intro attempt
    simp only [note]
    split <;> rfl
  have instants : ∀ attempt, (note attempt).reservedAt = attempt.reservedAt := by
    intro attempt
    simp only [note]
    split <;> rfl
  have delays : ∀ attempt, (note attempt).crawlDelay = attempt.crawlDelay := by
    intro attempt
    simp only [note]
    split <;> rfl
  have runs : ∀ attempt, (note attempt).run = attempt.run := by
    intro attempt
    simp only [note]
    split <;> rfl
  have attempts : (account.record ordinal outcome notBefore stop).attempts = account.attempts.map note := rfl
  constructor
  case missing => simp [Account.record, stored]
  case row =>
    intro new written
    simp only [Account.record, stored, Option.map_some, Option.some.injEq] at written
    obtain ⟨counted, latest⟩ := sound.row row stored
    rw [attempts, ← written, List.length_map, List.getLast?_map, Option.map_map]
    refine ⟨counted, latest.trans ?_⟩
    exact congrArg (Option.map · _) (funext fun attempt => (instants attempt).symm)
  case ordinals =>
    rw [attempts, List.map_map, List.length_map, ← sound.ordinals]
    exact List.map_congr_left fun attempt _ => ordinals attempt
  case past =>
    intro other member
    obtain ⟨attempt, old, rfl⟩ := List.mem_map.mp (attempts ▸ member)
    rw [instants]
    exact sound.past attempt old
  case paced =>
    rw [attempts, List.isChain_map]
    simp only [instants, delays]
    exact sound.paced
  case windowed =>
    intro place other found
    rw [attempts, List.getElem?_map] at found
    obtain ⟨attempt, old, rfl⟩ := Option.map_eq_some_iff.mp found
    rw [attempts, ← List.map_take, List.filter_map, List.length_map]
    simp only [Function.comp_def, instants]
    exact sound.windowed place attempt old
  case budgeted =>
    intro run
    rw [Account.ofRun, attempts, List.filter_map, List.length_map]
    simp only [Function.comp_def, runs]
    exact sound.budgeted run
  case known =>
    intro entry member
    rw [attempts, List.length_map]
    rcases List.mem_append.mp member with old | new
    · obtain ⟨before, other, instant, there, same, below⟩ := sound.known entry old
      obtain rfl := Option.some.inj (there.symm.trans stored)
      obtain ⟨after, written, later⟩ := le_greatest notBefore same
      exact ⟨before, other.record notBefore stop, after, by simp [Account.record, stored], written, below.trans later⟩
    · cases given : notBefore with
      | none => simp [given] at new
      | some instant =>
        obtain rfl : entry = (account.attempts.length, instant) := by simpa [given] using new
        obtain ⟨after, written, later⟩ := greatest_ge row.notBefore given
        exact ⟨le_rfl, row.record notBefore stop, after, by simp [Account.record, stored, given], written, later⟩
  case held =>
    intro entry member other listed later
    obtain ⟨attempt, old, rfl⟩ := List.mem_map.mp (attempts ▸ listed)
    rw [instants]
    rw [ordinals] at later
    rcases List.mem_append.mp member with before | new
    · exact sound.held entry before attempt old later
    · cases given : notBefore with
      | none => simp [given] at new
      | some instant =>
        obtain rfl : entry = (account.attempts.length, instant) := by simpa [given] using new
        obtain ⟨place, found⟩ := List.mem_iff_getElem?.mp old
        have inside := (List.getElem?_eq_some_iff.mp found).1
        rw [sound.ordinal_at found] at later
        simp only at later
        omega

end Phaze.Transport
