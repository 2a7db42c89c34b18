import Phaze.Dispatch.View

set_option autoImplicit false

/-!
# What every reachable state of a dispatch satisfies
-/

namespace Phaze.Dispatch

variable {Batch Agent Proposal : Type} [DecidableEq Batch] [DecidableEq Agent]

/-- An event that a landed sub-job sends for one of its proposals. -/
structure EventOk (groups : Groups Agent Proposal) (landed : Nat → Bool) (event : Event Agent) : Prop where
  there : landed event.job = true
  chunk : ∃ chunk, groups.pending[event.job]? = some chunk ∧ event.item < chunk.chunk.length ∧
    event.agent = chunk.agent ∧ event.subBatchTerminal = decide (event.item + 1 = chunk.chunk.length)

def baseHash (groups : Groups Agent Proposal) (returned : List Bool) (settled : Bool) : BatchHash Agent :=
  if settled then reconcileUndispatched (initFields groups) (enqueueResult groups.pending returned)
  else initFields groups

/-- The hash is the base plus what the applied events add, each request counted once. -/
structure Counted (view : View Agent Proposal) (groups : Groups Agent Proposal) (returned : List Bool)
    (settled : Bool) (hash : BatchHash Agent) : Prop where
  present : view.hash = some hash
  members : hash.members = (initFields groups).members
  counter : ∀ field, hash.counter field =
    (baseHash groups returned settled).counter field + gains view.applied field
  terminal : hash.status ≠ .running → hash.counter .subjobsExpected ≤ hash.counter .subjobsCompleted
  once : (view.applied.map Event.request).Nodup
  events : ∀ event, event ∈ view.applied ∨ event ∈ view.sent → EventOk groups view.landed event
  landed : ∀ job, view.landed job = true → returned[job]? = some true

/-- A batch that was claimed: it holds the sentinel until its target is reached. -/
def Claimed (view : View Agent Proposal) (groups : Groups Agent Proposal) (returned : List Bool)
    (settled : Bool) : Prop :=
  ∃ hash, Counted view groups returned settled hash ∧
    (view.held = true ∨ hash.counter .subjobsExpected ≤ hash.counter .subjobsCompleted)

structure Quiet (view : View Agent Proposal) : Prop where
  applied : view.applied = []
  sent : view.sent = []
  landed : ∀ job, view.landed job = false

def Valid (view : View Agent Proposal) : Prop :=
  match view.call with
  | none => Quiet view ∧ view.hash = none ∧ view.held = false
  | some ⟨_, .seeding⟩ => Quiet view ∧ view.hash = none ∧ view.held = false
  | some ⟨groups, .claiming⟩ => Quiet view ∧ view.held = false ∧ ∃ hash, Counted view groups [] false hash
  | some ⟨groups, .dropping⟩ => Quiet view ∧ (view.hash = none ∨ ∃ hash, Counted view groups [] false hash)
  | some ⟨groups, .unclaimed⟩ => Quiet view ∧ (view.hash = none ∨ ∃ hash, Counted view groups [] false hash)
  | some ⟨groups, .enqueuing returned⟩ =>
      returned.length < groups.pending.length ∧ Claimed view groups returned false
  | some ⟨groups, .settling returned⟩ =>
      returned.length = groups.pending.length ∧ Claimed view groups returned false
  | some ⟨groups, .finishing returned⟩ =>
      returned.length = groups.pending.length ∧ Claimed view groups returned true
  | some ⟨groups, .exited returned settled⟩ =>
      returned.length = groups.pending.length ∧ Claimed view groups returned settled

/-! ## What each effect keeps -/

section Keep

variable {view : View Agent Proposal} {groups : Groups Agent Proposal} {returned : List Bool}
  {settled : Bool} {hash : BatchHash Agent}

theorem Counted.moved (counted : Counted view groups returned settled hash)
    (call : Option (Call Agent Proposal)) (held : Bool) :
    Counted { view with call := call, held := held } groups returned settled hash :=
  ⟨counted.present, counted.members, counted.counter, counted.terminal, counted.once, counted.events,
    counted.landed⟩

omit [DecidableEq Agent] in
theorem Quiet.moved (quiet : Quiet view) (hash : Option (BatchHash Agent)) (call : Option (Call Agent Proposal))
    (held : Bool) : Quiet { view with hash := hash, call := call, held := held } :=
  ⟨quiet.applied, quiet.sent, quiet.landed⟩

theorem Claimed.goto (claimed : Claimed view groups returned settled) (call : Option (Call Agent Proposal)) :
    Claimed { view with call := call } groups returned settled := by
  obtain ⟨hash, counted, held⟩ := claimed
  exact ⟨hash, counted.moved call view.held, held⟩

theorem Counted.reached_of_stale (counted : Counted view groups returned settled hash) (stale : view.Stale) :
    hash.counter .subjobsExpected ≤ hash.counter .subjobsCompleted := by
  rcases stale hash counted.present with ended | reached
  · exact counted.terminal ended
  · exact reached

theorem Claimed.surrender (claimed : Claimed view groups returned settled) (stale : view.Stale) :
    Claimed { view with held := false } groups returned settled := by
  obtain ⟨hash, counted, -⟩ := claimed
  exact ⟨hash, counted.moved view.call false, .inr (counted.reached_of_stale stale)⟩

theorem Counted.member (counted : Counted view groups returned settled hash) {event : Event Agent}
    (ok : EventOk groups view.landed event) : hash.members event.agent = true := by
  obtain ⟨chunk, planned, -, agent, -⟩ := ok.chunk
  rw [counted.members, agent]
  exact decide_eq_true (agent_mem_of_pending (List.mem_of_getElem? planned))

theorem Counted.promote (counted : Counted view groups returned settled hash) :
    ∃ promoted, Counted view.promote groups returned settled promoted ∧
      promoted.counter = hash.counter ∧
      (view.promote = view ∨ hash.counter .subjobsExpected ≤ hash.counter .subjobsCompleted) := by
  obtain ⟨present, members, counter, terminal, once, events, landed⟩ := counted
  by_cases short : hash.counter .subjobsCompleted < hash.counter .subjobsExpected
  · have same : view.promote = view := by simp [View.promote, present, short]
    rw [same]
    exact ⟨hash, ⟨present, members, counter, terminal, once, events, landed⟩, rfl, .inl rfl⟩
  · have reached := Nat.not_lt.mp short
    have shape : view.promote = { view with
        hash := some { hash with
          status := if hash.counter .failed = 0 then Status.complete else .completeWithErrors }
        held := false } := by
      simp [View.promote, present, short]
    rw [shape]
    exact ⟨_, ⟨rfl, members, counter, fun _ => reached, once, events, landed⟩, rfl, .inr reached⟩

theorem Claimed.promote (claimed : Claimed view groups returned settled) :
    Claimed view.promote groups returned settled := by
  obtain ⟨hash, counted, held⟩ := claimed
  obtain ⟨promoted, kept, same, outcome⟩ := counted.promote
  refine ⟨promoted, kept, ?_⟩
  rw [same]
  rcases outcome with unchanged | reached
  · rw [unchanged]
    exact held
  · exact .inr reached

theorem Counted.countOnce (counted : Counted view groups returned settled hash) {event : Event Agent}
    (ok : EventOk groups view.landed event) :
    ∃ after, Counted (view.countOnce hash event) groups returned settled after ∧
      after.counter .subjobsExpected = hash.counter .subjobsExpected ∧
      hash.counter .subjobsCompleted ≤ after.counter .subjobsCompleted := by
  by_cases duplicate : event.request ∈ view.applied.map Event.request
  · rw [View.countOnce, if_pos duplicate]
    exact ⟨hash, counted, rfl, le_rfl⟩
  · rw [View.countOnce, if_neg duplicate]
    have grown : ∀ field, (applyAll hash (applyArgs event)).counter field = hash.counter field + gain event field :=
      applyAll_counter hash (applyArgs event)
    have rest := applyAll_rest hash (applyArgs event)
    have expected : (applyAll hash (applyArgs event)).counter .subjobsExpected =
        hash.counter .subjobsExpected := by
      rw [grown, gain_subjobsExpected, Nat.add_zero]
    have more : hash.counter .subjobsCompleted ≤ (applyAll hash (applyArgs event)).counter .subjobsCompleted := by
      rw [grown]
      exact Nat.le_add_right _ _
    refine ⟨applyAll hash (applyArgs event), ⟨rfl, rest.1.trans counted.members, ?_, ?_, ?_, ?_, counted.landed⟩,
      expected, more⟩
    · intro field
      rw [grown, counted.counter, gains_append, Nat.add_assoc]
    · intro ended
      rw [rest.2] at ended
      rw [expected]
      exact (counted.terminal ended).trans more
    · rw [List.map_append, List.nodup_append]
      refine ⟨counted.once, by simp, ?_⟩
      intro request seen other mine same
      simp only [List.map_cons, List.map_nil, List.mem_singleton] at mine
      exact duplicate (mine ▸ same ▸ seen)
    · intro other member
      rcases member with applied | sent
      · rcases List.mem_append.mp applied with earlier | last
        · exact counted.events other (.inl earlier)
        · rw [List.mem_singleton] at last
          exact last ▸ ok
      · exact counted.events other (.inr sent)

theorem Claimed.countOnce (claimed : Claimed view groups returned settled) (present : view.hash = some hash)
    {event : Event Agent} (ok : EventOk groups view.landed event) :
    Claimed (view.countOnce hash event) groups returned settled := by
  obtain ⟨found, counted, held⟩ := claimed
  obtain rfl : hash = found := Option.some.inj (present.symm.trans counted.present)
  obtain ⟨after, kept, expected, more⟩ := counted.countOnce ok
  refine ⟨after, kept, ?_⟩
  rcases held with mine | reached
  · left
    unfold View.countOnce
    split <;> exact mine
  · exact .inr (expected ▸ reached.trans more)

omit [DecidableEq Agent] in
theorem EventOk.mono {landed later : Nat → Bool} {event : Event Agent} (ok : EventOk groups landed event)
    (grows : ∀ job, landed job = true → later job = true) : EventOk groups later event :=
  ⟨grows _ ok.there, ok.chunk⟩

-- An attempt on the next chunk: only one that is counted as landed may be on the broker.
theorem Claimed.land (claimed : Claimed view groups returned false) (flag lands : Bool) (rest : List Bool)
    (counts : lands = true → flag = true) :
    Claimed { view with landed := if lands then Function.update view.landed returned.length true else view.landed }
      groups (returned ++ flag :: rest) false := by
  obtain ⟨hash, counted, held⟩ := claimed
  have grows : ∀ job, view.landed job = true →
      (if lands then Function.update view.landed returned.length true else view.landed) job = true := by
    intro job there
    split
    · by_cases this : job = returned.length
      · rw [this, Function.update_self]
      · rwa [Function.update_of_ne this]
    · exact there
  have earlier : ∀ job, view.landed job = true → (returned ++ flag :: rest)[job]? = some true := by
    intro job there
    have before := counted.landed job there
    obtain ⟨short, -⟩ := List.getElem?_eq_some_iff.mp before
    rw [List.getElem?_append_left short, before]
  refine ⟨hash, ⟨counted.present, counted.members, counted.counter, counted.terminal, counted.once,
    fun event member => (counted.events event member).mono grows, ?_⟩, held⟩
  intro job there
  cases lands with
  | false => exact earlier job there
  | true =>
      by_cases this : job = returned.length
      · simp [this, counts rfl]
      · exact earlier job (by simpa [Function.update_of_ne this] using there)

theorem Claimed.send (claimed : Claimed view groups returned settled) {event : Event Agent}
    (ok : EventOk groups view.landed event) :
    Claimed { view with sent := view.sent ++ [event] } groups returned settled := by
  obtain ⟨hash, counted, held⟩ := claimed
  refine ⟨hash, ⟨counted.present, counted.members, counted.counter, counted.terminal, counted.once, ?_,
    counted.landed⟩, held⟩
  intro other member
  rcases member with applied | sent
  · exact counted.events other (.inl applied)
  · rcases List.mem_append.mp sent with earlier | last
    · exact counted.events other (.inr earlier)
    · rw [List.mem_singleton] at last
      exact last ▸ ok

theorem baseHash_subjobsExpected :
    (baseHash groups returned settled).counter .subjobsExpected =
      if settled then returned.count true else groups.pending.length := by
  cases settled <;> rfl

theorem Counted.expected (counted : Counted view groups returned settled hash) :
    hash.counter .subjobsExpected = if settled then returned.count true else groups.pending.length := by
  rw [counted.counter, gains_subjobsExpected, baseHash_subjobsExpected, Nat.add_zero]

theorem Claimed.settle (claimed : Claimed view groups returned false)
    (all : returned.length = groups.pending.length) :
    Claimed { view with
      hash := view.hash.map fun hash => reconcileUndispatched hash (enqueueResult groups.pending returned) }
      groups returned true := by
  obtain ⟨hash, counted, held⟩ := claimed
  -- the target only goes down
  have lower : returned.count true ≤ hash.counter .subjobsExpected := by
    rw [counted.expected]
    exact List.count_le_length.trans all.le
  refine ⟨reconcileUndispatched hash (enqueueResult groups.pending returned),
    ⟨by rw [counted.present]; rfl, counted.members, ?_, ?_, counted.once, counted.events, counted.landed⟩, ?_⟩
  · intro field
    have before := counted.counter field
    cases field with
    | subjobsExpected => simp [baseHash, reconcileUndispatched, gains_subjobsExpected]
    | failed | agentFailed agent =>
        simp only [baseHash, if_true, reconcileUndispatched, before, Bool.false_eq_true, if_false]
        omega
    | _ => exact before
  · intro ended
    by_cases none : returned.count true = 0
    · exact none.le.trans (Nat.zero_le _)
    · have status : hash.status ≠ .running := by simpa [reconcileUndispatched, enqueueResult, none] using ended
      exact lower.trans (counted.terminal status)
  · rcases held with mine | reached
    · exact .inl mine
    · exact .inr (lower.trans reached)

-- A batch that nothing was dispatched for gives the sentinel back.
theorem Claimed.release (claimed : Claimed view groups returned true) (none : returned.count true = 0) :
    Claimed { view with held := false } groups returned true := by
  obtain ⟨hash, counted, -⟩ := claimed
  refine ⟨hash, counted.moved view.call false, .inr ?_⟩
  rw [counted.expected, if_pos rfl, none]
  exact Nat.zero_le _

end Keep

/-! ## Every step -/

section Inv

variable {view after : View Agent Proposal} {groups : Groups Agent Proposal} {returned : List Bool}
  {state next : State Batch Agent Proposal} {batch other : Batch}

theorem Valid.map (valid : Valid view) (call : after.call = view.call)
    (claimed : ∀ groups pc returned settled, view.call = some ⟨groups, pc⟩ →
      Claimed view groups returned settled → Claimed after groups returned settled)
    (quiet : Quiet view → Quiet after ∧ (view.hash = none → after.hash = none) ∧
      (view.held = false → after.held = false) ∧
      ∀ groups, (∃ hash, Counted view groups [] false hash) → ∃ hash, Counted after groups [] false hash) :
    Valid after := by
  unfold Valid at valid ⊢
  rcases there : view.call with _ | ⟨groups, pc⟩ <;> rw [there] at valid call <;> rw [call]
  · obtain ⟨still, absent, free⟩ := valid
    obtain ⟨later, hash, held, -⟩ := quiet still
    exact ⟨later, hash absent, held free⟩
  · cases pc with
    | seeding =>
        obtain ⟨still, absent, free⟩ := valid
        obtain ⟨later, hash, held, -⟩ := quiet still
        exact ⟨later, hash absent, held free⟩
    | claiming =>
        obtain ⟨still, free, counted⟩ := valid
        obtain ⟨later, -, held, keeps⟩ := quiet still
        exact ⟨later, held free, keeps groups counted⟩
    | dropping | unclaimed =>
        obtain ⟨still, hash⟩ := valid
        obtain ⟨later, absent, -, keeps⟩ := quiet still
        exact ⟨later, hash.imp absent (keeps groups)⟩
    | enqueuing returned | settling returned | finishing returned | exited returned settled =>
        exact ⟨valid.1, claimed _ _ _ _ there valid.2⟩

theorem Valid.surrender (valid : Valid view) (stale : view.Stale) : Valid { view with held := false } := by
  refine valid.map rfl (fun _ _ _ _ _ claimed => claimed.surrender stale) fun still => ?_
  refine ⟨⟨still.applied, still.sent, still.landed⟩, id, fun _ => rfl, ?_⟩
  rintro groups ⟨hash, counted⟩
  exact ⟨hash, counted.moved view.call false⟩

theorem Valid.promote (valid : Valid view) : Valid view.promote := by
  obtain ⟨call, applied, sent, landed, absent, free⟩ := view.promote_rest
  refine valid.map call (fun _ _ _ _ _ claimed => claimed.promote) fun still => ?_
  refine ⟨⟨applied.trans still.applied, sent.trans still.sent, fun job => ?_⟩, absent, free, ?_⟩
  · rw [landed]
    exact still.landed job
  · rintro groups ⟨hash, counted⟩
    obtain ⟨promoted, kept, -⟩ := counted.promote
    exact ⟨promoted, kept⟩

theorem Valid.busy (valid : Valid view) (busy : ¬ Quiet view) :
    ∃ groups pc returned settled, view.call = some ⟨groups, pc⟩ ∧
      returned.length ≤ groups.pending.length ∧ Claimed view groups returned settled := by
  unfold Valid at valid
  rcases there : view.call with _ | ⟨groups, pc⟩ <;> rw [there] at valid
  · exact absurd valid.1 busy
  · cases pc with
    | seeding | claiming | dropping | unclaimed => exact absurd valid.1 busy
    | enqueuing returned => exact ⟨groups, _, returned, _, rfl, valid.1.le, valid.2⟩
    | settling returned | finishing returned | exited returned settled =>
        exact ⟨groups, _, returned, _, rfl, valid.1.le, valid.2⟩

theorem Valid.counted (valid : Valid view) {hash : BatchHash Agent} (present : view.hash = some hash) :
    ∃ groups pc returned settled, view.call = some ⟨groups, pc⟩ ∧
      returned.length ≤ groups.pending.length ∧ Counted view groups returned settled hash := by
  have found : ∀ {groups returned settled}, (∃ hash, Counted view groups returned settled hash) →
      Counted view groups returned settled hash := by
    rintro groups returned settled ⟨other, counted⟩
    obtain rfl : hash = other := Option.some.inj (present.symm.trans counted.present)
    exact counted
  unfold Valid at valid
  rcases there : view.call with _ | ⟨groups, pc⟩ <;> rw [there] at valid
  · cases present.symm.trans valid.2.1
  · cases pc with
    | seeding => cases present.symm.trans valid.2.1
    | claiming => exact ⟨groups, _, [], _, rfl, Nat.zero_le _, found valid.2.2⟩
    | dropping | unclaimed =>
        rcases valid.2 with absent | counted
        · cases present.symm.trans absent
        · exact ⟨groups, _, [], _, rfl, Nat.zero_le _, found counted⟩
    | enqueuing returned =>
        exact ⟨groups, _, returned, _, rfl, valid.1.le, found (valid.2.imp fun _ both => both.1)⟩
    | settling returned | finishing returned | exited returned settled =>
        exact ⟨groups, _, returned, _, rfl, valid.1.le, found (valid.2.imp fun _ both => both.1)⟩

theorem Valid.countOnce (valid : Valid view) {hash : BatchHash Agent} (present : view.hash = some hash)
    {event : Event Agent} (sent : event ∈ view.sent) : Valid (view.countOnce hash event) := by
  have busy : ¬ Quiet view := fun quiet => by simp [quiet.sent] at sent
  have call : (view.countOnce hash event).call = view.call := by
    unfold View.countOnce
    split <;> rfl
  refine valid.map call (fun groups _ _ _ _ claimed => ?_) fun still => absurd still busy
  have ok : EventOk groups view.landed event := by
    obtain ⟨hash, counted, -⟩ := claimed
    exact counted.events event (.inr sent)
  exact claimed.countOnce present ok

theorem Valid.post (valid : Valid view) {event : Event Agent} (sent : event ∈ view.sent) :
    Valid (view.post event) := by
  unfold View.post
  split
  · exact valid
  · rename_i hash present
    have counting := valid.countOnce present sent
    split
    · split
      · exact counting.promote
      · exact counting
    · exact valid

theorem Valid.advance (claimed : Claimed view groups returned false)
    (within : returned.length ≤ groups.pending.length) :
    Valid { view with call := some ⟨groups, advance groups returned⟩ } := by
  unfold Dispatch.advance
  split
  · rename_i short
    exact ⟨short, claimed.goto _⟩
  · rename_i full
    have all : returned.length = groups.pending.length := le_antisymm within (Nat.not_lt.mp full)
    split
    · exact ⟨all, claimed.goto _⟩
    · exact ⟨all, claimed.goto _⟩

def Inv (state : State Batch Agent Proposal) : Prop := ∀ batch, Valid (state.view batch)

theorem initial_inv : Inv (State.initial : State Batch Agent Proposal) := by
  intro batch
  exact ⟨⟨rfl, rfl, fun _ => rfl⟩, rfl, rfl⟩

theorem Quiet.seeded (still : Quiet view) (groups : Groups Agent Proposal) :
    Counted { view with hash := some (initFields groups) } groups [] false (initFields groups) := by
  refine ⟨rfl, rfl, fun field => ?_, fun ended => absurd rfl ended, ?_, ?_, ?_⟩
  · simp [baseHash, still.applied, gains]
  · simp [still.applied]
  · simp [still.applied, still.sent]
  · simp [still.landed]

theorem Valid.enqueue (short : returned.length < groups.pending.length)
    (claimed : Claimed view groups returned false) (outcome : EnqueueOutcome) :
    Valid { view with
      landed := if outcome.lands then Function.update view.landed returned.length true else view.landed
      call := some ⟨groups, afterEnqueue groups returned outcome⟩ } := by
  have one : ∀ flag : Bool, (returned ++ [flag]).length ≤ groups.pending.length := by
    intro flag
    rw [List.length_append]
    exact short
  cases outcome with
  | landed => exact Valid.advance (claimed.land true true [] fun _ => rfl) (one true)
  | ambiguous there => exact Valid.advance (claimed.land true there [] fun _ => rfl) (one true)
  | failed => exact Valid.advance (claimed.land false false [] fun lands => by cases lands) (one false)
  | interrupted there =>
      refine ⟨?_, (claimed.land true there _ fun _ => rfl).goto _⟩
      simp only [List.length_append, List.length_cons, List.length_replicate]
      omega

omit [DecidableEq Batch] in
theorem Valid.moves {action : Action Batch Agent Proposal} (valid : Valid view)
    (moves : Moves view action after) : Valid after := by
  cases moves with
  | start batch groups fresh =>
      simp only [Valid, fresh] at valid
      exact ⟨valid.1.moved _ _ _, valid.2⟩
  | seed batch fate groups at_ =>
      simp only [Valid, at_] at valid
      obtain ⟨still, absent, free⟩ := valid
      cases fate with
      | replied => exact ⟨still.moved _ _ _, free, _, (still.seeded groups).moved _ _⟩
      | raisedAfter => exact ⟨still.moved _ _ _, .inr ⟨_, (still.seeded groups).moved _ _⟩⟩
      | raisedBefore => exact ⟨still.moved _ _ _, .inl absent⟩
  | won batch fate groups at_ =>
      simp only [Valid, at_] at valid
      obtain ⟨still, -, hash, counted⟩ := valid
      have claimed : Claimed { view with held := true } groups [] false :=
        ⟨hash, counted.moved _ _, .inl rfl⟩
      exact Valid.advance claimed (Nat.zero_le _)
  | lost batch fate groups at_ held =>
      simp only [Valid, at_] at valid
      obtain ⟨still, -, hash, counted⟩ := valid
      exact ⟨still.moved _ _ _, .inr ⟨hash, counted.moved _ _⟩⟩
  | drop batch fate groups at_ =>
      simp only [Valid, at_] at valid
      obtain ⟨still, hash⟩ := valid
      cases fate with
      | replied => exact ⟨still.moved _ _ _, .inl rfl⟩
      | raisedAfter => exact ⟨still.moved _ _ _, .inl rfl⟩
      | raisedBefore =>
          exact ⟨still.moved _ _ _, hash.imp_right fun ⟨hash, counted⟩ => ⟨hash, counted.moved _ _⟩⟩
  | enqueue batch outcome groups returned at_ =>
      simp only [Valid, at_] at valid
      exact Valid.enqueue valid.1 valid.2 outcome
  | settle batch fate groups returned at_ =>
      simp only [Valid, at_] at valid
      obtain ⟨all, claimed⟩ := valid
      have settled := claimed.settle all
      cases fate with
      | replied => exact ⟨all, settled.goto _⟩
      | raisedAfter => exact ⟨all, settled.goto _⟩
      | raisedBefore => exact ⟨all, claimed.goto _⟩
  | release batch fate groups returned at_ empty =>
      simp only [Valid, at_] at valid
      exact ⟨valid.1, (valid.2.release empty).goto _⟩
  | promote batch fate groups returned at_ =>
      simp only [Valid, at_] at valid
      exact ⟨valid.1, valid.2.promote.goto _⟩
  | unfinished batch fate groups returned at_ =>
      simp only [Valid, at_] at valid
      exact ⟨valid.1, valid.2.goto _⟩
  | report batch call chunk job item terminal at_ landed planned left =>
      have busy : ¬ Quiet view := fun quiet => by
        rw [quiet.landed job] at landed
        cases landed
      have ok : EventOk call.groups view.landed (nextEvent chunk job item terminal) :=
        ⟨landed, chunk, planned, left, rfl, rfl⟩
      refine valid.map rfl (fun groups _ _ _ mine claimed => ?_) fun still => absurd still busy
      obtain rfl : groups = call.groups := congrArg Call.groups (Option.some.inj (mine.symm.trans at_))
      exact claimed.send ok
  | replay batch job => exact valid
  | deliver batch event sent => exact valid.post sent

theorem Valid.touched (valid : Valid view) (touched : Touched view after) : Valid after := by
  cases touched with
  | untouched => exact valid
  | surrendered stale => exact valid.surrender stale
  | promoted stale => exact valid.promote

theorem Inv.unheld (inv : Inv state) {groups : Groups Agent Proposal}
    (call : state.call batch = some ⟨groups, .claiming⟩) : state.redis.sentinel ≠ some batch := by
  have valid := inv batch
  simp only [Valid, show (state.view batch).call = _ from call] at valid
  simpa [State.view] using valid.2.1

theorem Inv.views {action : Action Batch Agent Proposal} (inv : Inv state)
    (taken : step state action = some next) : Views state next action.batch action :=
  step_views (fun _ _ call => inv.unheld call) taken

theorem step_inv {action : Action Batch Agent Proposal} (inv : Inv state)
    (taken : step state action = some next) : Inv next := by
  obtain ⟨moves, touched⟩ := inv.views taken
  intro other
  by_cases same : other = action.batch
  · subst same
    exact (inv action.batch).moves moves
  · exact (inv other).touched (touched other same)

theorem reachable_inv (reachable : Reachable state) : Inv state := by
  induction reachable with
  | refl => exact initial_inv
  | tail _ taken inv =>
      obtain ⟨action, taken⟩ := taken
      exact step_inv inv taken

end Inv

end Phaze.Dispatch
