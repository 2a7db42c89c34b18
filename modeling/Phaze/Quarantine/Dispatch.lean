import Phaze.Quarantine.Protocol

set_option autoImplicit false

/-!
# The approval a job acts on

While nothing of a job exists and no call is inside `queue.enqueue`, the row may go back to the operator. Every
step keeps the rest executing, but for a call that is cancelled there after the fact.
-/

namespace Phaze.Quarantine

namespace State

variable (state : State)

/-- No job exists, and none is recorded or on its way. -/
def Clear : Prop :=
  state.jobs = [] ∧ state.ledger = none ∧ state.inFlight = []

instance : Decidable state.Clear := by
  unfold Clear
  infer_instance

def Handed : Prop :=
  ∃ status, state.status = some status ∧ status.handed = true

-- The approvals that jobs act on.
def Carries (approval : Approval) : Prop :=
  approval ∈ state.jobs ∨ state.ledger = some approval ∨ ∃ statement ∈ state.inFlight, statement.approval = approval

end State

structure Sound (state : State) : Prop where
  launched : ¬ state.Clear → state.Handed
  carried : ∀ approval, state.Carries approval → approval = state.approvals
  held : ∀ call approval, (state.calls call).holding = some approval → state.Handed ∧ approval = state.approvals
  alone : ∀ one two, (state.calls one).holding ≠ none → (state.calls two).holding ≠ none → one = two
  waits : ∀ call, (state.calls call).waiting = true → state.Clear
  ended : ∀ status, state.status = some status → status.terminal = true → state.jobs ≠ []
  running : ∀ attempt approval, state.attempts attempt = .running approval → approval ∈ state.jobs
  reporting : ∀ attempt outcome, state.attempts attempt = .reporting outcome → state.jobs ≠ []
  sent : state.sent ≠ [] → state.jobs ≠ []

theorem Sound.initial : Sound .initial where
  launched := fun some_job => absurd ⟨rfl, rfl, rfl⟩ some_job
  carried := by simp [State.Carries, State.initial]
  held := nofun
  alone := fun _ _ holding => absurd rfl holding
  waits := nofun
  ended := by
    rintro status ⟨⟩ terminal
    cases terminal
  running := nofun
  reporting := nofun
  sent := fun some_report => absurd rfl some_report

section Steps

variable {state next : State}

theorem holding_of_inside {stage : Stage} (inside : stage.inside = true) : stage.holding ≠ none := by
  cases stage <;> simp_all [Stage.inside, Stage.holding]

theorem holding_of_waiting {stage : Stage} (waiting : stage.waiting = true) : stage.holding ≠ none := by
  cases stage <;> simp_all [Stage.waiting, Stage.holding]

theorem inside_of_waiting {stage : Stage} (waiting : stage.waiting = true) : stage.inside = false := by
  cases stage <;> simp_all [Stage.inside, Stage.waiting]

/-! ## Facts of a sound state -/

theorem Sound.idle_of_unhanded (sound : Sound state) (unhanded : ¬ state.Handed) (call : CallId) :
    (state.calls call).holding = none := by
  cases holding : (state.calls call).holding with
  | none => rfl
  | some approval => exact absurd (sound.held call approval holding).1 unhanded

theorem Sound.clear_of_unhanded (sound : Sound state) (unhanded : ¬ state.Handed) : state.Clear := by
  by_contra some_job
  exact unhanded (sound.launched some_job)

theorem Sound.executing_of_waiting (sound : Sound state) {call : CallId}
    (waiting : (state.calls call).waiting = true) : state.status = some .executing := by
  obtain ⟨approval, holding⟩ := Option.ne_none_iff_exists'.mp (holding_of_waiting waiting)
  obtain ⟨status, stands, handed⟩ := (sound.held call approval holding).1
  rcases executing_or_terminal handed with rfl | terminal
  · exact stands
  · exact absurd (sound.waits call waiting).1 (sound.ended status stands terminal)

theorem Sound.handed_of_job (sound : Sound state) (job : state.jobs ≠ []) : state.Handed :=
  sound.launched fun clear => job clear.1

/-! ## The row -/

-- Before a claim and after a release, nothing but the status is at stake.
theorem Sound.rejudged (sound : Sound state) (unhanded : ¬ state.Handed) (status : Option JunkReviewStatus)
    (approvals : Approval) (free : ∀ given, status = some given → given.handed = false) :
    Sound { state with status := status, approvals := approvals } := by
  have clear := sound.clear_of_unhanded unhanded
  have idle := sound.idle_of_unhanded unhanded
  exact
    { sound with
      launched := fun some_job => absurd clear some_job
      carried := by
        rintro approval (job | ledger | ⟨statement, pending, -⟩)
        · exact absurd (show approval ∈ state.jobs from job) (by simp [clear.1])
        · exact absurd (show state.ledger = some approval from ledger) (by simp [clear.2.1])
        · exact absurd (show statement ∈ state.inFlight from pending) (by simp [clear.2.2])
      held := by
        intro call approval holding
        exact absurd ((idle call).symm.trans holding) (by simp)
      ended := by
        intro given stands terminal
        exact absurd (handed_of_terminal terminal) (by simp [free given stands]) }

theorem Sound.decided (sound : Sound state) {target : JunkReviewStatus}
    (stepped : decideContentGroup state target = some next) : Sound next := by
  unfold decideContentGroup at stepped
  split at stepped
  case isFalse => cases stepped
  next decision =>
    split at stepped
    case h_2 =>
      cases stepped
      exact sound
    next status stands =>
      split at stepped
      case isFalse =>
        cases stepped
        exact sound
      next allowed =>
        cases stepped
        refine sound.rejudged ?_ _ _ ?_
        · rintro ⟨other, same, handed⟩
          rw [stands] at same
          cases same
          rw [unhanded_of_decision decision allowed] at handed
          cases handed
        · rintro given ⟨⟩
          cases target <;> simp_all [JunkReviewStatus.decision, JunkReviewStatus.handed]

theorem Sound.withdrawn (sound : Sound state) (stepped : withdraw state = some next) : Sound next := by
  unfold withdraw at stepped
  split at stepped
  case isFalse => cases stepped
  next pending =>
    cases stepped
    refine sound.rejudged ?_ none state.approvals nofun
    rintro ⟨status, stands, handed⟩
    rw [pending] at stands
    cases stands
    cases handed

/-! ## The calls -/

@[simp]
theorem setCall_same (state : State) (call : CallId) (stage : Stage) : (setCall state call stage).calls call = stage :=
  Function.update_self ..

theorem setCall_other (state : State) {call other : CallId} (different : other ≠ call) (stage : Stage) :
    (setCall state call stage).calls other = state.calls other :=
  Function.update_of_ne different ..

-- A call that held the row holds it, or is over.
theorem Sound.moved (sound : Sound state) {call : CallId} {stage : Stage}
    (held : ∀ approval, stage.holding = some approval → (state.calls call).holding = some approval)
    (waits : stage.waiting = true → state.Clear) : Sound (setCall state call stage) := by
  have before : ∀ other, ((setCall state call stage).calls other).holding ≠ none → (state.calls other).holding ≠ none := by
    intro other holding
    by_cases same : other = call
    · subst same
      rw [setCall_same] at holding
      obtain ⟨approval, some_approval⟩ := Option.ne_none_iff_exists'.mp holding
      simp [held approval some_approval]
    · rwa [setCall_other state same] at holding
  exact
    { sound with
      held := by
        intro other approval holding
        by_cases same : other = call
        · subst same
          rw [setCall_same] at holding
          exact sound.held other approval (held approval holding)
        · rw [setCall_other state same] at holding
          exact sound.held other approval holding
      alone := fun one two first second => sound.alone one two (before one first) (before two second)
      waits := by
        intro other waiting
        by_cases same : other = call
        · subst same
          rw [setCall_same] at waiting
          exact waits waiting
        · rw [setCall_other state same] at waiting
          exact sound.waits other waiting }

theorem Sound.claimed (sound : Sound state) {call : CallId} (stepped : claimApproved state call = some next) :
    Sound next := by
  unfold claimApproved at stepped
  split at stepped
  case h_2 => cases stepped
  next status idle stands =>
    split at stepped
    case isFalse => cases stepped
    next allowed =>
      cases stepped
      have unhanded : ¬ state.Handed := by
        rintro ⟨other, same, handed⟩
        rw [stands] at same
        cases same
        rw [approved_of_claim allowed] at handed
        cases handed
      have clear := sound.clear_of_unhanded unhanded
      have others := sound.idle_of_unhanded unhanded
      have mine : ∀ other, ((setCall state call (.claimed state.approvals)).calls other).holding ≠ none → other = call := by
        intro other holding
        by_contra different
        rw [setCall_other state different] at holding
        exact holding (others other)
      exact
        { sound with
          launched := fun _ => ⟨.executing, rfl, rfl⟩
          held := by
            intro other approval holding
            refine ⟨⟨.executing, rfl, rfl⟩, ?_⟩
            obtain rfl := mine other (by rw [show ((setCall state call _).calls other).holding = _ from holding]; simp)
            exact (Option.some.inj ((congrArg Stage.holding (setCall_same state other _)).symm.trans holding)).symm
          alone := fun one two first second => (mine one first).trans (mine two second).symm
          waits := fun _ _ => clear
          ended := by
            rintro given ⟨⟩ terminal
            cases terminal }

/-! ## The statements of a call -/

theorem Sound.quiet_of_job (sound : Sound state) (some_job : ¬ state.Clear) (call : CallId) :
    (state.calls call).waiting = false := by
  cases waiting : (state.calls call).waiting with
  | false => rfl
  | true => exact absurd (sound.waits call waiting) some_job

theorem Sound.quiet_of_inside (sound : Sound state) {call : CallId} (inside : (state.calls call).inside = true)
    (other : CallId) : (state.calls other).waiting = false := by
  cases waiting : (state.calls other).waiting with
  | false => rfl
  | true =>
      have same := sound.alone call other (holding_of_inside inside) (holding_of_waiting waiting)
      rw [same, inside_of_waiting waiting] at inside
      cases inside

theorem Sound.written (sound : Sound state) (handed : state.Handed) {statement : Statement}
    (current : statement.approval = state.approvals) (quiet : ∀ call, (state.calls call).waiting = false) :
    Sound (write state statement) := by
  cases statement with
  | ledger approval =>
      exact
        { sound with
          launched := fun _ => handed
          carried := by
            rintro given (job | ledger | pending)
            · exact sound.carried given (.inl job)
            · cases ledger
              exact current
            · exact sound.carried given (.inr (.inr pending))
          waits := fun call waiting => absurd ((quiet call).symm.trans waiting) (by simp) }
  | job approval =>
      exact
        { sound with
          launched := fun _ => handed
          carried := by
            rintro given (job | other)
            · rcases List.mem_cons.mp job with rfl | job
              · exact current
              · exact sound.carried given (.inl job)
            · exact sound.carried given (.inr other)
          waits := fun call waiting => absurd ((quiet call).symm.trans waiting) (by simp)
          ended := fun _ _ _ => List.cons_ne_nil _ _
          running := fun attempt given runs => List.mem_cons_of_mem _ (sound.running attempt given runs)
          reporting := fun _ _ _ => List.cons_ne_nil _ _
          sent := fun _ => List.cons_ne_nil _ _ }

theorem Sound.posted (sound : Sound state) (handed : state.Handed) {statement : Statement}
    (current : statement.approval = state.approvals) (quiet : ∀ call, (state.calls call).waiting = false) :
    Sound { state with inFlight := statement :: state.inFlight } :=
  { sound with
    launched := fun _ => handed
    carried := by
      rintro given (job | ledger | ⟨other, pending, names⟩)
      · exact sound.carried given (.inl job)
      · exact sound.carried given (.inr (.inl ledger))
      · rcases List.mem_cons.mp pending with rfl | pending
        · exact names.symm.trans current
        · exact sound.carried given (.inr (.inr ⟨other, pending, names⟩))
    waits := fun call waiting => absurd ((quiet call).symm.trans waiting) (by simp) }

theorem approval_of_statement {stage : Stage} {statement : Statement} (pending : stage.statement = some statement) :
    stage.holding = some statement.approval := by
  cases stage <;> cases pending <;> rfl

theorem Sound.settled (sound : Sound state) {call : CallId} (inside : (state.calls call).inside = true)
    (landing : Landing) : Sound (settle state (state.calls call).statement landing) := by
  have quiet := sound.quiet_of_inside inside
  cases pending : (state.calls call).statement with
  | none => exact sound
  | some statement =>
      obtain ⟨handed, current⟩ := sound.held call _ (approval_of_statement pending)
      cases landing with
      | now => exact sound.written handed current quiet
      | later => exact sound.posted handed current quiet
      | never => exact sound

@[simp]
theorem write_calls (state : State) (statement : Statement) : (write state statement).calls = state.calls := by
  cases statement <;> rfl

@[simp]
theorem settle_calls (state : State) (statement : Option Statement) (landing : Landing) :
    (settle state statement landing).calls = state.calls := by
  cases statement <;> cases landing <;> simp [settle]

theorem Sound.connected (sound : Sound state) {call : CallId} (stepped : connect state call = some next) :
    Sound next := by
  unfold connect at stepped
  split at stepped
  case h_2 => cases stepped
  next approval stands =>
    cases stepped
    exact sound.moved (fun given holding => by rw [stands]; exact holding) nofun

theorem Sound.failed (sound : Sound state) {call : CallId} (stepped : failCall state call = some next) :
    Sound next := by
  unfold failCall at stepped
  split at stepped
  case h_2 => cases stepped
  next approval stands =>
    cases stepped
    exact sound.moved (fun given holding => by rw [stands]; exact holding)
      fun _ => sound.waits call (by rw [stands]; rfl)

theorem Sound.noted (sound : Sound state) {call : CallId} {landing : Landing}
    (stepped : noteLedger state call landing = some next) : Sound next := by
  unfold noteLedger at stepped
  split at stepped
  case h_2 => cases stepped
  next approval stands =>
    cases stepped
    have inside : (state.calls call).inside = true := by rw [stands]; rfl
    have settled := sound.settled inside landing
    rw [stands] at settled
    refine settled.moved ?_ nofun
    intro given holding
    rw [settle_calls, stands]
    exact holding

theorem Sound.inserted (sound : Sound state) {call : CallId} (stepped : insertJob state call = some next) :
    Sound next := by
  unfold insertJob at stepped
  split at stepped
  case h_2 => cases stepped
  next approval stands =>
    cases stepped
    have inside : (state.calls call).inside = true := by rw [stands]; rfl
    have settled := sound.settled inside .now
    rw [stands] at settled
    refine settled.moved ?_ nofun
    intro given holding
    rw [settle_calls, stands]
    exact holding

theorem Sound.returned (sound : Sound state) {call : CallId} (stepped : returnCall state call = some next) :
    Sound next := by
  unfold returnCall at stepped
  split at stepped
  case h_2 => cases stepped
  next approval stands =>
    cases stepped
    exact sound.moved nofun nofun

theorem Sound.raised (sound : Sound state) {call : CallId} {landing : Landing}
    (stepped : raiseAmbiguous state call landing = some next) : Sound next := by
  unfold raiseAmbiguous at stepped
  split at stepped
  case isFalse => cases stepped
  next inside =>
    cases stepped
    exact (sound.settled inside landing).moved nofun nofun

theorem Sound.cancelled (sound : Sound state) {call : CallId} {landing : Landing} (clear : state.Clear)
    (lost : landing = .never) (stepped : cancelCall state call landing = some next) : Sound next := by
  unfold cancelCall at stepped
  split at stepped
  case h_2 => cases stepped
  next approval holding =>
    split at stepped
    case isFalse => cases stepped
    next inside =>
      cases stepped
      subst lost
      have unsettled : settle state (state.calls call).statement .never = state := by
        cases (state.calls call).statement <;> rfl
      rw [unsettled]
      exact sound.moved (fun given same => by rw [holding]; exact same) fun _ => clear

theorem Sound.died (sound : Sound state) {call : CallId} {landing : Landing}
    (stepped : dieCall state call landing = some next) : Sound next := by
  unfold dieCall at stepped
  split at stepped
  case h_2 => cases stepped
  next approval holding =>
    cases stepped
    cases inside : (state.calls call).inside with
    | true => exact (sound.settled inside landing).moved nofun nofun
    | false =>
        have unsettled : settle state (state.calls call).statement landing = state := by
          cases stage : state.calls call <;> simp_all [Stage.inside, Stage.statement, settle]
        rw [unsettled]
        exact sound.moved nofun nofun

-- The row of a call that waits is its own, and has no job.
theorem Sound.released (sound : Sound state) {call : CallId} (stepped : releaseUnsent state call = some next) :
    Sound next := by
  unfold releaseUnsent at stepped
  split at stepped
  case h_2 => cases stepped
  next approval stands =>
    cases stepped
    have waiting : (state.calls call).waiting = true := by rw [stands]; rfl
    have clear := sound.waits call waiting
    have done : Sound (setCall state call .over) := sound.moved nofun nofun
    have none_holds : ∀ other, ((setCall state call .over).calls other).holding = none := by
      intro other
      by_cases same : other = call
      · subst same
        rw [setCall_same]
        rfl
      · rw [setCall_other state same]
        by_contra holding
        exact same (sound.alone other call holding (holding_of_waiting waiting))
    rw [if_pos (sound.executing_of_waiting waiting)]
    exact
      { done with
        launched := fun some_job => absurd clear some_job
        held := fun other given holding => absurd ((none_holds other).symm.trans holding) (by simp)
        ended := by
          rintro given ⟨⟩ terminal
          cases terminal }

/-! ## The broker and the ledger -/

theorem Sound.recovered (sound : Sound state) (stepped : recover state = some next) : Sound next := by
  unfold recover at stepped
  split at stepped
  case h_2 => cases stepped
  next approval ledger =>
    cases stepped
    have some_job : ¬ state.Clear := fun clear => by simp [clear.2.1] at ledger
    have handed := sound.launched some_job
    have current := sound.carried approval (.inr (.inl ledger))
    have quiet := sound.quiet_of_job some_job
    have posted : Sound { state with inFlight := .job approval :: state.inFlight } :=
      sound.posted handed current quiet
    exact posted.posted handed current quiet

-- Statements that are gone, with the ledger row or not.
theorem Sound.dropped (sound : Sound state) {ledger : Option Approval} {inFlight : List Statement}
    (kept : ∀ approval, ledger = some approval → state.ledger = some approval)
    (fewer : inFlight ⊆ state.inFlight) : Sound { state with ledger := ledger, inFlight := inFlight } := by
  have clears (clear : state.Clear) : ({ state with ledger := ledger, inFlight := inFlight } : State).Clear := by
    obtain ⟨jobs, row, pending⟩ := clear
    refine ⟨jobs, ?_, List.subset_nil.mp (pending ▸ fewer)⟩
    cases ledger with
    | none => rfl
    | some approval => exact absurd ((kept approval rfl).symm.trans row) (by simp)
  exact
    { sound with
      launched := fun some_job => sound.launched fun clear => some_job (clears clear)
      carried := by
        rintro given (job | row | ⟨statement, pending, names⟩)
        · exact sound.carried given (.inl job)
        · exact sound.carried given (.inr (.inl (kept given row)))
        · exact sound.carried given (.inr (.inr ⟨statement, fewer pending, names⟩))
      waits := fun call waiting => clears (sound.waits call waiting) }

theorem Sound.landed (sound : Sound state) {statement : Statement} (stepped : land state statement = some next) :
    Sound next := by
  unfold land at stepped
  split at stepped
  case isFalse => cases stepped
  next pending =>
    cases stepped
    have some_job : ¬ state.Clear := fun clear => by simp [clear.2.2] at pending
    have current := sound.carried _ (.inr (.inr ⟨statement, pending, rfl⟩))
    exact (sound.dropped (fun _ same => same) List.erase_subset).written (sound.launched some_job) current
      (sound.quiet_of_job some_job)

theorem Sound.lost (sound : Sound state) {statement : Statement} (stepped : lose state statement = some next) :
    Sound next := by
  unfold lose at stepped
  split at stepped
  case isFalse => cases stepped
  next pending =>
    cases stepped
    exact sound.dropped (fun _ same => same) List.erase_subset

/-! ## The agent -/

theorem Sound.attempted (sound : Sound state) {attempt : AttemptId} {stage : Attempt}
    (running : ∀ approval, stage = .running approval → approval ∈ state.jobs)
    (reporting : ∀ outcome, stage = .reporting outcome → state.jobs ≠ []) :
    Sound (setAttempt state attempt stage) :=
  { sound with
    running := by
      intro other approval runs
      by_cases same : other = attempt
      · subst same
        exact running approval ((Function.update_self ..).symm.trans runs)
      · exact sound.running other approval ((Function.update_of_ne same ..).symm.trans runs)
    reporting := by
      intro other outcome reports
      by_cases same : other = attempt
      · subst same
        exact reporting outcome ((Function.update_self ..).symm.trans reports)
      · exact sound.reporting other outcome ((Function.update_of_ne same ..).symm.trans reports) }

theorem Sound.began (sound : Sound state) {attempt : AttemptId} {approval : Approval}
    (stepped : beginAttempt state attempt approval = some next) : Sound next := by
  unfold beginAttempt at stepped
  split at stepped
  case isFalse => cases stepped
  next enabled =>
    cases stepped
    refine sound.attempted ?_ nofun
    rintro given ⟨⟩
    exact enabled.2

theorem Sound.reports (sound : Sound state) {attempt : AttemptId} {approval : Approval}
    (runs : state.attempts attempt = .running approval) (outcome : Outcome) :
    Sound (setAttempt state attempt (.reporting outcome)) :=
  sound.attempted nofun fun _ _ => List.ne_nil_of_mem (sound.running attempt approval runs)

theorem Sound.quarantined (sound : Sound state) {attempt : AttemptId}
    (stepped : quarantineFile state attempt = some next) : Sound next := by
  unfold quarantineFile at stepped
  split at stepped
  next approval runs stands =>
    cases stepped
    exact { sound.reports runs .quarantined with }
  next approval runs stands =>
    cases stepped
    exact sound.reports runs .quarantined
  · cases stepped

theorem Sound.refused (sound : Sound state) {attempt : AttemptId} (stepped : refuseFile state attempt = some next) :
    Sound next := by
  unfold refuseFile at stepped
  split at stepped
  next approval runs =>
    cases stepped
    exact sound.reports runs .failed
  · cases stepped

theorem Sound.reported (sound : Sound state) {attempt : AttemptId} (stepped : report state attempt = some next) :
    Sound next := by
  unfold report at stepped
  split at stepped
  next outcome reports =>
    cases stepped
    exact { sound with sent := fun _ => sound.reporting attempt outcome reports }
  · cases stepped

theorem Sound.disturbed (sound : Sound state) (stepped : disturb state = some next) : Sound next := by
  unfold disturb at stepped
  split at stepped
  · cases stepped
    exact { sound with }
  · cases stepped

theorem transitionReview_executing {target : JunkReviewStatus} (executing : state.status = some .executing)
    (allowed : allowedFrom target .executing = true) :
    transitionReview state target = { state with status := some target } := by
  simp [transitionReview, executing, allowed]

-- Once there was a job, the end of the row changes nothing for the rest.
theorem Sound.settledReview (sound : Sound state) (job : state.jobs ≠ []) {target : JunkReviewStatus}
    (handed : target.handed = true) (retired : Bool) :
    Sound { state with status := some target, ledger := none, retired := retired } := by
  have some_job : ¬ state.Clear := fun clear => job clear.1
  exact
    { sound with
      launched := fun _ => ⟨target, rfl, handed⟩
      carried := by
        rintro given (present | row | pending)
        · exact sound.carried given (.inl present)
        · cases row
        · exact sound.carried given (.inr (.inr pending))
      held := fun call given holding => ⟨⟨target, rfl, handed⟩, (sound.held call given holding).2⟩
      waits := fun call waiting => absurd (sound.waits call waiting) some_job
      ended := fun _ _ _ => job }

theorem Sound.served (sound : Sound state) {outcome : Outcome}
    (stepped : recordQuarantineResult state outcome = some next) : Sound next := by
  unfold recordQuarantineResult at stepped
  split at stepped
  case isFalse => cases stepped
  next sent =>
    have job := sound.sent (List.ne_nil_of_mem sent)
    split at stepped
    case isFalse =>
      cases stepped
      exact sound
    next executing =>
      cases outcome with
      | quarantined =>
          cases stepped
          rw [transitionReview_executing executing rfl]
          exact sound.settledReview job rfl true
      | failed =>
          cases stepped
          rw [transitionReview_executing executing rfl]
          exact sound.settledReview job rfl state.retired

/-! ## Runs -/

-- A call is cancelled inside `queue.enqueue` only while nothing of a job exists or can land.
def admitted (state : State) : Action → Prop
  | .cancel _ landing => state.Clear ∧ landing = .never
  | _ => True

instance (state : State) (action : Action) : Decidable (admitted state action) := by
  cases action <;> unfold admitted <;> infer_instance

theorem step_sound {action : Action} (sound : Sound state) (admits : admitted state action)
    (stepped : step state action = some next) : Sound next := by
  cases action with
  | decide => exact sound.decided stepped
  | withdraw => exact sound.withdrawn stepped
  | claim => exact sound.claimed stepped
  | connect => exact sound.connected stepped
  | fail => exact sound.failed stepped
  | note => exact sound.noted stepped
  | insert => exact sound.inserted stepped
  | enqueued => exact sound.returned stepped
  | ambiguous => exact sound.raised stepped
  | cancel => exact sound.cancelled admits.1 admits.2 stepped
  | release => exact sound.released stepped
  | die => exact sound.died stepped
  | recover => exact sound.recovered stepped
  | land => exact sound.landed stepped
  | lose => exact sound.lost stepped
  | clear =>
      cases stepped
      exact sound.dropped nofun (List.Subset.refl _)
  | begin => exact sound.began stepped
  | quarantineFile => exact sound.quarantined stepped
  | refuse => exact sound.refused stepped
  | report => exact sound.reported stepped
  | finish =>
      cases stepped
      exact sound.attempted nofun nofun
  | disturb => exact sound.disturbed stepped
  | serve => exact sound.served stepped

theorem run_sound {actions : List Action} (along : Runs.Along step admitted .initial actions)
    (ran : Runs.run step .initial actions = some state) : Sound state :=
  Runs.run_keeps (fun _ _ _ sound admits stepped => step_sound sound admits stepped) actions along Sound.initial ran

end Steps

end Phaze.Quarantine
