import Phaze.Quarantine.Dispatch

set_option autoImplicit false

/-!
# What a quarantined row records

A report of a move is sent after the move, and the row that it ends is not written again.
-/

namespace Phaze.Quarantine

structure Recorded (state : State) : Prop where
  reporting : ∀ attempt, state.attempts attempt = .reporting .quarantined → state.file = .quarantine
  sent : .quarantined ∈ state.sent → state.file = .quarantine
  ended : state.status = some .quarantined → state.file = .quarantine
  retired : state.retired = true → state.status = some .quarantined

theorem Recorded.initial : Recorded .initial where
  reporting := nofun
  sent := nofun
  ended := nofun
  retired := nofun

/-- A step that leaves the agent alone, and does not end the row. -/
structure Aside (state next : State) : Prop where
  attempts : next.attempts = state.attempts
  sent : next.sent = state.sent
  file : next.file = state.file
  retired : next.retired = state.retired
  status : next.status = state.status ∨
    (∀ status, state.status = some status → status.terminal = false) ∧ next.status ≠ some .quarantined

section Steps

variable {state next : State}

theorem Aside.same : Aside state state := ⟨.refl _, .refl _, .refl _, .refl _, .inl (.refl _)⟩

theorem Aside.trans {later : State} (first : Aside state next) (second : Aside next later)
    (same : later.status = next.status) : Aside state later where
  attempts := second.attempts.trans first.attempts
  sent := second.sent.trans first.sent
  file := second.file.trans first.file
  retired := second.retired.trans first.retired
  status := first.status.imp (fun kept => same.trans kept) fun changed => ⟨changed.1, same ▸ changed.2⟩

theorem Aside.call (call : CallId) (stage : Stage) : Aside state (setCall state call stage) :=
  ⟨.refl _, .refl _, .refl _, .refl _, .inl (.refl _)⟩

theorem Aside.written (statement : Statement) : Aside state (write state statement) := by
  cases statement <;> exact ⟨.refl _, .refl _, .refl _, .refl _, .inl (.refl _)⟩

theorem Aside.settled (statement : Option Statement) (landing : Landing) :
    Aside state (settle state statement landing) := by
  rcases statement with _ | statement
  · cases landing <;> exact Aside.same
  · cases landing
    · exact Aside.written statement
    · exact ⟨.refl _, .refl _, .refl _, .refl _, .inl (.refl _)⟩
    · exact Aside.same

theorem Aside.settledCall (call : CallId) (statement : Option Statement) (landing : Landing) (stage : Stage) :
    Aside state (setCall (settle state statement landing) call stage) :=
  (Aside.settled statement landing).trans (Aside.call call stage) rfl

theorem Aside.decided {target : JunkReviewStatus} (stepped : decideContentGroup state target = some next) :
    Aside state next := by
  unfold decideContentGroup at stepped
  split at stepped
  case isFalse => cases stepped
  next decision =>
    split at stepped
    case h_2 =>
      cases stepped
      exact Aside.same
    next status stands =>
      split at stepped
      case isFalse =>
        cases stepped
        exact Aside.same
      next allowed =>
        cases stepped
        refine ⟨rfl, rfl, rfl, rfl, .inr ⟨?_, ?_⟩⟩
        · intro given same
          rw [stands] at same
          cases same
          by_contra terminal
          rw [allowedFrom_terminal (by simpa using terminal)] at allowed
          cases allowed
        · rintro ⟨⟩
          cases decision

theorem Aside.withdrawn (stepped : withdraw state = some next) : Aside state next := by
  unfold withdraw at stepped
  split at stepped
  case isFalse => cases stepped
  next pending =>
    cases stepped
    refine ⟨rfl, rfl, rfl, rfl, .inr ⟨?_, nofun⟩⟩
    intro given same
    rw [pending] at same
    cases same
    rfl

theorem Aside.claimed {call : CallId} (stepped : claimApproved state call = some next) : Aside state next := by
  unfold claimApproved at stepped
  split at stepped
  case h_2 => cases stepped
  next status idle stands =>
    split at stepped
    case isFalse => cases stepped
    next allowed =>
      cases stepped
      refine ⟨rfl, rfl, rfl, rfl, .inr ⟨?_, nofun⟩⟩
      intro given same
      rw [stands] at same
      cases same
      rw [approved_of_claim allowed]
      rfl

theorem Aside.released {call : CallId} (stepped : releaseUnsent state call = some next) : Aside state next := by
  unfold releaseUnsent at stepped
  split at stepped
  case h_2 => cases stepped
  next approval stands =>
    cases stepped
    by_cases executing : state.status = some .executing
    · refine ⟨rfl, rfl, rfl, rfl, .inr ⟨?_, ?_⟩⟩
      · intro given same
        rw [executing] at same
        cases same
        rfl
      · simp [executing]
    · exact ⟨rfl, rfl, rfl, rfl, .inl (if_neg executing)⟩

theorem Aside.landed {statement : Statement} (stepped : land state statement = some next) : Aside state next := by
  unfold land at stepped
  split at stepped
  case isFalse => cases stepped
  next pending =>
    cases stepped
    exact ⟨(Aside.written _).attempts, (Aside.written _).sent, (Aside.written _).file, (Aside.written _).retired,
      .inl (by cases statement <;> rfl)⟩

/-- The agent's steps and the reports are the others. -/
def Action.aside : Action → Bool
  | .begin .. | .quarantineFile _ | .refuse _ | .report _ | .finish _ | .disturb | .serve _ => false
  | _ => true

theorem step_aside {action : Action} (aside : action.aside = true) (stepped : step state action = some next) :
    Aside state next := by
  cases action with
  | begin | quarantineFile | refuse | report | finish | disturb | serve => cases aside
  | decide => exact .decided stepped
  | withdraw => exact .withdrawn stepped
  | claim => exact .claimed stepped
  | release => exact .released stepped
  | land => exact .landed stepped
  | clear =>
      cases stepped
      exact ⟨rfl, rfl, rfl, rfl, .inl rfl⟩
  | connect call =>
      simp only [step, connect] at stepped
      split at stepped <;> cases stepped
      exact .call ..
  | fail call =>
      simp only [step, failCall] at stepped
      split at stepped <;> cases stepped
      exact .call ..
  | note call landing =>
      simp only [step, noteLedger] at stepped
      split at stepped <;> cases stepped
      exact .settledCall ..
  | insert call =>
      simp only [step, insertJob] at stepped
      split at stepped <;> cases stepped
      exact (Aside.written _).trans (.call ..) rfl
  | enqueued call =>
      simp only [step, returnCall] at stepped
      split at stepped <;> cases stepped
      exact .call ..
  | ambiguous call landing =>
      simp only [step, raiseAmbiguous] at stepped
      split at stepped <;> cases stepped
      exact .settledCall ..
  | cancel call landing =>
      simp only [step, cancelCall] at stepped
      split at stepped
      · split at stepped <;> cases stepped
        exact .settledCall ..
      · cases stepped
  | die call landing =>
      simp only [step, dieCall] at stepped
      split at stepped <;> cases stepped
      exact .settledCall ..
  | recover =>
      simp only [step, recover] at stepped
      split at stepped <;> cases stepped
      exact ⟨rfl, rfl, rfl, rfl, .inl rfl⟩
  | lose statement =>
      simp only [step, lose] at stepped
      split at stepped <;> cases stepped
      exact ⟨rfl, rfl, rfl, rfl, .inl rfl⟩

theorem Recorded.aside (recorded : Recorded state) (aside : Aside state next) : Recorded next where
  reporting := by
    rw [aside.attempts, aside.file]
    exact recorded.reporting
  sent := by
    rw [aside.sent, aside.file]
    exact recorded.sent
  ended := by
    intro ended
    rw [aside.file]
    rcases aside.status with same | ⟨-, other⟩
    · exact recorded.ended (same.symm.trans ended)
    · exact absurd ended other
  retired := by
    intro retired
    have quarantined := recorded.retired (aside.retired.symm.trans retired)
    rcases aside.status with same | ⟨free, -⟩
    · exact same.trans quarantined
    · cases free _ quarantined

/-! ## The agent -/

theorem Recorded.attempted (recorded : Recorded state) {attempt : AttemptId} {stage : Attempt}
    (reporting : stage = .reporting .quarantined → state.file = .quarantine) :
    Recorded (setAttempt state attempt stage) :=
  { recorded with
    reporting := by
      intro other reports
      by_cases same : other = attempt
      · subst same
        exact reporting ((Function.update_self ..).symm.trans reports)
      · exact recorded.reporting other ((Function.update_of_ne same ..).symm.trans reports) }

theorem Recorded.moved (recorded : Recorded state) : Recorded { state with file := .quarantine } :=
  { recorded with
    reporting := fun _ _ => rfl
    sent := fun _ => rfl
    ended := fun _ => rfl }

theorem Recorded.quarantined (recorded : Recorded state) {attempt : AttemptId}
    (stepped : quarantineFile state attempt = some next) : Recorded next := by
  unfold quarantineFile at stepped
  split at stepped
  next approval runs stands =>
    cases stepped
    exact recorded.moved.attempted fun _ => rfl
  next approval runs stands =>
    cases stepped
    exact recorded.attempted fun _ => stands
  · cases stepped

theorem Recorded.reported (recorded : Recorded state) {attempt : AttemptId}
    (stepped : report state attempt = some next) : Recorded next := by
  unfold report at stepped
  split at stepped
  next outcome reports =>
    cases stepped
    exact
      { recorded with
        sent := by
          intro member
          rcases List.mem_cons.mp member with same | member
          · exact recorded.reporting attempt (same ▸ reports)
          · exact recorded.sent member }
  · cases stepped

theorem Recorded.disturbed (recorded : Recorded state) (stepped : disturb state = some next) : Recorded next := by
  unfold disturb at stepped
  split at stepped
  case isFalse => cases stepped
  next source =>
    cases stepped
    have unmoved : state.file ≠ .quarantine := by
      rw [source]
      nofun
    exact
      { recorded with
        reporting := fun attempt reports => absurd (recorded.reporting attempt reports) unmoved
        sent := fun member => absurd (recorded.sent member) unmoved
        ended := fun ended => absurd (recorded.ended ended) unmoved }

theorem Recorded.served (recorded : Recorded state) {outcome : Outcome}
    (stepped : recordQuarantineResult state outcome = some next) : Recorded next := by
  unfold recordQuarantineResult at stepped
  split at stepped
  case isFalse => cases stepped
  next sent =>
    split at stepped
    case isFalse =>
      cases stepped
      exact recorded
    next executing =>
      cases outcome with
      | quarantined =>
          cases stepped
          rw [transitionReview_executing executing rfl]
          exact
            { recorded with
              ended := fun _ => recorded.sent sent
              retired := fun _ => rfl }
      | failed =>
          cases stepped
          rw [transitionReview_executing executing rfl]
          exact
            { recorded with
              ended := nofun
              retired := fun retired => absurd ((recorded.retired retired).symm.trans executing) nofun }

theorem step_recorded {action : Action} (recorded : Recorded state) (stepped : step state action = some next) :
    Recorded next := by
  by_cases aside : action.aside = true
  · exact recorded.aside (step_aside aside stepped)
  · cases action with
    | begin attempt approval =>
        simp only [step, beginAttempt] at stepped
        split at stepped <;> cases stepped
        exact recorded.attempted nofun
    | quarantineFile => exact recorded.quarantined stepped
    | refuse attempt =>
        simp only [step, refuseFile] at stepped
        split at stepped <;> cases stepped
        exact recorded.attempted nofun
    | report => exact recorded.reported stepped
    | finish =>
        cases stepped
        exact recorded.attempted nofun
    | disturb => exact recorded.disturbed stepped
    | serve => exact recorded.served stepped
    | _ => exact absurd rfl aside

theorem run_recorded {actions : List Action} (ran : Runs.run step .initial actions = some state) : Recorded state :=
  Runs.run_invariant (fun _ _ _ recorded stepped => step_recorded recorded stepped) actions Recorded.initial ran

/-! ## Terminal rows -/

theorem step_terminal {action : Action} {status : JunkReviewStatus} (stands : state.status = some status)
    (terminal : status.terminal = true) (stepped : step state action = some next) : next.status = some status := by
  by_cases aside : action.aside = true
  · rcases (step_aside aside stepped).status with same | ⟨free, -⟩
    · exact same.trans stands
    · exact absurd ((free status stands).symm.trans terminal) nofun
  · have settled : state.status ≠ some .executing := by
      rw [stands]
      rintro ⟨⟩
      cases terminal
    cases action with
    | begin attempt approval =>
        simp only [step, beginAttempt] at stepped
        split at stepped <;> cases stepped
        exact stands
    | quarantineFile attempt =>
        simp only [step, quarantineFile] at stepped
        split at stepped <;> cases stepped <;> exact stands
    | refuse attempt =>
        simp only [step, refuseFile] at stepped
        split at stepped <;> cases stepped
        exact stands
    | report attempt =>
        simp only [step, report] at stepped
        split at stepped <;> cases stepped
        exact stands
    | finish =>
        cases stepped
        exact stands
    | disturb =>
        simp only [step, disturb] at stepped
        split at stepped <;> cases stepped
        exact stands
    | serve outcome =>
        simp only [step, recordQuarantineResult, if_neg settled] at stepped
        split at stepped <;> cases stepped
        exact stands
    | _ => exact absurd rfl aside

end Steps

end Phaze.Quarantine
