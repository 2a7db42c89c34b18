import Phaze.Quarantine.Reports

set_option autoImplicit false

/-!
# The quarantine follows its approval

A row that goes back to the operator has no job, and none appears before it is claimed again.
-/

namespace Phaze.Quarantine

def Action.claims : Action → Bool
  | .claim _ => true
  | _ => false

/-- No job exists, and none can appear of a call that has claimed the row. -/
def Jobless (state : State) : Prop :=
  ∀ actions final, (∀ action ∈ actions, action.claims = false) →
    Runs.run step state actions = some final → final.jobs = []

structure Lawful (state : State) (action : Action) (next : State) : Prop where
  moved : state.file ≠ .quarantine → next.file = .quarantine →
    state.Handed ∧ ∃ attempt, action = .quarantineFile attempt ∧ state.attempts attempt = .running state.approvals
  released : state.status = some .executing → next.status = some .approved → Jobless next
  terminal : ∀ status, state.status = some status → status.terminal = true → next.status = some status
  retired : next.status = some .quarantined → next.retired = true → next.file = .quarantine

section Steps

variable {state next : State}

/-! ## Rows nobody holds -/

structure Resting (state : State) : Prop where
  clear : state.Clear
  free : ∀ call, (state.calls call).holding = none

theorem Resting.inside (resting : Resting state) (call : CallId) : (state.calls call).inside = false := by
  cases inside : (state.calls call).inside with
  | false => rfl
  | true => exact absurd (resting.free call) (holding_of_inside inside)

theorem Resting.stage (resting : Resting state) {call : CallId} {stage : Stage} (stands : state.calls call = stage) :
    stage.holding = none :=
  stands ▸ resting.free call

theorem step_resting {action : Action} (resting : Resting state) (unclaimed : action.claims = false)
    (stepped : step state action = some next) : Resting next := by
  cases action with
  | claim => cases unclaimed
  | decide target =>
      simp only [step, decideContentGroup] at stepped
      split at stepped
      · split at stepped
        · split at stepped <;> cases stepped <;> exact { resting with }
        · cases stepped
          exact resting
      · cases stepped
  | withdraw =>
      simp only [step, withdraw] at stepped
      split at stepped <;> cases stepped
      exact { resting with }
  | connect call | fail call | note call _ | insert call | enqueued call | release call =>
      simp only [step, connect, failCall, noteLedger, insertJob, returnCall, releaseUnsent] at stepped
      split at stepped
      next stands => cases resting.stage stands
      · cases stepped
  | ambiguous call landing =>
      simp only [step, raiseAmbiguous, resting.inside call] at stepped
      cases stepped
  | cancel call landing | die call landing =>
      simp only [step, cancelCall, dieCall, resting.free call] at stepped
      cases stepped
  | recover =>
      simp only [step, recover, resting.clear.2.1] at stepped
      cases stepped
  | land statement | lose statement =>
      simp only [step, land, lose, resting.clear.2.2, List.not_mem_nil, if_false] at stepped
      cases stepped
  | clear =>
      cases stepped
      exact { resting with clear := ⟨resting.clear.1, rfl, resting.clear.2.2⟩ }
  | begin attempt approval =>
      simp only [step, beginAttempt, resting.clear.1, List.not_mem_nil, and_false, if_false] at stepped
      cases stepped
  | quarantineFile attempt =>
      simp only [step, quarantineFile] at stepped
      split at stepped <;> cases stepped <;> exact { resting with }
  | refuse attempt | report attempt =>
      simp only [step, refuseFile, report] at stepped
      split at stepped <;> cases stepped
      exact { resting with }
  | finish =>
      cases stepped
      exact { resting with }
  | disturb =>
      simp only [step, disturb] at stepped
      split at stepped <;> cases stepped
      exact { resting with }
  | serve outcome =>
      simp only [step, recordQuarantineResult] at stepped
      split at stepped
      case isFalse => cases stepped
      next sent =>
        split at stepped
        case isFalse =>
          cases stepped
          exact resting
        next executing =>
          cases outcome <;> cases stepped <;> rw [transitionReview_executing executing rfl] <;>
            exact { resting with clear := ⟨resting.clear.1, rfl, resting.clear.2.2⟩ }

theorem Resting.jobless (resting : Resting state) : Jobless state := by
  intro actions final unclaimed ran
  have along : Runs.Along step (fun _ action => action.claims = false) state actions := Runs.along_of_forall unclaimed
  exact (Runs.run_keeps (fun _ _ _ rests admits stepped => step_resting rests admits stepped) actions along
    resting ran).clear.1

theorem Sound.resting (sound : Sound state) (approved : state.status = some .approved) : Resting state := by
  have unhanded : ¬ state.Handed := by
    rintro ⟨status, stands, handed⟩
    rw [approved] at stands
    cases stands
    cases handed
  exact ⟨sound.clear_of_unhanded unhanded, sound.idle_of_unhanded unhanded⟩

/-! ## The steps of a sound run -/

theorem cancel_status {call : CallId} {landing : Landing} (stepped : cancelCall state call landing = some next) :
    next.status = state.status := by
  unfold cancelCall at stepped
  split at stepped
  · split at stepped <;> cases stepped
    cases (state.calls call).statement with
    | none => rfl
    | some statement => cases landing <;> cases statement <;> rfl
  · cases stepped

theorem Sound.jobless_of_release (sound : Sound state) {action : Action} (stepped : step state action = some next)
    (executing : state.status = some .executing) (approved : next.status = some .approved) : Jobless next := by
  have admits : admitted state action := by
    cases action with
    | cancel =>
        rw [cancel_status stepped, executing] at approved
        cases approved
    | _ => trivial
  exact ((step_sound sound admits stepped).resting approved).jobless

theorem moved_by {action : Action} (stepped : step state action = some next) (before : state.file ≠ .quarantine)
    (after : next.file = .quarantine) :
    ∃ attempt approval, action = .quarantineFile attempt ∧ state.attempts attempt = .running approval := by
  by_cases aside : action.aside = true
  · exact absurd ((step_aside aside stepped).file.symm.trans after) before
  · cases action with
    | begin attempt approval =>
        simp only [step, beginAttempt] at stepped
        split at stepped <;> cases stepped
        exact absurd after before
    | quarantineFile attempt =>
        simp only [step, quarantineFile] at stepped
        split at stepped
        next approval runs _ => exact ⟨attempt, approval, rfl, runs⟩
        next stands => exact absurd stands before
        · cases stepped
    | refuse attempt =>
        simp only [step, refuseFile] at stepped
        split at stepped <;> cases stepped
        exact absurd after before
    | report attempt =>
        simp only [step, report] at stepped
        split at stepped <;> cases stepped
        exact absurd after before
    | finish =>
        cases stepped
        exact absurd after before
    | disturb =>
        simp only [step, disturb] at stepped
        split at stepped <;> cases stepped
        cases after
    | serve outcome =>
        simp only [step, recordQuarantineResult] at stepped
        split at stepped
        case isFalse => cases stepped
        next sent =>
          split at stepped
          case isFalse =>
            cases stepped
            exact absurd after before
          next executing =>
            cases outcome <;> cases stepped <;> rw [transitionReview_executing executing rfl] at after <;>
              exact absurd after before
    | _ => exact absurd rfl aside

theorem Sound.moves (sound : Sound state) {action : Action} (stepped : step state action = some next)
    (before : state.file ≠ .quarantine) (after : next.file = .quarantine) :
    state.Handed ∧ ∃ attempt, action = .quarantineFile attempt ∧ state.attempts attempt = .running state.approvals := by
  obtain ⟨attempt, approval, rfl, runs⟩ := moved_by stepped before after
  have job := sound.running attempt approval runs
  have current := sound.carried approval (.inl job)
  exact ⟨sound.handed_of_job (List.ne_nil_of_mem job), attempt, rfl, current ▸ runs⟩

end Steps

theorem quarantine_follows_its_approval {actions : List Action} {action : Action} {state next : State}
    (along : Runs.Along step admitted .initial actions) (ran : Runs.run step .initial actions = some state)
    (stepped : step state action = some next) : Lawful state action next := by
  have sound := run_sound along ran
  have recorded := step_recorded (run_recorded ran) stepped
  exact
    { moved := sound.moves stepped
      released := sound.jobless_of_release stepped
      terminal := fun status stands terminal => step_terminal stands terminal stepped
      retired := fun quarantined _ => recorded.ended quarantined }

-- A call that is cancelled before anything of its job exists is released, and the next call sends the row.
theorem released_row_is_sent : ∃ state next,
    Runs.run step .initial [.decide .approved, .claim 0, .connect 0, .cancel 0 .never, .release 0, .claim 1, .connect 1,
      .note 1 .now, .insert 1, .begin 0 1] = some state ∧
    step state (.quarantineFile 0) = some next ∧ state.file = .source ∧ next.file = .quarantine ∧
    Lawful state (.quarantineFile 0) next := by
  have along : Runs.Along step admitted .initial [.decide .approved, .claim 0, .connect 0, .cancel 0 .never, .release 0,
      .claim 1, .connect 1, .note 1 .now, .insert 1, .begin 0 1] := by decide
  exact ⟨_, _, rfl, rfl, rfl, rfl, quarantine_follows_its_approval along rfl rfl⟩

-- The job is in the queue when its call is cancelled in the NOTIFY: the row goes back, and is rejected.
theorem rejected_file_is_moved : ∃ state next,
    Runs.run step .initial [.decide .approved, .claim 0, .connect 0, .note 0 .now, .insert 0, .cancel 0 .never,
      .release 0, .decide .rejected, .begin 0 1] = some state ∧
    step state (.quarantineFile 0) = some next ∧ state.status = some .rejected ∧ state.file = .source ∧
    next.file = .quarantine ∧ ¬ Lawful state (.quarantineFile 0) next := by
  refine ⟨_, _, rfl, rfl, rfl, rfl, rfl, fun lawful => ?_⟩
  obtain ⟨⟨status, stands, handed⟩, -⟩ := lawful.moved nofun rfl
  cases stands
  cases handed

end Phaze.Quarantine
