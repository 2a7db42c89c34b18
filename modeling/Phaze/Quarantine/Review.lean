import Mathlib

set_option autoImplicit false

/-!
# The junk review vocabulary

`enums/junk_review.py`.
-/

namespace Phaze.Quarantine

inductive JunkReviewStatus where
  | pending
  | approved
  | rejected
  | executing
  | quarantined
  | failed
deriving DecidableEq

-- `TERMINAL_STATUSES`
def JunkReviewStatus.terminal : JunkReviewStatus → Bool
  | .quarantined | .failed => true
  | .pending | .approved | .rejected | .executing => false

-- `TRANSITIONS`
def JunkReviewStatus.transitions : JunkReviewStatus → List JunkReviewStatus
  | .pending => [.approved, .rejected]
  | .approved => [.pending, .rejected, .executing]
  | .rejected => [.pending]
  | .executing => [.quarantined, .failed]
  | .quarantined | .failed => []

-- `status in allowed_from(target)`
def allowedFrom (target status : JunkReviewStatus) : Bool :=
  target ∈ status.transitions

-- The targets `decide_content_group` takes.
def JunkReviewStatus.decision : JunkReviewStatus → Bool
  | .approved | .rejected | .pending => true
  | .executing | .quarantined | .failed => false

-- `JunkQuarantineResultPayload.status`
inductive Outcome where
  | quarantined
  | failed
deriving DecidableEq

/-- The row was handed to the agent, or is done. -/
def JunkReviewStatus.handed : JunkReviewStatus → Bool
  | .executing | .quarantined | .failed => true
  | .pending | .approved | .rejected => false

variable {target status : JunkReviewStatus}

theorem allowedFrom_terminal (terminal : status.terminal = true) : allowedFrom target status = false := by
  cases status <;> simp_all [JunkReviewStatus.terminal, allowedFrom, JunkReviewStatus.transitions]

theorem handed_of_terminal (terminal : status.terminal = true) : status.handed = true := by
  cases status <;> simp_all [JunkReviewStatus.terminal, JunkReviewStatus.handed]

theorem executing_or_terminal (handed : status.handed = true) : status = .executing ∨ status.terminal = true := by
  cases status <;> simp_all [JunkReviewStatus.terminal, JunkReviewStatus.handed]

theorem unhanded_of_decision (decision : target.decision = true) (allowed : allowedFrom target status = true) :
    status.handed = false := by
  cases target <;> cases status <;>
    simp_all [JunkReviewStatus.decision, allowedFrom, JunkReviewStatus.transitions, JunkReviewStatus.handed]

theorem approved_of_claim (allowed : allowedFrom .executing status = true) : status = .approved := by
  cases status <;> simp_all [allowedFrom, JunkReviewStatus.transitions]

end Phaze.Quarantine
