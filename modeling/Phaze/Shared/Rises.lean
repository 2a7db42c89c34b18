import Mathlib.Data.List.Sublists

set_option autoImplicit false

/-!
# Rises of a sequence of marks

How often a sequence goes from a mark that holds straight to one that does not, and which subsequences tell.
-/

namespace Phaze.Rises

def risesFrom : Bool → List Bool → Nat
  | _, [] => 0
  | previous, mark :: rest => (if previous && !mark then 1 else 0) + risesFrom mark rest

def rises (marks : List Bool) : Nat := risesFrom false marks

theorem rises_cons_cons (mark next : Bool) (rest : List Bool) :
    rises (mark :: next :: rest) = (if mark && !next then 1 else 0) + rises (next :: rest) := by
  simp [rises, risesFrom]

-- `true, false, true, false, …`
def alternating (times : Nat) : List Bool := (List.replicate times [true, false]).flatten

theorem alternating_succ (times : Nat) : alternating (times + 1) = true :: false :: alternating times := rfl

theorem alternating_sublist_false (times : Nat) (marks : List Bool) :
    (alternating times).Sublist (false :: marks) ↔ (alternating times).Sublist marks := by
  cases times with
  | zero => simp [alternating]
  | succ times => simp [alternating_succ, List.cons_sublist_cons']

theorem alternating_sublist_true (times : Nat) (marks : List Bool) :
    (alternating (times + 1)).Sublist (true :: marks) ↔ (false :: alternating times).Sublist marks := by
  rw [alternating_succ, List.cons_sublist_cons]

theorem le_risesFrom_iff (times : Nat) (previous : Bool) (marks : List Bool) :
    times ≤ risesFrom previous marks ↔ (alternating times).Sublist (previous :: marks) := by
  induction marks generalizing times previous with
  | nil => cases times <;> simp [risesFrom, alternating, List.replicate_succ]
  | cons mark rest ih =>
    cases times with
    | zero => simp [alternating]
    | succ times =>
      cases previous with
      | false => simp only [risesFrom, Bool.false_and, Bool.false_eq_true, if_false, Nat.zero_add, ih, alternating_sublist_false]
      | true =>
        rw [alternating_sublist_true]
        cases mark with
        | true =>
          simp only [risesFrom, Bool.not_true, Bool.and_false, Bool.false_eq_true, if_false, Nat.zero_add, ih]
          rw [alternating_sublist_true, List.cons_sublist_cons']
          simp
        | false =>
          have fewer : times + 1 ≤ risesFrom true (false :: rest) ↔ times ≤ risesFrom false rest := by
            simp only [risesFrom, Bool.not_false, Bool.and_self, if_true]
            omega
          rw [fewer, ih, alternating_sublist_false, List.cons_sublist_cons]

/-- A sequence rises at least so often as it has the marks of as many rises, however far apart. -/
theorem le_rises_iff (times : Nat) (marks : List Bool) :
    times ≤ rises marks ↔ (alternating times).Sublist marks := by
  rw [rises, le_risesFrom_iff, alternating_sublist_false]

end Phaze.Rises
