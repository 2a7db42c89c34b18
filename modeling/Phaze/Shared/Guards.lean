import Mathlib.Data.List.Forall2

set_option autoImplicit false

/-!
# Calls that raise

The `Except` form of a body whose checks raise, peeled one statement at a time.
-/

namespace Phaze.Guards

variable {Raised Value Result : Type}

-- `if not holds: raise`
def require (holds : Bool) (raised : Raised) : Except Raised Unit :=
  if holds then .ok () else .error raised

@[simp]
theorem require_ok {holds : Bool} {raised : Raised} {done : Unit} : require holds raised = .ok done ↔ holds = true := by
  cases holds <;> simp [require]

theorem bind_ok {first : Except Raised Value} {rest : Value → Except Raised Result} {result : Result} :
    first >>= rest = .ok result ↔ ∃ value, first = .ok value ∧ rest value = .ok result := by
  cases first <;> simp [bind, Except.bind]

theorem bind_error {first : Except Raised Value} {rest : Value → Except Raised Result} {raised : Raised} :
    first >>= rest = .error raised ↔ first = .error raised ∨ ∃ value, first = .ok value ∧ rest value = .error raised := by
  cases first <;> simp [bind, Except.bind]

theorem bind_require {holds : Bool} {raised : Raised} {rest : Unit → Except Raised Result} {result : Result} :
    require holds raised >>= rest = .ok result ↔ holds = true ∧ rest () = .ok result := by
  cases holds <;> simp [require, bind, Except.bind]

/-! ## A call for each item -/

section Each

variable {Item : Type} {call : Item → Except Raised Result} {items : List Item}

theorem mapM_ok {results : List Result} :
    items.mapM call = .ok results ↔ List.Forall₂ (fun item result => call item = .ok result) items results := by
  induction items generalizing results with
  | nil => cases results <;> simp [pure, Except.pure]
  | cons item rest ih =>
    simp only [List.mapM_cons, bind_ok, ih]
    constructor
    next =>
      rintro ⟨result, first, others, later, same⟩
      cases same
      exact .cons first later
    next =>
      intro each
      cases each with
      | cons first later => exact ⟨_, first, _, later, rfl⟩

theorem mapM_error {raised : Raised} (failed : items.mapM call = .error raised) :
    ∃ item ∈ items, call item = .error raised := by
  induction items with
  | nil => cases failed
  | cons item rest ih =>
    simp only [List.mapM_cons, bind_error] at failed
    obtain first | ⟨_, -, later | ⟨_, -, impossible⟩⟩ := failed
    · exact ⟨item, List.mem_cons_self, first⟩
    · obtain ⟨other, member, raises⟩ := ih later
      exact ⟨other, List.mem_cons_of_mem _ member, raises⟩
    · cases impossible

theorem mapM_returns :
    (∃ results, items.mapM call = .ok results) ↔ ∀ item ∈ items, ∃ result, call item = .ok result := by
  constructor
  next =>
    rintro ⟨results, returned⟩
    induction mapM_ok.mp returned with
    | nil => simp
    | cons first _ ih =>
      intro item member
      rcases List.mem_cons.mp member with rfl | later
      · exact ⟨_, first⟩
      · exact ih (mapM_ok.mpr ‹_›) item later
  next =>
    intro each
    cases outcome : items.mapM call with
    | ok results => exact ⟨results, rfl⟩
    | error raised =>
      obtain ⟨item, member, failed⟩ := mapM_error outcome
      obtain ⟨result, returned⟩ := each item member
      rw [failed] at returned
      cases returned

end Each

end Phaze.Guards
