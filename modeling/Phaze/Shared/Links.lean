import Mathlib.Data.List.Chain
import Mathlib.Data.List.Nodup
import Mathlib.Logic.Relation
import Mathlib.Order.WellFounded

/-!
# Links that end

A relation `link a b` is read as "`a` points at `b`". `Ends link` says that no
walk along the links goes on for ever. The two rules below keep it when links
are dropped and when new links are pointed at a node that points nowhere.
-/

set_option autoImplicit false

namespace Phaze.Shared

variable {A : Type} {link other : A → A → Prop}

def Ends (link : A → A → Prop) : Prop :=
  WellFounded fun next current => link current next

theorem Ends.mono (ends : Ends link) (fewer : ∀ a b, other a b → link a b) : Ends other :=
  Subrelation.wf (fun {next current} step => fewer current next step) ends

theorem Ends.redirect (ends : Ends link) (target : A) (final : ∀ b, ¬ other target b)
    (step : ∀ a b, other a b → link a b ∨ b = target) : Ends other := by
  have stops : Acc (fun next current => other current next) target :=
    ⟨_, fun b pointed => absurd pointed (final b)⟩
  constructor
  intro a
  -- Induction along the old links: a new link leads to the target, which stops.
  induction a using ends.induction with
  | h a ih =>
    constructor
    intro b pointed
    rcases step a b pointed with old | rfl
    · exact ih b old
    · exact stops

theorem Ends.nodup (ends : Ends link) (path : List A) (chain : path.IsChain link) :
    path.Nodup := by
  have reach : path.Pairwise (Relation.TransGen link) :=
    List.isChain_iff_pairwise.mp (chain.imp fun _ _ pointed => .single pointed)
  have noLoop : WellFounded (Relation.TransGen fun next current => link current next) :=
    WellFounded.transGen ends
  refine reach.imp fun {a b} walk same => ?_
  subst same
  exact noLoop.irrefl.irrefl a (Relation.transGen_swap.mpr walk)

-- Following the links from `a` comes to a last node, and a property that links
-- hand on holds there.
theorem Ends.path (ends : Ends link) (P : A → Prop) (closed : ∀ a b, link a b → P a → P b)
    (a : A) (start : P a) :
    ∃ (path : List A) (last : A), (a :: path).IsChain link ∧ (a :: path).getLast? = some last ∧
      P last ∧ ∀ b, ¬ link last b := by
  induction a using ends.induction with
  | h a ih =>
    by_cases more : ∃ b, link a b
    · obtain ⟨b, pointed⟩ := more
      obtain ⟨path, last, chain, isLast, kept, final⟩ := ih b pointed (closed a b pointed start)
      refine ⟨b :: path, last, List.isChain_cons_cons.mpr ⟨pointed, chain⟩, ?_, kept, final⟩
      rw [List.getLast?_cons_cons]
      exact isLast
    · exact ⟨[], a, List.isChain_singleton a, rfl, start, fun b pointed => more ⟨b, pointed⟩⟩

end Phaze.Shared
