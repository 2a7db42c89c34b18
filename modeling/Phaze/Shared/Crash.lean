import Mathlib.Logic.Relation

set_option autoImplicit false

/-!
# Programs that can be stopped after any step

A program records every state it passes through, so that a crash is the choice of one of
them. Triples bound those states as well as the final one.
-/

namespace Phaze.Shared

universe u v w

/-- One uninterrupted run: the states after each step, the last state and the outcome. -/
structure Attempt (σ : Type u) (ε : Type v) (α : Type w) where
  visited : List σ
  final : σ
  outcome : Except ε α

def Prog (σ : Type u) (ε : Type v) (α : Type w) := σ → Attempt σ ε α

namespace Prog

variable {σ : Type u} {ε : Type v} {α β : Type w}

def ret (value : α) : Prog σ ε α := fun state => ⟨[], state, .ok value⟩

def raise (error : ε) : Prog σ ε α := fun state => ⟨[], state, .error error⟩

def andThen (program : Prog σ ε α) (next : α → Prog σ ε β) : Prog σ ε β := fun state =>
  let first := program state
  match first.outcome with
  | .error error => ⟨first.visited, first.final, .error error⟩
  | .ok value =>
      let second := next value first.final
      ⟨first.visited ++ second.visited, second.final, second.outcome⟩

instance : Monad (Prog σ ε) where
  pure := ret
  bind := andThen

def read (observe : σ → Except ε α) : Prog σ ε α := fun state => ⟨[], state, observe state⟩

def step (effect : σ → Except ε (α × σ)) : Prog σ ε α := fun state =>
  match effect state with
  | .error error => ⟨[], state, .error error⟩
  | .ok (value, next) => ⟨[next], next, .ok value⟩

-- `try: program finally: cleanup`. An error of the cleanup replaces the program's outcome.
def protect (program : Prog σ ε α) (cleanup : Prog σ ε Unit) : Prog σ ε α := fun state =>
  let first := program state
  let second := cleanup first.final
  ⟨first.visited ++ second.visited, second.final,
    match second.outcome with
    | .error error => .error error
    | .ok _ => first.outcome⟩

def recover (program : Prog σ ε α) (handler : ε → Prog σ ε α) : Prog σ ε α := fun state =>
  let first := program state
  match first.outcome with
  | .ok value => ⟨first.visited, first.final, .ok value⟩
  | .error error =>
      let second := handler error first.final
      ⟨first.visited ++ second.visited, second.final, second.outcome⟩

-- The states in which a run can be found stopped, its end included.
def Stops (program : Prog σ ε α) (before after : σ) : Prop :=
  after = before ∨ after ∈ (program before).visited

def Returns (program : Prog σ ε α) (before : σ) (value : α) (after : σ) : Prop :=
  (program before).outcome = .ok value ∧ (program before).final = after

end Prog

/-- From `pre`, every state passed through satisfies `always`, a returned value and the state
it is returned in satisfy `post`, and a raised error leaves a state satisfying `fail`. -/
def Triple {σ : Type u} {ε : Type v} {α : Type w} (always : σ → Prop) (pre : σ → Prop)
    (program : Prog σ ε α) (post : α → σ → Prop) (fail : σ → Prop) : Prop :=
  ∀ state, pre state →
    (∀ seen ∈ (program state).visited, always seen) ∧
      match (program state).outcome with
      | .ok value => post value (program state).final
      | .error _ => fail (program state).final

namespace Triple

variable {σ : Type u} {ε : Type v} {α β : Type w} {always pre fail : σ → Prop}

theorem ret {value : α} {post : α → σ → Prop} (holds : ∀ state, pre state → post value state) :
    Triple (ε := ε) always pre (Prog.ret value) post fail := by
  intro state start
  exact ⟨by simp [Prog.ret], holds state start⟩

theorem raise {error : ε} {post : α → σ → Prop} (holds : ∀ state, pre state → fail state) :
    Triple always pre (Prog.raise error) post fail := by
  intro state start
  exact ⟨by simp [Prog.raise], holds state start⟩

theorem read {observe : σ → Except ε α} {post : α → σ → Prop}
    (value : ∀ state result, pre state → observe state = .ok result → post result state)
    (error : ∀ state, pre state → fail state) :
    Triple always pre (Prog.read observe) post fail := by
  intro state start
  refine ⟨by simp [Prog.read], ?_⟩
  simp only [Prog.read]
  cases seen : observe state with
  | ok result => exact value state result start seen
  | error => exact error state start

theorem step {effect : σ → Except ε (α × σ)} {post : α → σ → Prop}
    (value : ∀ state result next, pre state → effect state = .ok (result, next) →
      always next ∧ post result next)
    (error : ∀ state, pre state → fail state) :
    Triple always pre (Prog.step effect) post fail := by
  intro state start
  simp only [Prog.step]
  cases result : effect state with
  | ok pair =>
      have facts := value state pair.1 pair.2 start result
      exact ⟨by simpa using facts.1, facts.2⟩
  | error => exact ⟨by simp, error state start⟩

theorem bind {program : Prog σ ε α} {next : α → Prog σ ε β} {post : β → σ → Prop}
    (middle : α → σ → Prop) (first : Triple always pre program middle fail)
    (second : ∀ value, Triple always (middle value) (next value) post fail) :
    Triple always pre (program >>= next) post fail := by
  intro state start
  have left := first state start
  change (∀ seen ∈ (Prog.andThen program next state).visited, always seen) ∧
    match (Prog.andThen program next state).outcome with
    | .ok value => post value (Prog.andThen program next state).final
    | .error _ => fail (Prog.andThen program next state).final
  simp only [Prog.andThen]
  cases result : (program state).outcome with
  | error error => simpa [result] using left
  | ok value =>
      rw [result] at left
      have right := second value (program state).final left.2
      refine ⟨?_, right.2⟩
      intro seen member
      rcases List.mem_append.mp member with earlier | later
      · exact left.1 seen earlier
      · exact right.1 seen later

theorem weaken {program : Prog σ ε α} {pre' fail' : σ → Prop} {post post' : α → σ → Prop}
    (triple : Triple always pre program post fail) (start : ∀ state, pre' state → pre state)
    (value : ∀ result state, post result state → post' result state)
    (error : ∀ state, fail state → fail' state) :
    Triple always pre' program post' fail' := by
  intro state given
  have facts := triple state (start state given)
  refine ⟨facts.1, ?_⟩
  cases result : (program state).outcome with
  | ok result => rw [result] at facts; exact value _ _ facts.2
  | error => rw [result] at facts; exact error _ facts.2

theorem mono {program : Prog σ ε α} {post : α → σ → Prop} {always' fail' : σ → Prop}
    (triple : Triple always pre program post fail) (seen : ∀ state, always state → always' state)
    (error : ∀ state, fail state → fail' state) : Triple always' pre program post fail' := by
  intro state given
  have facts := triple.weaken (fun _ start => start) (fun _ _ value => value) error state given
  exact ⟨fun passed member => seen passed (facts.1 passed member), facts.2⟩

theorem ite {condition : Prop} [Decidable condition] {yes no : Prog σ ε α}
    {post : α → σ → Prop} (left : condition → Triple always pre yes post fail)
    (right : ¬ condition → Triple always pre no post fail) :
    Triple always pre (if condition then yes else no) post fail := by
  split
  · exact left ‹_›
  · exact right ‹_›

theorem protect {program : Prog σ ε α} {cleanup : Prog σ ε Unit} {post : α → σ → Prop}
    (middle : α → σ → Prop) (raised : σ → Prop)
    (first : Triple always pre program middle raised)
    (after : ∀ value, Triple always (middle value) cleanup (fun _ => post value) fail)
    (undo : Triple always raised cleanup (fun _ => fail) fail) :
    Triple always pre (Prog.protect program cleanup) post fail := by
  intro state start
  have left := first state start
  simp only [Prog.protect]
  cases result : (program state).outcome with
  | ok value =>
      rw [result] at left
      have right := after value _ left.2
      refine ⟨?_, ?_⟩
      · intro seen member
        exact (List.mem_append.mp member).elim (left.1 seen) (right.1 seen)
      · cases ended : (cleanup (program state).final).outcome <;> rw [ended] at right <;> exact right.2
  | error error =>
      rw [result] at left
      have right := undo _ left.2
      refine ⟨?_, ?_⟩
      · intro seen member
        exact (List.mem_append.mp member).elim (left.1 seen) (right.1 seen)
      · cases ended : (cleanup (program state).final).outcome <;> rw [ended] at right <;> exact right.2

theorem recover {program : Prog σ ε α} {handler : ε → Prog σ ε α} {post : α → σ → Prop}
    (raised : σ → Prop) (first : Triple always pre program post raised)
    (handled : ∀ error, Triple always raised (handler error) post fail) :
    Triple always pre (Prog.recover program handler) post fail := by
  intro state start
  have left := first state start
  simp only [Prog.recover]
  cases result : (program state).outcome with
  | ok value => simpa [result] using left
  | error error =>
      rw [result] at left
      have right := handled error _ left.2
      refine ⟨?_, right.2⟩
      intro seen member
      exact (List.mem_append.mp member).elim (left.1 seen) (right.1 seen)

theorem pointwise {program : Prog σ ε α} {post : α → σ → Prop}
    (each : ∀ state, pre state → Triple always (· = state) program post fail) :
    Triple always pre program post fail := by
  intro state start
  exact each state start state rfl

theorem bind_read {observe : σ → Except ε α} {next : α → Prog σ ε β} {post : β → σ → Prop}
    {state : σ} (error : fail state)
    (value : ∀ result, observe state = .ok result → Triple always (· = state) (next result) post fail) :
    Triple always (· = state) (Prog.read observe >>= next) post fail := by
  refine bind (fun result after => observe state = .ok result ∧ after = state) ?_ ?_
  · refine read ?_ ?_
    · rintro after result rfl seen
      exact ⟨seen, rfl⟩
    · rintro after rfl
      exact error
  · rintro result after ⟨seen, rfl⟩
    exact value result seen after rfl

theorem pull {program : Prog σ ε α} {post : α → σ → Prop} {fact : Prop}
    (given : fact → Triple always pre program post fail) :
    Triple always (fun state => fact ∧ pre state) program post fail := by
  intro state start
  exact given start.1 state start.2

theorem stops {program : Prog σ ε α} {post : α → σ → Prop} {before after : σ}
    (triple : Triple always pre program post fail) (start : pre before) (kept : always before)
    (stopped : program.Stops before after) : always after := by
  rcases stopped with same | seen
  · exact same ▸ kept
  · exact (triple before start).1 after seen

theorem returns {program : Prog σ ε α} {post : α → σ → Prop} {before after : σ} {value : α}
    (triple : Triple always pre program post fail) (start : pre before)
    (ended : program.Returns before value after) : post value after := by
  have facts := (triple before start).2
  rw [ended.1] at facts
  exact ended.2 ▸ facts

end Triple

end Phaze.Shared
