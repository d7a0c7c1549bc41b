import Mathlib.Tactic

/-!
Owns the runs of a deterministic machine: the states that a number of steps leads
to, the rule that an invariant of the step holds in all of them, and the rule that two
machines in step reach related states.
-/

namespace DeltaUpdate.Library

variable {State : Type} {step : State → State}

/-- Some number of steps leads from the first state to the second. -/
def Reaches (step : State → State) (start state : State) : Prop :=
  ∃ count, step^[count] start = state

theorem Reaches.refl (start : State) : Reaches step start start := ⟨0, rfl⟩

theorem Reaches.trans {first second third : State} (left : Reaches step first second)
    (right : Reaches step second third) : Reaches step first third := by
  obtain ⟨before, rfl⟩ := left
  obtain ⟨after, rfl⟩ := right
  exact ⟨after + before, Function.iterate_add_apply step after before first⟩

theorem Reaches.single (start : State) : Reaches step start (step start) := ⟨1, rfl⟩

/-- A run goes on by one step. -/
theorem Reaches.next {start state : State} (reached : Reaches step start state) :
    Reaches step start (step state) :=
  reached.trans (Reaches.single state)

/-- A run may begin with one step. -/
theorem Reaches.head {start next state : State} (moves : step start = next)
    (reached : Reaches step next state) : Reaches step start state :=
  Reaches.trans ⟨1, moves⟩ reached

/-- A state that is its own successor is reached from every state before it. -/
theorem Reaches.last {start state final : State} (reached : Reaches step start state)
    (ends : Reaches step start final) (fixed : step final = final) : Reaches step state final := by
  obtain ⟨before, rfl⟩ := reached
  obtain ⟨total, rfl⟩ := ends
  refine ⟨total, ?_⟩
  rw [← Function.iterate_add_apply, Nat.add_comm, Function.iterate_add_apply]
  exact Function.iterate_fixed fixed before

/-- What holds at the start and is kept by every step from a state reached holds in
every state reached. -/
theorem Reaches.invariant_of (Invariant : State → Prop) {start state : State}
    (kept : ∀ state, Reaches step start state → Invariant state → Invariant (step state))
    (reached : Reaches step start state) (initial : Invariant start) : Invariant state := by
  obtain ⟨count, rfl⟩ := reached
  induction count with
  | zero => exact initial
  | succ count inductionHypothesis =>
      rw [Function.iterate_succ_apply']
      exact kept _ ⟨count, rfl⟩ inductionHypothesis

/-- What holds at the start and is kept by every step holds in every state reached. -/
theorem Reaches.invariant (Invariant : State → Prop)
    (kept : ∀ state, Invariant state → Invariant (step state)) {start state : State}
    (reached : Reaches step start state) (initial : Invariant start) : Invariant state :=
  reached.invariant_of Invariant (fun state _ => kept state) initial

/-- A machine comes to rest in one state only. -/
theorem Reaches.final_unique {start first second : State} (reached : Reaches step start first)
    (fixed : step first = first) (again : Reaches step start second)
    (still : step second = second) : first = second := by
  obtain ⟨count, rfl⟩ := reached.last again still
  exact (Function.iterate_fixed fixed count).symm

/-- Two machines whose steps keep a relation reach related states. -/
theorem Reaches.related {Other : Type} {otherStep : Other → Other}
    (Related : State → Other → Prop) {start state : State} {otherStart : Other}
    (kept : ∀ state other, Reaches step start state → Related state other →
      Related (step state) (otherStep other))
    (reached : Reaches step start state) (initial : Related start otherStart) :
    ∃ other, Reaches otherStep otherStart other ∧ Related state other :=
  reached.invariant_of (fun state => ∃ other, Reaches otherStep otherStart other ∧
      Related state other)
    (fun state before ⟨other, otherBefore, related⟩ =>
      ⟨otherStep other, otherBefore.next, kept state other before related⟩)
    ⟨otherStart, Reaches.refl otherStart, initial⟩

end DeltaUpdate.Library
