import Mathlib.Tactic

/-!
Owns loops as iterations: an iteration goes on from a state or leaves with a result. A
loop that terminates is definable by recursion on its iterations, and what it leaves
with is reached after finitely many of them. What the iterations keep holds of the result,
and two loops whose iterations stay related leave with related results.
-/

namespace DeltaUpdate.Library

section

variable {State Result : Type} {iteration : State → State ⊕ Result}

/-- One state of a loop is followed by another. -/
def GoesOn (iteration : State → State ⊕ Result) (after before : State) : Prop :=
  iteration before = .inl after

/-- The loop leaves with a result after finitely many iterations. -/
inductive Leaves (iteration : State → State ⊕ Result) : State → Result → Prop
  | now {state : State} {result : Result} (leaves : iteration state = .inr result) :
      Leaves iteration state result
  | later {state next : State} {result : Result} (goes : iteration state = .inl next)
      (rest : Leaves iteration next result) : Leaves iteration state result

/-- A number that drops with every iteration bounds the iterations from any state. -/
theorem goesOn_wellFounded (measure : State → Nat)
    (drops : ∀ before after, iteration before = .inl after → measure after < measure before) :
    WellFounded (GoesOn iteration) :=
  Subrelation.wf (fun {after before} goes => drops before after goes)
    (InvImage.wf measure Nat.lt_wfRel.wf)

/-- The function computes the loop, and its iterations come to an end from every state. -/
structure Computes (iteration : State → State ⊕ Result) (loop : State → Result) : Prop where
  ends : WellFounded (GoesOn iteration)
  leaves : ∀ state, Leaves iteration state (loop state)

/-- A function that follows the iterations of a loop that ends computes it. -/
theorem computes_of_follows {loop : State → Result} (ends : WellFounded (GoesOn iteration))
    (follows : ∀ state, loop state = match iteration state with
      | .inl next => loop next
      | .inr result => result) : Computes iteration loop := by
  refine ⟨ends, fun state => ?_⟩
  induction state using ends.induction with
  | _ state inductionHypothesis =>
      rw [follows state]
      cases step : iteration state with
      | inl next => exact .later step (inductionHypothesis next step)
      | inr result => exact .now step

/-- What the iterations keep holds of what the loop leaves with. -/
theorem Computes.invariant {loop : State → Result} (computes : Computes iteration loop)
    (Invariant : State → Prop) (Final : Result → Prop)
    (goes : ∀ before after, iteration before = .inl after → Invariant before → Invariant after)
    (ends : ∀ state result, iteration state = .inr result → Invariant state → Final result)
    {state : State} (holds : Invariant state) : Final (loop state) := by
  have leaves := computes.leaves state
  generalize loop state = result at leaves
  induction leaves with
  | now leaves => exact ends _ _ leaves holds
  | later moves rest inductionHypothesis => exact inductionHypothesis (goes _ _ moves holds)

end

section

variable {Left Right LeftResult RightResult : Type} {left : Left → Left ⊕ LeftResult}
  {right : Right → Right ⊕ RightResult} {States : Left → Right → Prop}
  {Results : LeftResult → RightResult → Prop}

/-- Two loops whose iterations stay related leave with related results. -/
theorem Leaves.related
    (kept : ∀ state other, States state other →
      Sum.LiftRel States Results (left state) (right other))
    {state : Left} {result : LeftResult} (leaves : Leaves left state result) {other : Right}
    {otherResult : RightResult} (related : States state other)
    (otherLeaves : Leaves right other otherResult) : Results result otherResult := by
  induction leaves generalizing other with
  | now leaves =>
      have step := kept _ _ related
      rw [leaves] at step
      cases otherLeaves with
      | now ends =>
          rw [ends] at step
          exact Sum.liftRel_inr_inr.mp step
      | later goes =>
          rw [goes] at step
          exact absurd step Sum.not_liftRel_inr_inl
  | later goes rest inductionHypothesis =>
      have step := kept _ _ related
      rw [goes] at step
      cases otherLeaves with
      | now ends =>
          rw [ends] at step
          exact absurd step Sum.not_liftRel_inl_inr
      | later otherGoes otherRest =>
          rw [otherGoes] at step
          exact inductionHypothesis (Sum.liftRel_inl_inl.mp step) otherRest

/-- Two functions that compute loops with related iterations have related values. -/
theorem Computes.related {loop : Left → LeftResult} {otherLoop : Right → RightResult}
    (computes : Computes left loop) (otherComputes : Computes right otherLoop)
    (kept : ∀ state other, States state other →
      Sum.LiftRel States Results (left state) (right other))
    {state : Left} {other : Right} (related : States state other) :
    Results (loop state) (otherLoop other) :=
  (computes.leaves state).related kept related (otherComputes.leaves other)

end

end DeltaUpdate.Library
