import DeltaUpdate.App.MainLoop

/-!
Owns the calls of the main loop: the button is pressed before each of them. The flag stands
for one call, however often the button is pressed, and a call that has started uses it up.
-/

namespace DeltaUpdate.App

open DeltaUpdate.Delta
open DeltaUpdate.Detools

instance : DecidablePred Moment.StartsCall := fun moment => by
  unfold Moment.StartsCall
  split <;> infer_instance

/-- The number of calls that have started. -/
def callsIn (history : List Moment) : Nat := history.countP fun moment => moment.StartsCall

/-- The number of times the button has been pressed. -/
def pressesIn (history : List Moment) : Nat := history.count .pressed

/-- The calls that the presses so far may still lead to. -/
def callsToCome (state : MainState) : Nat :=
  match state.pc with
  | .calling _ pending _ _ => callsIn (pending.map .acted)
  | .clear => 0
  | .returned _ => 0
  | .rebooted => 0
  | _ => if state.btnFlag then 1 else 0

/-- Every call, started or to come, has a press of its own. -/
def PressesCover (state : MainState) : Prop :=
  callsIn state.history + callsToCome state ≤ pressesIn state.history

@[simp] theorem callsIn_append (first second : List Moment) :
    callsIn (first ++ second) = callsIn first + callsIn second :=
  List.countP_append

@[simp] theorem pressesIn_append (first second : List Moment) :
    pressesIn (first ++ second) = pressesIn first + pressesIn second :=
  List.count_append

/-- The events of a call are one start and no press. -/
theorem StartsOnce.callsIn {events : List Event} (once : StartsOnce events) :
    callsIn (events.map .acted) = 1 := by
  obtain ⟨event, rest, rfl, starts, others⟩ := once
  have none : App.callsIn (rest.map .acted) = 0 := by
    refine List.countP_eq_zero.mpr fun moment among => ?_
    obtain ⟨later, issued, rfl⟩ := List.mem_map.mp among
    simpa using others later issued
  rw [List.map_cons, App.callsIn, List.countP_cons_of_pos (by simpa using starts)]
  exact congrArg (· + 1) none

theorem PressesCover.interrupt {state : MainState} (cover : PressesCover state) :
    PressesCover (buttonPressed state) := by
  have more : callsToCome (buttonPressed state) ≤ callsToCome state + 1 := by
    unfold callsToCome buttonPressed
    simp only [if_true]
    split <;> omega
  have pressed : pressesIn [.pressed] = 1 := rfl
  have none : callsIn [.pressed] = 0 := rfl
  simp only [PressesCover, buttonPressed, callsIn_append, pressesIn_append, pressed,
    none] at cover more ⊢
  omega

theorem PressesCover.of_le {before after : MainState} (cover : PressesCover before)
    (history : after.history = before.history)
    (fewer : callsToCome after ≤ callsToCome before) : PressesCover after := by
  unfold PressesCover at cover ⊢
  rw [history]
  omega

/-- A step of `main` starts a call for the flag only. -/
theorem PressesCover.main {env : Env} {state : MainState} (cover : PressesCover state)
    (ledFails : Bool) (stack : ApplyPatch) :
    PressesCover (mainStep env ledFails stack state) := by
  unfold mainStep
  split
  next place => exact cover.of_le rfl (by simp [callsToCome])
  next place =>
    refine cover.of_le rfl ?_
    cases ledFails <;> simp [callsToCome, place]
  next place => exact cover.of_le rfl (by simp [callsToCome, place])
  next place =>
    split
    next raised =>
      refine cover.of_le rfl ?_
      simp only [callsToCome, place, if_pos raised]
      exact (callEvents_startsOnce env stack state.world).callsIn.le
    next => exact cover.of_le rfl (by simp [callsToCome, place])
  next issued event pending ending after place =>
    -- the event moves from the calls to come to the history
    have before : callsToCome state = callsIn [.acted event] + callsIn (pending.map .acted) := by
      simp only [callsToCome, place]
      exact callsIn_append [.acted event] _
    have none : pressesIn [.acted event] = 0 := rfl
    unfold PressesCover at cover ⊢
    rw [before] at cover
    simp only [callsToCome, callsIn_append, pressesIn_append, none]
    omega
  next place => exact cover.of_le rfl (by simp [callsToCome])
  next issued value after place =>
    split
    next => exact cover.of_le rfl (by simp [callsToCome])
    next => exact cover.of_le rfl (by simp [callsToCome])
  next place => exact cover.of_le rfl (by simp [callsToCome])
  next => exact cover
  next => exact cover

theorem pressesCover_reachable {env : Env} {world : World} {state : MainState}
    (reachable : Reachable env world state) : PressesCover state := by
  induction reachable with
  | refl => exact le_refl 0
  | tail _ step inductionHypothesis =>
      cases step with
      | main ledFails stack => exact inductionHypothesis.main ledFails stack
      | interrupt => exact inductionHypothesis.interrupt

/-- In every state the system can be in, and wherever the interrupts come, the button has
been pressed at least once for each call that has started. -/
theorem calls_le_presses {env : Env} {world : World} {state : MainState}
    (reachable : Reachable env world state) :
    callsIn state.history ≤ pressesIn state.history :=
  le_trans (Nat.le_add_right _ _) (pressesCover_reachable reachable)

/-- One call for two presses, the second while the first is answered. -/
theorem calls_le_presses_again :
    callsIn (plainStep^[2] pressedAgain).history ≤
      pressesIn (plainStep^[2] pressedAgain).history :=
  calls_le_presses pressedAgain_reachable

end DeltaUpdate.App
