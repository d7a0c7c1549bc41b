import Mathlib.Logic.Relation
import DeltaUpdate.Delta.Marker
import DeltaUpdate.Delta.Report

/-!
Owns the main loop and the button interrupt: the steps of `main` from the point where the
interrupt is attached, the handler that runs between any two of them, and the presses that
a call of `delta_check_and_apply` answers. The flag is cleared when the call has returned,
so a press that comes while the call runs is forgotten.
-/

namespace DeltaUpdate.App

open DeltaUpdate.Delta
open DeltaUpdate.Detools
open DeltaUpdate.Library

/-! ### The program -/

/-- The events that a call of `delta_check_and_apply` adds to the log. -/
def callEvents (env : Env) (stack : ApplyPatch) (world : World) : List Event :=
  (deltaCheckAndApply env stack world).2.log.drop world.log.length

/-- Where `main` stands. -/
inductive Pc where
  /-- In `config_devices`, behind `gpio_add_callback` and before `btn_flag = false`. -/
  | configuring
  /-- Before `gpio_pin_toggle_dt`. -/
  | toggle
  /-- In `k_msleep`. -/
  | sleep
  /-- Before the test of `btn_flag`. -/
  | test
  /-- In `delta_check_and_apply`, with the events it has issued, the events to come and
  what it will end with. -/
  | calling (issued pending : List Event) (ending : Ending) (after : World)
  /-- Before `btn_flag = false` in the loop. -/
  | clear
  /-- `main` has returned, with the text it has printed. -/
  | returned (printed : Option String)
  | rebooted

/-- `main` is in its loop. -/
def Pc.Looping : Pc → Prop
  | .configuring => False
  | .returned _ => False
  | .rebooted => False
  | _ => True

instance : DecidablePred Pc.Looping := fun pc => by
  unfold Pc.Looping
  split <;> infer_instance

/-- What happens in the order it happens: the button is pressed, or the program acts on the
device. -/
inductive Moment where
  | pressed
  | acted (event : Event)
deriving DecidableEq, Repr

/-- A call of `delta_check_and_apply` reads the patch header. -/
def Moment.StartsCall : Moment → Prop
  | .acted (.flash .deltaReadPatchHeader (.read _ _) _) => True
  | _ => False

/-- The state of the program. -/
structure MainState where
  pc : Pc
  btnFlag : Bool
  world : World
  history : List Moment

/-- The state in which the interrupt is attached. -/
def mainStart (world : World) : MainState := ⟨.configuring, false, world, []⟩

/-- A step of `main`. Whether the LED can be toggled and what lies on the stack is up to the
environment. -/
def mainStep (env : Env) (ledFails : Bool) (stack : ApplyPatch) (state : MainState) : MainState :=
  match state.pc with
  | .configuring => { state with pc := .toggle, btnFlag := false }
  | .toggle => { state with pc := if ledFails then .returned none else .sleep }
  | .sleep => { state with pc := .test }
  | .test =>
      if state.btnFlag then
        let called := deltaCheckAndApply env stack state.world
        { state with
          pc := .calling [] (callEvents env stack state.world) called.1 called.2 }
      else { state with pc := .toggle }
  | .calling issued (event :: pending) ending after =>
      { state with
        pc := .calling (issued ++ [event]) pending ending after
        history := state.history ++ [.acted event] }
  | .calling _ [] .rebooted after => { state with pc := .rebooted, world := after }
  | .calling _ [] (.returned value) after =>
      if value ≠ 0 then
        { state with pc := .returned (mainPrints (.returned value)), world := after }
      else { state with pc := .clear, world := after }
  | .clear => { state with pc := .toggle, btnFlag := false }
  | .returned _ => state
  | .rebooted => state

/-- `button_pressed`. -/
def buttonPressed (state : MainState) : MainState :=
  { state with btnFlag := true, history := state.history ++ [.pressed] }

/-- A step of the system: one of `main`, or the handler as long as the device is up. -/
inductive Step (env : Env) (before : MainState) : MainState → Prop
  | main (ledFails : Bool) (stack : ApplyPatch) :
      Step env before (mainStep env ledFails stack before)
  | interrupt (up : before.pc ≠ .rebooted) : Step env before (buttonPressed before)

/-- The states the system can be in. -/
def Reachable (env : Env) (world : World) (state : MainState) : Prop :=
  Relation.ReflTransGen (Step env) (mainStart world) state

/-! ### Presses -/

/-- Every press has been followed by the start of a call. -/
def PressesAnswered (history : List Moment) : Prop :=
  ∀ before after, history = before ++ .pressed :: after → ∃ moment ∈ after, moment.StartsCall

/-- While `main` is looping and the flag is down, no press waits for a call. -/
def NoPressLost (state : MainState) : Prop :=
  state.pc.Looping → state.btnFlag = false → PressesAnswered state.history

theorem pressesAnswered_nil : PressesAnswered [] := by
  intro before after same
  simp at same

/-- What comes before a press at the end, or a press before the end. -/
theorem append_press_cases {history before after : List Moment} {last : Moment}
    (same : history ++ [last] = before ++ .pressed :: after) :
    (last = .pressed ∧ after = []) ∨
      ∃ rest, after = rest ++ [last] ∧ history = before ++ .pressed :: rest := by
  rcases List.eq_nil_or_concat after with rfl | ⟨rest, moment, rfl⟩
  · left
    exact ⟨(List.append_inj' same rfl).2 |> List.singleton_inj.mp, rfl⟩
  · right
    rw [List.concat_eq_append] at same ⊢
    rw [← List.cons_append, ← List.append_assoc] at same
    obtain ⟨older, newest⟩ := List.append_inj' same rfl
    rw [List.singleton_inj] at newest
    exact ⟨rest, by rw [newest], older⟩

/-- The start of a call answers every press before it. -/
theorem pressesAnswered_start {history : List Moment} {event : Event}
    (starts : (Moment.acted event).StartsCall) : PressesAnswered (history ++ [.acted event]) := by
  intro before after same
  rcases append_press_cases same with ⟨press, -⟩ | ⟨rest, rfl, -⟩
  · cases press
  · exact ⟨_, List.mem_append_right _ (List.mem_singleton_self _), starts⟩

theorem PressesAnswered.acted {history : List Moment} (answered : PressesAnswered history)
    (event : Event) : PressesAnswered (history ++ [.acted event]) := by
  intro before after same
  rcases append_press_cases same with ⟨press, -⟩ | ⟨rest, rfl, older⟩
  · cases press
  · obtain ⟨moment, among, starts⟩ := answered before rest older
    exact ⟨moment, List.mem_append_left _ among, starts⟩

/-- What follows a press does not answer it if no call starts in it. -/
theorem not_pressesAnswered {history : List Moment} {events : List Event}
    (others : ∀ event ∈ events, ¬ (Moment.acted event).StartsCall) :
    ¬ PressesAnswered (history ++ .pressed :: events.map .acted) := by
  intro answered
  obtain ⟨moment, among, starts⟩ := answered history _ rfl
  obtain ⟨event, issued, rfl⟩ := List.mem_map.mp among
  exact others event issued starts

/-! ### A call starts once -/

/-- The first event is the start of a call and the others are none. -/
def StartsOnce (events : List Event) : Prop :=
  ∃ event rest, events = event :: rest ∧ (Moment.acted event).StartsCall ∧
    ∀ later ∈ rest, ¬ (Moment.acted later).StartsCall

theorem startsCall_header {event : Event} (starts : (Moment.acted event).StartsCall) :
    event.FromHeader := by
  unfold Moment.StartsCall at starts
  split at starts
  next same =>
    cases same
    trivial
  next => exact starts.elim

/-- A call reads the header before it does anything else, and does not read it again. -/
theorem callEvents_startsOnce (env : Env) (stack : ApplyPatch) (world : World) :
    StartsOnce (callEvents env stack world) := by
  obtain ⟨events, log, shape⟩ := deltaCheckAndApply_shape env stack world
  rw [callEvents, log, List.drop_left]
  generalize (deltaCheckAndApply env stack world).1 = ending at shape
  cases shape with
  | unread => exact ⟨_, [], rfl, trivial, by simp⟩
  | noPatch => exact ⟨_, [], rfl, trivial, by simp⟩
  | clearFailed => exact ⟨_, _, rfl, trivial, by simp [Moment.StartsCall]⟩
  | cleared _ _ rest others =>
      refine ⟨_, _ :: rest, rfl, trivial, fun later among starts => ?_⟩
      rcases List.mem_cons.mp among with rfl | behind
      · exact starts
      · exact others later behind (startsCall_header starts)

/-- The events of a call that is running, issued or not, start it once. -/
def CallTracked (pc : Pc) : Prop :=
  ∀ issued pending ending after, pc = .calling issued pending ending after →
    StartsOnce (issued ++ pending)

/-- Every step of `main` keeps to the events of the call. -/
theorem CallTracked.main {env : Env} {state : MainState} (tracked : CallTracked state.pc)
    (ledFails : Bool) (stack : ApplyPatch) :
    CallTracked (mainStep env ledFails stack state).pc := by
  unfold mainStep
  split
  next => rintro _ _ _ _ ⟨⟩
  next => cases ledFails <;> rintro _ _ _ _ ⟨⟩
  next => rintro _ _ _ _ ⟨⟩
  next =>
    split
    next =>
      rintro issued pending ending after same
      cases same
      exact callEvents_startsOnce env stack state.world
    next => rintro _ _ _ _ ⟨⟩
  next place =>
    rintro issued pending ending after same
    cases same
    rw [List.append_assoc]
    exact tracked _ _ _ _ place
  next => rintro _ _ _ _ ⟨⟩
  next => split <;> rintro _ _ _ _ ⟨⟩
  next => rintro _ _ _ _ ⟨⟩
  next => exact tracked
  next => exact tracked

/-! ### Every press is answered in time -/

/-- A press would be forgotten: the flag is going to be cleared, and the header has already
been read. This is so between `gpio_add_callback` and the reset of the flag, and from the
header read of a call that leaves `main` in its loop until the flag is cleared. -/
def Pc.Forgets : Pc → Prop
  | .configuring => True
  | .calling issued _ ending _ => issued ≠ [] ∧ ending = .returned 0
  | .clear => True
  | _ => False

/-- A step that is no press at a place where it would be forgotten. -/
inductive TimelyStep (env : Env) (before : MainState) : MainState → Prop
  | main (ledFails : Bool) (stack : ApplyPatch) :
      TimelyStep env before (mainStep env ledFails stack before)
  | interrupt (up : before.pc ≠ .rebooted) (timely : ¬ before.pc.Forgets) :
      TimelyStep env before (buttonPressed before)

/-- What holds of the flag and the presses at each place of the loop. -/
structure PressesTracked (state : MainState) : Prop where
  lowered : state.btnFlag = false → PressesAnswered state.history
  forgets : state.pc.Forgets → PressesAnswered state.history
  call : CallTracked state.pc

theorem pressesTracked_start (world : World) : PressesTracked (mainStart world) :=
  ⟨fun _ => pressesAnswered_nil, fun _ => pressesAnswered_nil, by rintro _ _ _ _ ⟨⟩⟩

/-- The handler raises the flag. -/
theorem PressesTracked.interrupt {state : MainState} (tracked : PressesTracked state)
    (timely : ¬ state.pc.Forgets) : PressesTracked (buttonPressed state) :=
  ⟨nofun, fun forgets => absurd forgets timely, tracked.call⟩

/-- An event of a call answers the presses if it is the first, and forgets none otherwise. -/
theorem PressesTracked.issue {state : MainState} {issued pending : List Event} {event : Event}
    {ending : Ending} {after : World} (tracked : PressesTracked state)
    (place : state.pc = .calling issued (event :: pending) ending after)
    (zero : ending = .returned 0) : PressesAnswered (state.history ++ [.acted event]) := by
  rcases issued with _ | ⟨first, issued⟩
  · obtain ⟨opening, rest, same, starts, -⟩ := tracked.call _ _ _ _ place
    cases same
    exact pressesAnswered_start starts
  · refine (tracked.forgets ?_).acted event
    rw [place]
    exact ⟨List.cons_ne_nil _ _, zero⟩

/-- Before the flag is cleared, a call has started and answered the presses. -/
theorem PressesTracked.returned {state : MainState} {issued : List Event} {after : World}
    (tracked : PressesTracked state) (place : state.pc = .calling issued [] (.returned 0) after) :
    PressesAnswered state.history := by
  apply tracked.forgets
  rw [place]
  refine ⟨?_, rfl⟩
  rintro rfl
  obtain ⟨event, rest, none, -⟩ := tracked.call _ _ _ _ place
  cases none

/-- A step of `main` keeps the presses tracked. -/
theorem PressesTracked.main {env : Env} {state : MainState} (tracked : PressesTracked state)
    (ledFails : Bool) (stack : ApplyPatch) :
    PressesTracked (mainStep env ledFails stack state) := by
  refine ⟨?_, ?_, tracked.call.main ledFails stack⟩
  · unfold mainStep
    split
    next place => exact fun _ => tracked.forgets (by rw [place]; trivial)
    next => exact tracked.lowered
    next => exact tracked.lowered
    next => split <;> exact tracked.lowered
    next => exact fun low => (tracked.lowered low).acted _
    next => exact tracked.lowered
    next => split <;> exact tracked.lowered
    next place => exact fun _ => tracked.forgets (by rw [place]; trivial)
    next => exact tracked.lowered
    next => exact tracked.lowered
  · unfold mainStep
    split
    next => exact False.elim
    next => cases ledFails <;> exact False.elim
    next => exact False.elim
    next =>
      split
      next => exact fun forgets => absurd rfl forgets.1
      next => exact False.elim
    next place => exact fun forgets => tracked.issue place forgets.2
    next => exact False.elim
    next issued value after place =>
      split
      next => exact False.elim
      next zero =>
        rw [not_not.mp zero] at place
        exact fun _ => tracked.returned place
    next => exact False.elim
    next => exact tracked.forgets
    next => exact tracked.forgets

/-- In a run in which no press comes at a place where it is forgotten, no press is lost. -/
theorem presses_answered_of_timely {env : Env} {world : World} {state : MainState}
    (run : Relation.ReflTransGen (TimelyStep env) (mainStart world) state) :
    NoPressLost state := by
  suffices tracked : PressesTracked state from fun _ low => tracked.lowered low
  induction run with
  | refl => exact pressesTracked_start world
  | tail _ step inductionHypothesis =>
      cases step with
      | main ledFails stack => exact inductionHypothesis.main ledFails stack
      | interrupt _ timely => exact inductionHypothesis.interrupt timely

/-- A device whose flash is erased: there is no patch. -/
def erasedDevice : World := ⟨deltaInitFlashMem buildMap, fun _ => 0xFF, []⟩

/-- A step of `main` in which the LED is toggled and a call finds zeros on the stack. -/
def plainStep (state : MainState) : MainState :=
  mainStep (Env.flawless buildMap) false zeroStack state

theorem plainSteps_run (count : Nat) (state : MainState) :
    Relation.ReflTransGen (TimelyStep (Env.flawless buildMap)) state (plainStep^[count] state) := by
  induction count with
  | zero => exact .refl
  | succ count inductionHypothesis =>
      rw [Function.iterate_succ_apply']
      exact inductionHypothesis.tail (.main false zeroStack)

/-- The button is pressed before the first round of the loop. -/
def pressedEarly : MainState := buttonPressed (plainStep (mainStart erasedDevice))

theorem pressedEarly_run :
    Relation.ReflTransGen (TimelyStep (Env.flawless buildMap)) (mainStart erasedDevice)
      pressedEarly := by
  have looping : (plainStep (mainStart erasedDevice)).pc = .toggle := rfl
  refine (plainSteps_run 1 _).tail (.interrupt ?_ ?_)
  · exact fun same => nomatch looping.symm.trans same
  · exact id

/-- In the next round the press is answered and the flag cleared. -/
theorem presses_answered_early :
    (plainStep^[6] pressedEarly).btnFlag = false ∧
      Moment.pressed ∈ (plainStep^[6] pressedEarly).history ∧
      NoPressLost (plainStep^[6] pressedEarly) :=
  ⟨by decide +kernel, by decide +kernel,
    presses_answered_of_timely (pressedEarly_run.trans (plainSteps_run 6 _))⟩

/-! ### Forgotten presses -/

theorem TimelyStep.step {env : Env} {before after : MainState}
    (timely : TimelyStep env before after) : Step env before after := by
  cases timely with
  | main ledFails stack => exact .main ledFails stack
  | interrupt up => exact .interrupt up

/-- The events of a call in all states of a run. -/
theorem reachable_callTracked {env : Env} {world : World} {state : MainState}
    (reachable : Reachable env world state) : CallTracked state.pc := by
  induction reachable with
  | refl => rintro _ _ _ _ ⟨⟩
  | tail _ step inductionHypothesis =>
      cases step with
      | main ledFails stack => exact inductionHypothesis.main ledFails stack
      | interrupt => exact inductionHypothesis

/-- A call goes on to its end. -/
theorem call_issues (env : Env) {state : MainState} {issued pending : List Event}
    {ending : Ending} {after : World} (place : state.pc = .calling issued pending ending after) :
    ∃ later, Relation.ReflTransGen (Step env) state later ∧
      later.pc = .calling (issued ++ pending) [] ending after ∧
      later.history = state.history ++ pending.map .acted := by
  induction pending generalizing state issued with
  | nil => exact ⟨state, .refl, by rw [place, List.append_nil], by simp⟩
  | cons event pending inductionHypothesis =>
      have moves : (mainStep env false zeroStack state).pc =
          .calling (issued ++ [event]) pending ending after ∧
          (mainStep env false zeroStack state).history = state.history ++ [.acted event] := by
        unfold mainStep
        rw [place]
        exact ⟨rfl, rfl⟩
      obtain ⟨later, run, stands, recorded⟩ := inductionHypothesis moves.1
      refine ⟨later, .head (.main false zeroStack) run, ?_, ?_⟩
      · rw [stands, List.append_assoc, List.singleton_append]
      · rw [recorded, moves.2, List.append_assoc, List.map_cons, List.singleton_append]

/-- Where the flag is about to be cleared, `main` goes on in its loop without it. -/
theorem clear_lowers (env : Env) {state : MainState}
    (place : state.pc = .configuring ∨ state.pc = .clear) :
    ∃ later, Relation.ReflTransGen (Step env) state later ∧
      later.pc.Looping ∧ later.btnFlag = false ∧ later.history = state.history := by
  refine ⟨mainStep env false zeroStack state, .single (.main false zeroStack), ?_⟩
  unfold mainStep
  rcases place with same | same
  · rw [same]
    exact ⟨trivial, rfl, rfl⟩
  · rw [same]
    exact ⟨trivial, rfl, rfl⟩

/-- A press at a place where it is forgotten is lost when `main` goes on. -/
theorem forgotten_press_lost {env : Env} {world : World} {state : MainState}
    (reachable : Reachable env world state) (forgets : state.pc.Forgets) :
    ∃ later, Relation.ReflTransGen (Step env) (buttonPressed state) later ∧
      ¬ NoPressLost later := by
  have lost {events : List Event} {middle : MainState}
      (run : Relation.ReflTransGen (Step env) (buttonPressed state) middle)
      (place : middle.pc = .configuring ∨ middle.pc = .clear)
      (recorded : middle.history = state.history ++ .pressed :: events.map .acted)
      (others : ∀ event ∈ events, ¬ (Moment.acted event).StartsCall) :
      ∃ later, Relation.ReflTransGen (Step env) (buttonPressed state) later ∧
        ¬ NoPressLost later := by
    obtain ⟨later, clears, looping, low, same⟩ := clear_lowers env place
    refine ⟨later, run.trans clears, fun kept => ?_⟩
    have answered := kept looping low
    rw [same, recorded] at answered
    exact not_pressesAnswered others answered
  cases place : state.pc with
  | configuring => exact @lost [] _ .refl (Or.inl place) rfl (by simp)
  | clear => exact @lost [] _ .refl (Or.inr place) rfl (by simp)
  | calling issued pending ending after =>
      rw [place] at forgets
      obtain ⟨begun, rfl⟩ := forgets
      obtain ⟨first, rest, events, -, others⟩ :=
        reachable_callTracked reachable issued pending _ after place
      obtain ⟨middle, run, stands, recorded⟩ := @call_issues env (buttonPressed state) _ _ _ _ place
      have returns : (mainStep env false zeroStack middle).pc = .clear ∧
          (mainStep env false zeroStack middle).history = middle.history := by
        unfold mainStep
        rw [stands]
        exact ⟨rfl, rfl⟩
      refine @lost pending _ (run.tail (.main false zeroStack)) (Or.inr returns.1) ?_ ?_
      · rw [returns.2, recorded]
        exact List.append_assoc _ _ _
      · intro event among
        apply others event
        obtain ⟨opening, issued, rfl⟩ := List.exists_cons_of_ne_nil begun
        rw [List.cons_append, List.cons.injEq] at events
        rw [← events.2]
        exact List.mem_append_right _ among
  | _ =>
      rw [place] at forgets
      exact forgets.elim

/-- The button is pressed again while the call looks for a patch. -/
def pressedAgain : MainState := buttonPressed (plainStep^[4] pressedEarly)

theorem pressedAgain_reachable :
    Reachable (Env.flawless buildMap) erasedDevice (plainStep^[2] pressedAgain) := by
  have looping : (plainStep^[4] pressedEarly).pc.Looping := by decide +kernel
  have steps {first last : MainState}
      (run : Relation.ReflTransGen (TimelyStep (Env.flawless buildMap)) first last) :
      Relation.ReflTransGen (Step (Env.flawless buildMap)) first last :=
    Relation.ReflTransGen.mono (fun _ _ timely => TimelyStep.step timely) _ _ run
  have before := steps (pressedEarly_run.trans (plainSteps_run 4 _))
  refine (before.tail (.interrupt fun rebooted => ?_)).trans (steps (plainSteps_run 2 _))
  rw [rebooted] at looping
  exact looping

/-- The press while the call looks for a patch is lost. -/
theorem press_during_call_lost :
    ¬ ∀ (env : Env) (world : World) (state : MainState),
      Reachable env world state → NoPressLost state := by
  intro kept
  have answered := kept _ _ _ pressedAgain_reachable (by decide +kernel) (by decide +kernel)
  have recorded : (plainStep^[2] pressedAgain).history =
      (plainStep^[4] pressedEarly).history ++ [.pressed] := by decide +kernel
  rw [recorded] at answered
  exact @not_pressesAnswered _ [] (by simp) answered

end DeltaUpdate.App
