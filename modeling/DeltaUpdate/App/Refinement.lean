import DeltaUpdate.App.Calls
import DeltaUpdate.Delta.Alike

/-!
Owns the main loop as a history of calls. What the program does on the device, wherever the
button is pressed, is what calls of their own do one after the other, each but the last
complete. What is known of such histories is so known of the program.
-/

namespace DeltaUpdate.App

open DeltaUpdate.Delta
open DeltaUpdate.Detools

/-! ### Histories of calls -/

/-- What the program has done on the device. -/
def actedEvents (history : List Moment) : List Event :=
  history.filterMap fun moment =>
    match moment with
    | .acted event => some event
    | .pressed => none

/-- The events of calls that are made one after the other. -/
def callsEvents (map : FlashMap) (memory : Memory) : List Attempt → List Event
  | [] => []
  | attempt :: attempts =>
      attempt.events map memory ++
        callsEvents map (replay memory (attempt.events map memory)) attempts

@[simp] theorem actedEvents_append (first second : List Moment) :
    actedEvents (first ++ second) = actedEvents first ++ actedEvents second :=
  List.filterMap_append

theorem memoryAfter_snoc (map : FlashMap) (memory : Memory) (attempts : List Attempt)
    (attempt : Attempt) :
    memoryAfter map memory (attempts ++ [attempt]) =
      replay (memoryAfter map memory attempts)
        (attempt.events map (memoryAfter map memory attempts)) := by
  rw [memoryAfter, List.map_append, memoryBehind_append]
  rfl

theorem callsEvents_snoc (map : FlashMap) (memory : Memory) (attempts : List Attempt)
    (attempt : Attempt) :
    callsEvents map memory (attempts ++ [attempt]) =
      callsEvents map memory attempts ++
        attempt.events map (memoryAfter map memory attempts) := by
  induction attempts generalizing memory with
  | nil => exact List.append_nil _
  | cons first attempts inductionHypothesis =>
      rw [List.cons_append, callsEvents, callsEvents, inductionHypothesis, List.append_assoc,
        memoryAfter_cons]

/-- The events of the calls lead to the memory behind them. -/
theorem replay_callsEvents (map : FlashMap) (memory : Memory) (attempts : List Attempt) :
    replay memory (callsEvents map memory attempts) = memoryAfter map memory attempts := by
  induction attempts generalizing memory with
  | nil => rfl
  | cons attempt attempts inductionHypothesis =>
      rw [callsEvents, replay_append, inductionHypothesis, memoryAfter_cons]

/-! ### The calls of the main loop -/

/-- The call that `main` makes in a world, as a call of its own. -/
def attemptIn (env : Env) (stack : ApplyPatch) (world : World) : Attempt where
  fails := (env.behind world.log).fails
  upgradeFails := env.upgradeFails
  stack := stack
  flash := world.flash
  cut := none

/-- A call of `main` does what that call does. -/
theorem callEvents_attempt (env : Env) (stack : ApplyPatch) (world : World) :
    (attemptIn env stack world).events env.map world.memory = callEvents env stack world ∧
      (deltaCheckAndApply env stack world).2.memory =
        replay world.memory (callEvents env stack world) := by
  obtain ⟨-, log, memory⟩ := deltaCheckAndApply_behind env stack world
  have recorded := callOn_recorded (env.behind world.log) stack world.flash world.memory
  have events : callEvents env stack world =
      (callOn (env.behind world.log) stack world.flash world.memory).2.log := by
    rw [callEvents, log, List.drop_left]
  rw [events, memory, recorded]
  exact ⟨rfl, rfl⟩

/-- What has been done when `main` stands at a place behind some complete calls. -/
def Underway (map : FlashMap) (memory : Memory) (attempts : List Attempt) (events : List Event) :
    Pc → Prop
  | .calling issued pending _ after =>
      events = callsEvents map memory attempts ++ issued ∧
        (∃ attempt : Attempt, attempt.cut = none ∧
          attempt.events map (memoryAfter map memory attempts) = issued ++ pending) ∧
        after.memory = replay (memoryAfter map memory attempts) (issued ++ pending)
  | _ => events = callsEvents map memory attempts

/-- Where `main` stands in a history of calls. -/
structure InCalls (map : FlashMap) (memory : Memory) (state : MainState)
    (attempts : List Attempt) : Prop where
  complete : ∀ attempt ∈ attempts, attempt.cut = none
  behind : state.world.memory = memoryAfter map memory attempts
  acted : Underway map memory attempts (actedEvents state.history) state.pc

section

variable {env : Env} {memory : Memory} {state : MainState} {attempts : List Attempt}

theorem InCalls.interrupt {map : FlashMap} (inCalls : InCalls map memory state attempts) :
    InCalls map memory (buttonPressed state) attempts := by
  refine ⟨inCalls.complete, inCalls.behind, ?_⟩
  have none : actedEvents (state.history ++ [.pressed]) = actedEvents state.history := by
    rw [actedEvents_append]
    exact List.append_nil _
  rw [buttonPressed, none]
  exact inCalls.acted

/-- A call that has returned is one more complete call. -/
theorem InCalls.returned {map : FlashMap} (inCalls : InCalls map memory state attempts)
    {issued : List Event} {ending : Ending} {after : World}
    (place : state.pc = .calling issued [] ending after) :
    ∃ attempt : Attempt, (∀ earlier ∈ attempts ++ [attempt], earlier.cut = none) ∧
      after.memory = memoryAfter map memory (attempts ++ [attempt]) ∧
      actedEvents state.history = callsEvents map memory (attempts ++ [attempt]) := by
  have acted := inCalls.acted
  rw [place] at acted
  obtain ⟨events, ⟨attempt, whole, same⟩, result⟩ := acted
  rw [List.append_nil] at same result
  refine ⟨attempt, fun earlier among => ?_, ?_, ?_⟩
  · rcases List.mem_append.mp among with old | new
    · exact inCalls.complete earlier old
    · rw [List.mem_singleton.mp new]
      exact whole
  · rw [memoryAfter_snoc, same, result]
  · rw [callsEvents_snoc, same, events]

/-- A step of `main` makes calls. -/
theorem InCalls.main (inCalls : InCalls env.map memory state attempts) (ledFails : Bool)
    (stack : ApplyPatch) :
    ∃ attempts, InCalls env.map memory (mainStep env ledFails stack state) attempts := by
  have acted := inCalls.acted
  have idle {pc : Pc} (before : Underway env.map memory attempts (actedEvents state.history)
        state.pc → actedEvents state.history = callsEvents env.map memory attempts)
      (btnFlag : Bool) (after : Underway env.map memory attempts (actedEvents state.history) pc =
        (actedEvents state.history = callsEvents env.map memory attempts)) :
      ∃ attempts, InCalls env.map memory { state with pc := pc, btnFlag := btnFlag } attempts :=
    ⟨attempts, inCalls.complete, inCalls.behind, after ▸ before acted⟩
  unfold mainStep
  split
  next place => exact idle (by rw [place]; exact id) _ rfl
  next place =>
    refine idle (by rw [place]; exact id) _ ?_
    cases ledFails <;> rfl
  next place => exact idle (by rw [place]; exact id) _ rfl
  next place =>
    rw [place] at acted
    split
    next =>
      obtain ⟨events, result⟩ := callEvents_attempt env stack state.world
      rw [inCalls.behind] at events result
      exact ⟨attempts, inCalls.complete, inCalls.behind, acted.trans (List.append_nil _).symm,
        ⟨_, rfl, events⟩, result⟩
    next => exact ⟨attempts, inCalls.complete, inCalls.behind, acted⟩
  next issued event pending ending after place =>
    rw [place] at acted
    obtain ⟨events, ⟨attempt, whole, same⟩, result⟩ := acted
    refine ⟨attempts, inCalls.complete, inCalls.behind, ?_, ⟨attempt, whole, ?_⟩, ?_⟩
    · rw [actedEvents_append, events, List.append_assoc]
      rfl
    · rw [same, List.append_assoc]
      rfl
    · rw [result, List.append_assoc]
      rfl
  next place =>
    obtain ⟨attempt, complete, result, events⟩ := inCalls.returned place
    exact ⟨attempts ++ [attempt], complete, result, events⟩
  next place =>
    obtain ⟨attempt, complete, result, events⟩ := inCalls.returned place
    split
    next => exact ⟨attempts ++ [attempt], complete, result, events⟩
    next => exact ⟨attempts ++ [attempt], complete, result, events⟩
  next place => exact idle (by rw [place]; exact id) _ rfl
  next => exact ⟨attempts, inCalls⟩
  next => exact ⟨attempts, inCalls⟩

theorem inCalls_start (map : FlashMap) (world : World) :
    InCalls map world.memory (mainStart world) [] where
  complete _ among := absurd among List.not_mem_nil
  behind := rfl
  acted := show actedEvents [] = callsEvents map world.memory [] from rfl

theorem inCalls_reachable {world : World} (reachable : Reachable env world state) :
    ∃ attempts, InCalls env.map world.memory state attempts := by
  induction reachable with
  | refl => exact ⟨[], inCalls_start env.map world⟩
  | tail _ step inductionHypothesis =>
      obtain ⟨attempts, inCalls⟩ := inductionHypothesis
      cases step with
      | main ledFails stack => exact inCalls.main ledFails stack
      | interrupt => exact ⟨attempts, inCalls.interrupt⟩

/-! ### The number of calls -/

/-- A press starts no call. -/
theorem callsIn_acted (history : List Moment) :
    callsIn history = callsIn ((actedEvents history).map .acted) := by
  induction history with
  | nil => rfl
  | cons moment history inductionHypothesis =>
      have split : callsIn (moment :: history) = callsIn [moment] + callsIn history :=
        callsIn_append [moment] history
      cases moment with
      | pressed =>
          rw [split, inductionHypothesis]
          exact Nat.zero_add _
      | acted event =>
          have first : actedEvents (.acted event :: history) = event :: actedEvents history := rfl
          rw [split, inductionHypothesis, first, List.map_cons]
          exact (callsIn_append [.acted event] _).symm

theorem attempt_startsOnce {attempt : Attempt} (whole : attempt.cut = none) (map : FlashMap)
    (memory : Memory) : StartsOnce (attempt.events map memory) := by
  have once := callEvents_startsOnce ⟨map, attempt.fails, attempt.upgradeFails⟩ attempt.stack
    ⟨attempt.flash, memory, []⟩
  unfold Attempt.events
  rw [whole]
  exact once

/-- Every complete call has started. -/
theorem length_le_callsIn {map : FlashMap} {attempts : List Attempt}
    (complete : ∀ attempt ∈ attempts, attempt.cut = none) (memory : Memory) :
    attempts.length ≤ callsIn ((callsEvents map memory attempts).map .acted) := by
  induction attempts generalizing memory with
  | nil => exact Nat.zero_le _
  | cons attempt attempts inductionHypothesis =>
      have once := attempt_startsOnce (complete attempt List.mem_cons_self) map memory
      have rest := inductionHypothesis
        (fun other among => complete other (List.mem_cons_of_mem _ among))
        (replay memory (attempt.events map memory))
      rw [callsEvents, List.map_append, callsIn_append, once.callsIn, List.length_cons]
      omega

/-- The calls that a history is made of. -/
theorem InCalls.calls {map : FlashMap} (inCalls : InCalls map memory state attempts) :
    ∃ calls : List Attempt, actedEvents state.history = callsEvents map memory calls ∧
      (∀ attempt ∈ calls.dropLast, attempt.cut = none) ∧
      calls.length ≤ callsIn state.history := by
  obtain ⟨complete, -, acted⟩ := inCalls
  have started := @length_le_callsIn map attempts complete memory
  have all (events : actedEvents state.history = callsEvents map memory attempts) :
      ∃ calls : List Attempt, actedEvents state.history = callsEvents map memory calls ∧
        (∀ attempt ∈ calls.dropLast, attempt.cut = none) ∧
        calls.length ≤ callsIn state.history := by
    refine ⟨attempts, events,
      fun attempt among => complete attempt (List.mem_of_mem_dropLast among), ?_⟩
    rw [callsIn_acted, events]
    exact started
  unfold Underway at acted
  split at acted
  next issued pending ending after _ =>
    obtain ⟨events, ⟨attempt, whole, same⟩, -⟩ := acted
    cases issued with
    | nil => exact all (events.trans (List.append_nil _))
    | cons first issued =>
        -- the call under way has been cut short behind the events it has issued
        have log : (attempt.call map (memoryAfter map memory attempts)).2.log =
            first :: issued ++ pending := by
          rw [← same, Attempt.events, whole]
        have cut : ({ attempt with cut := some (first :: issued).length } : Attempt).events map
            (memoryAfter map memory attempts) = first :: issued := by
          change (attempt.call map (memoryAfter map memory attempts)).2.log.take _ = _
          rw [log, List.take_left]
        refine ⟨attempts ++ [{ attempt with cut := some (first :: issued).length }], ?_,
          fun other among => complete other (by rwa [List.dropLast_concat] at among), ?_⟩
        · rw [callsEvents_snoc, cut, events]
        · obtain ⟨opening, rest, opens, starts, -⟩ :=
            attempt_startsOnce whole map (memoryAfter map memory attempts)
          rw [same] at opens
          obtain ⟨rfl, -⟩ := List.cons.inj opens
          have one : 1 ≤ callsIn ((first :: issued).map .acted) :=
            List.countP_pos_iff.mpr ⟨_, List.mem_cons_self, by simpa using starts⟩
          rw [callsIn_acted, events, List.map_append, callsIn_append, List.length_append,
            List.length_singleton]
          omega
  next => exact all acted

end

/-- What the program does is what calls of their own do. -/
structure MadeOfCalls (map : FlashMap) (memory : Memory) (history : List Moment)
    (calls : List Attempt) : Prop where
  events : actedEvents history = callsEvents map memory calls
  behind : replay memory (actedEvents history) = memoryAfter map memory calls
  complete : ∀ attempt ∈ calls.dropLast, attempt.cut = none
  pressed : calls.length ≤ pressesIn history
  /-- The slot is changed and an upgrade is requested by one call at most. -/
  once : ∀ first second, ActsAt map memory (calls.map .called) first →
    ActsAt map memory (calls.map .called) second → first = second

section

variable {storage : { partition : Partition // partition.offset = 0xf8000 }}

/-- Wherever the button is pressed and whatever fails, the program does what a history of
calls does: each but the last is complete, each has been asked for by a press, and at most
one of them acts. -/
theorem main_calls {fails : List Event → FlashOp → Bool} {upgradeFails : Bool} {world : World}
    {state : MainState}
    (reachable : Reachable ⟨deviceMap storage, fails, upgradeFails⟩ world state) :
    ∃ calls, MadeOfCalls (deviceMap storage) world.memory state.history calls := by
  obtain ⟨attempts, inCalls⟩ := inCalls_reachable reachable
  obtain ⟨calls, events, complete, few⟩ := inCalls.calls
  have cover := pressesCover_reachable reachable
  refine ⟨calls, events, ?_, complete, ?_, fun first second acts again => ?_⟩
  · exact (congrArg _ events).trans (replay_callsEvents _ _ _)
  · unfold PressesCover at cover
    omega
  · have noFlash : NoFlash (calls.map .called) := by simp [NoFlash]
    have before := actsAt_not_before storage noFlash acts again
    have behind := actsAt_not_before storage noFlash again acts
    omega

theorem main_calls_again :
    ∃ calls, MadeOfCalls buildMap erasedDevice.memory (plainStep^[2] pressedAgain).history calls :=
  main_calls pressedAgain_reachable

end

end DeltaUpdate.App
