import DeltaUpdate.Delta.Lockstep

/-!
Owns a call of `delta_check_and_apply` as a run of the engine: what the header and the
initialization leave for the engine to start on, the states the engine goes through, and
the upgrade that is requested from the state it stops in.
-/

namespace DeltaUpdate.Delta

open DeltaUpdate.Detools
open DeltaUpdate.Library

/-- The memory on which the engine of a call starts. -/
def engineMemory (map : FlashMap) (memory : Memory) : Memory :=
  (firstErase map).apply (clearedMemory map memory)

/-- The log with which the engine of a call starts. -/
def engineLog (map : FlashMap) (log : List Event) : List Event :=
  log ++ headerEvents map ++ [.flash .deltaInit (firstErase map) true]

/-- The states of the engine in a call of `delta_check_and_apply`. -/
def CallVisits (env : Env) (stack : ApplyPatch) (world : World) (config : Config World) : Prop :=
  let header := deltaReadPatchHeader env world 0
  let inited := deltaInit env header.2.2
  ¬ header.1 < 0 ∧ 0 < header.2.1 ∧ inited.1 = 0 ∧
    Visits (deltaCallbacks env) stack inited.2 header.2.1 config

/-- The event of an access to the header or of the first erase. -/
def Event.BeforeEngine : Event → Prop
  | .flash .deltaReadPatchHeader _ _ => True
  | .flash .deltaInit _ _ => True
  | _ => False

/-- How a call runs the engine, if it does. -/
inductive CallRun (env : Env) (stack : ApplyPatch) (world : World) : Ending × World → Prop
  | early {value : Int} {after : World} (nonpositive : value ≤ 0)
      (events : Extends Event.BeforeEngine world.log after.log)
      (none : ∀ config, ¬ CallVisits env stack world config) :
      CallRun env stack world (.returned value, after)
  | engine {res : Int} {self : ApplyPatch} {after : World}
      (marker : headerWord env.map world.memory 0 = newPatch)
      (positive : 0 < headerWord env.map world.memory 4)
      (visits : ∀ config, CallVisits env stack world config ↔
        Runs env stack (engineMemory env.map world.memory) (engineLog env.map world.log)
          (headerWord env.map world.memory 4) config)
      (stops : CallVisits env stack world ⟨.stop res, self, after⟩) :
      CallRun env stack world (requestUpgrade env res after)

theorem headerCase_events {env : Env} {world after : World} {size found : Nat} {code : Int}
    (header : HeaderCase env world size (code, found, after)) :
    Extends Event.BeforeEngine world.log after.log := by
  cases header with
  | readFailed => exact (Extends.refl _ _).record trivial
  | noPatch => exact (Extends.refl _ _).record trivial
  | clearFailed => exact ((Extends.refl _ _).record trivial).record trivial
  | cleared =>
      refine (Extends.refl _ _).append fun event among => ?_
      simp only [headerEvents, List.mem_cons, List.not_mem_nil, or_false] at among
      rcases among with rfl | rfl <;> trivial

theorem deltaCheckAndApply_runs (env : Env) (stack : ApplyPatch) (world : World) :
    CallRun env stack world (deltaCheckAndApply env stack world) := by
  have header := deltaReadPatchHeader_cases env world 0
  have visits (config : Config World) : CallVisits env stack world config ↔
      let header := deltaReadPatchHeader env world 0
      let inited := deltaInit env header.2.2
      ¬ header.1 < 0 ∧ 0 < header.2.1 ∧ inited.1 = 0 ∧
        Visits (deltaCallbacks env) stack inited.2 header.2.1 config := Iff.rfl
  unfold deltaCheckAndApply
  generalize deltaReadPatchHeader env world 0 = read at header visits
  obtain ⟨code, size, after⟩ := read
  simp only at visits ⊢
  by_cases negative : code < 0
  · rw [if_pos negative]
    exact .early negative.le (headerCase_events header)
      fun config reached => ((visits config).mp reached).1 negative
  · rw [if_neg negative]
    by_cases positive : 0 < size
    · rw [if_pos positive, applyPatch]
      have init := deltaInit_cases env after
      generalize deltaInit env after = outcome at init visits
      obtain ⟨failure, inited⟩ := outcome
      simp only at visits ⊢
      by_cases failed : failure ≠ 0
      · rw [if_pos failed]
        cases init with
        | failed =>
            exact .early (DeltaError.result_neg _).le ((headerCase_events header).record trivial)
              fun config reached => failed ((visits config).mp reached).2.2.1
        | done => exact absurd rfl failed
      · rw [if_neg failed]
        cases init with
        | failed => exact absurd (not_not.mp failed) (DeltaError.result_neg _).ne
        | done =>
            cases header with
            | readFailed => exact absurd positive (lt_irrefl 0)
            | noPatch => exact absurd positive (lt_irrefl 0)
            | clearFailed => exact absurd (DeltaError.result_neg _) negative
            | cleared marker =>
                have runs (config : Config World) : CallVisits env stack world config ↔
                    Runs env stack (engineMemory env.map world.memory)
                      (engineLog env.map world.log) (headerWord env.map world.memory 4) config := by
                  rw [visits]
                  exact ⟨fun reached => reached.2.2.2,
                    fun reached => ⟨negative, positive, rfl, reached⟩⟩
                have stops := detoolsApplyPatchCallbacks_visits (deltaCallbacks env) stack
                  (startWorld env.map (engineMemory env.map world.memory)
                    (engineLog env.map world.log)) (headerWord env.map world.memory 4)
                exact .engine marker positive runs ((runs _).mpr stops)
    · rw [if_neg positive]
      exact .early (le_refl 0) (headerCase_events header)
        fun config reached => positive ((visits config).mp reached).2.1

end DeltaUpdate.Delta
