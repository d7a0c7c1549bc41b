import DeltaUpdate.Delta.Output

/-!
Owns the source cursor of a run of the engine on the device. The seek callback checks
the upper end of the primary slot only, and the read callback checks it when the bytes
have been read, so the cursor and the reads stay inside exactly when no seek leaves the
slot downwards and no read crosses its end.
-/

namespace DeltaUpdate.Delta

open DeltaUpdate.Detools

/-! ### Source moves -/

/-- How far the next step moves the source cursor. -/
inductive MovesSource (engine : ApplyPatch) : Int → Prop
  | read (state : engine.state = .diffData) (nonempty : blockRoom engine ≠ 0)
      (block : (nextBlock engine).res = 0) :
      MovesSource engine (nextBlock engine).data.length
  | seek (state : engine.state = .adjustment) (size : (nextSize engine).res = 0) :
      MovesSource engine (nextSize engine).size

/-- The next move starts a read that ends inside the primary slot, or is a seek that does
not fall below it. -/
structure MoveInside (map : FlashMap) (engine : ApplyPatch) (flash : FlashMem) : Prop where
  low : ∀ change, MovesSource engine change → map.primary.offset ≤ flash.fromCurrent + change
  high : engine.state = .diffData → ∀ change, MovesSource engine change →
    flash.fromCurrent + change ≤ map.primary.offset + map.primary.size

/-- If the event is a read of the source, it keeps to the primary slot. -/
def Event.SourceWithin (map : FlashMap) (event : Event) : Prop :=
  ∀ address size ok, event = .flash .deltaFlashFromRead (.read address size) ok →
    ∀ byte : Int, address ≤ byte → byte < address + size → map.primary.Contains byte

/-- What the source cursor of a run keeps to in a state of it. -/
structure SourceKept (map : FlashMap) (log : List Event) (config : Config World) : Prop where
  cursor : config.self.state ≠ .failed →
    map.primary.offset ≤ config.world.flash.fromCurrent ∧
      config.world.flash.fromCurrent ≤ map.primary.offset + map.primary.size
  /-- Neither update overflows. -/
  exact : config.Steps → ∀ change, MovesSource config.self change →
    FitsInt (config.world.flash.fromCurrent + change) ∧ FitsInt (config.self.fromOffset + change)
  reads : Extends (Event.SourceWithin map) log config.world.log

/-! ### What the callbacks record -/

section

variable {map : FlashMap} {env : Env} {start : List Event} {world : World}

theorem sourceWithin_other {issuer : Issuer} {log : List Event}
    (extended : Extends (Event.SourceWithin map) start world.log)
    (records : Extends (Event.IssuedBy issuer) world.log log)
    (other : issuer ≠ .deltaFlashFromRead) : Extends (Event.SourceWithin map) start log := by
  refine extended.trans (records.mono fun event issued => ?_)
  rintro address size ok rfl
  exact absurd issued.symm other

theorem sourceWithin_read (extended : Extends (Event.SourceWithin map) start world.log)
    {size : Nat} (low : map.primary.offset ≤ world.flash.fromCurrent)
    (high : world.flash.fromCurrent + size ≤ map.primary.offset + map.primary.size) :
    Extends (Event.SourceWithin map) start (deltaFlashFromRead env world size).2.2.log := by
  have outcome := deltaFlashFromRead_cases env world size
  generalize deltaFlashFromRead env world size = read at outcome
  have inside : ∀ ok, Event.SourceWithin map
      (.flash .deltaFlashFromRead (.read world.flash.fromCurrent size) ok) := by
    intro ok address count again same byte above below
    cases same
    unfold Partition.Contains
    omega
  cases outcome with
  | empty => exact extended.record (by nofun)
  | failed => exact extended.record (inside _)
  | outside => exact (extended.record (inside _)).record (by nofun)
  | read => exact extended.record (inside _)

/-- A read that is asked for is issued, whatever comes of it. -/
theorem deltaFlashFromRead_issues (env : Env) (world : World) {size : Nat} (nonempty : size ≠ 0) :
    ∃ ok, (world.log ++
        [.flash .deltaFlashFromRead (.read world.flash.fromCurrent size) ok]) <+:
      (deltaFlashFromRead env world size).2.2.log := by
  have outcome := deltaFlashFromRead_cases env world size
  generalize deltaFlashFromRead env world size = read at outcome
  cases outcome with
  | empty zero => exact absurd zero nonempty
  | failed => exact ⟨false, List.prefix_rfl⟩
  | outside => exact ⟨true, List.prefix_append _ _⟩
  | read => exact ⟨true, List.prefix_rfl⟩

/-- A step that reads the source issues the read. -/
theorem sourceRead_issued {self : ApplyPatch} (env : Env) (world : World)
    (state : self.state = .diffData) (nonempty : blockRoom self ≠ 0)
    (block : (nextBlock self).res = 0) :
    ∃ ok, (world.log ++ [.flash .deltaFlashFromRead
        (.read world.flash.fromCurrent (nextBlock self).data.length) ok]) <+:
      (applyPatchProcessOnce (deltaCallbacks env) self world).world.log := by
  have some : (nextBlock self).data.length ≠ 0 := (nextBlock_length nonempty block).1.ne'
  obtain ⟨ok, issued⟩ := deltaFlashFromRead_issues env world some
  refine ⟨ok, issued.trans ?_⟩
  have switch : processState (deltaCallbacks env) self world =
      addSource (deltaCallbacks env) self.afterBlock world (nextBlock self).data := by
    rw [← processDiffData_block (deltaCallbacks env) nonempty block]
    simp only [processState, state]
  rw [applyPatchProcessOnce_world, switch]
  rcases addSource_world (deltaCallbacks env) self.afterBlock world (nextBlock self).data with
    same | ⟨handed, same⟩
  · rw [same]
    exact List.prefix_rfl
  · rw [same]
    exact (deltaFlashWrite_records env _ handed).grows

end

/-! ### Steps -/

/-- The source offset of an engine that has not failed, and the reads of its run. -/
structure SourceSound (map : FlashMap) (log : List Event) (engine : ApplyPatch) (world : World) :
    Prop where
  offset : engine.state ≠ .failed → 0 ≤ engine.fromOffset ∧ engine.fromOffset ≤ map.primary.size
  reads : Extends (Event.SourceWithin map) log world.log

/-- The cursor of an engine that has not failed is the start of the slot and the offset. -/
theorem Live.fromCurrent_eq {map : FlashMap} {engine : ApplyPatch} {world : World}
    (live : Live map engine world)
    (offset : 0 ≤ engine.fromOffset ∧ engine.fromOffset ≤ map.primary.size) :
    world.flash.fromCurrent = map.primary.offset + engine.fromOffset := by
  have below := map.primary.below
  rw [live.source, intT_of_fits]
  unfold FitsInt
  omega

/-- A move from inside the slot by less than `2 ^ 27` does not overflow. -/
theorem move_fits {map : FlashMap} {offset change : Int}
    (bounds : 0 ≤ offset ∧ offset ≤ map.primary.size) (low : -2 ^ 27 < change)
    (high : change < 2 ^ 27) :
    FitsInt (map.primary.offset + offset + change) ∧ FitsInt (offset + change) := by
  have below := map.primary.below
  unfold FitsInt
  omega

theorem MovesSource.small {engine : ApplyPatch} {change : Int} (moves : MovesSource engine change)
    (sound : ReaderSound engine) : -2 ^ 27 < change ∧ change < 2 ^ 27 := by
  cases moves with
  | read state nonempty block =>
      have within := nextBlock_length nonempty block
      omega
  | seek state =>
      have small := sound.nextSize (by simp [state]) (by simp [state])
      exact ⟨small.low, small.high⟩

theorem MovesSource.running {engine : ApplyPatch} {change : Int}
    (moves : MovesSource engine change) : engine.state ≠ .failed := by
  cases moves with
  | read state => simp [state]
  | seek state => simp [state]

section

variable {env : Env} {log : List Event} {self : ApplyPatch} {world : World}
variable {stepped : Stepped World}

/-- Gathering a block reads the source inside the slot, if the block ends inside it. -/
theorem SourceSound.gather {middle : ApplyPatch} {between : World} {block : List UInt8}
    (sound : SourceSound env.map log self world) (live : Live env.map self world)
    (inside : MoveInside env.map self world.flash) (nonempty : blockRoom self ≠ 0)
    (success : (nextBlock self).res = 0)
    (gathered : Gathered (deltaCallbacks env) self world middle between block) :
    (0 ≤ middle.fromOffset ∧ middle.fromOffset ≤ env.map.primary.size) ∧
      Extends (Event.SourceWithin env.map) log between.log := by
  cases gathered with
  | diff state read =>
      have offset := sound.offset (by simp [state])
      have cursor := live.fromCurrent_eq offset
      have moves := MovesSource.read state nonempty success
      have low := inside.low _ moves
      have high := inside.high state _ moves
      have below := env.map.primary.below
      change deltaFlashFromRead env world _ = _ at read
      have reads : Extends (Event.SourceWithin env.map) log
          (deltaFlashFromRead env world (nextBlock self).data.length).2.2.log :=
        sourceWithin_read sound.reads (by omega) high
      rw [read] at reads
      refine ⟨?_, reads⟩
      simp only
      rw [intT_of_fits (by unfold FitsInt; omega)]
      omega
  | extra state => exact ⟨sound.offset (by simp [state]), sound.reads⟩

theorem SourceSound.step (sound : SourceSound env.map log self world)
    (reader : ReaderSound self) (live : self.state ≠ .failed → Live env.map self world)
    (inside : MoveInside env.map self world.flash)
    (step : EngineStep (deltaCallbacks env) self world stepped) :
    SourceSound env.map log stepped.self stepped.world := by
  cases step with
  | rejected _ _ _ failed => exact ⟨fun running => absurd failed running, sound.reads⟩
  | finished => exact ⟨fun running => absurd rfl running, sound.reads⟩
  | opened state header =>
      refine ⟨fun _ => ?_, sound.reads⟩
      simp only
      rw [(processInit_opened header).fromOffset]
      exact sound.offset (by simp [state])
  | waitingSize state => exact ⟨fun _ => sound.offset state.running.2, sound.reads⟩
  | waitingBlock state =>
      exact ⟨fun _ => sound.offset (readsBlock_running state).2, sound.reads⟩
  | dfpatch state => exact ⟨fun _ => sound.offset (by simp [state]), sound.reads⟩
  | sized states => exact ⟨fun _ => sound.offset states.reads.1.running.2, sound.reads⟩
  | emptied states =>
      exact ⟨fun _ => sound.offset (readsBlock_running states.reads.1).2, sound.reads⟩
  | sourceFailed state nonempty success =>
      refine ⟨fun running => absurd rfl running, ?_⟩
      have cursor := (live (by simp [state])).fromCurrent_eq (sound.offset (by simp [state]))
      have offset := sound.offset (by simp [state])
      exact sourceWithin_read sound.reads (by omega)
        (inside.high state _ (.read state nonempty success))
  | @wrote middle between block nonempty success gathered =>
      have running := (readsBlock_running gathered.frame.1).2
      obtain ⟨offset, reads⟩ := sound.gather (live running) inside nonempty success gathered
      exact ⟨fun _ => offset,
        sourceWithin_other reads (deltaFlashWrite_records env between block) (by decide)⟩
  | @writeFailed middle between block nonempty success gathered =>
      have running := (readsBlock_running gathered.frame.1).2
      obtain ⟨offset, reads⟩ := sound.gather (live running) inside nonempty success gathered
      exact ⟨fun running => absurd rfl running,
        sourceWithin_other reads (deltaFlashWrite_records env between block) (by decide)⟩
  | sought state size found =>
      refine ⟨fun _ => ?_,
        sourceWithin_other sound.reads (deltaFlashSeek_records world _) (by decide)⟩
      have running : self.state ≠ .failed := by simp [state]
      have offset := sound.offset running
      have cursor := (live running).fromCurrent_eq offset
      have ends := (live running).fromEnd
      have moves := MovesSource.seek state size
      obtain ⟨low, high⟩ := moves.small reader
      obtain ⟨fits, offsetFits⟩ := move_fits offset low high
      have above := inside.low _ moves
      have below := (deltaFlashSeek_accepted found).1
      rw [cursor, intT_of_fits fits] at below
      simp only
      rw [intT_of_fits offsetFits]
      omega
  | seekFailed =>
      exact ⟨fun running => absurd rfl running,
        sourceWithin_other sound.reads (deltaFlashSeek_records world _) (by decide)⟩

end

/-! ### Runs -/

section

variable (env : Env) (stack : ApplyPatch) (memory : Memory) (log : List Event) (patchSize : Nat)

theorem runs_sourceSound
    (inside : ∀ config, Runs env stack memory log patchSize config → config.Steps →
      MoveInside env.map config.self config.world.flash)
    {config : Config World} (runs : Runs env stack memory log patchSize config) :
    SourceSound env.map log config.self config.world := by
  refine Visits.engine_invariant (SourceSound env.map log) ?_ ?_ ?_ ?_ runs
  · intro self world patchOffset chunk sound
    exact ⟨sound.offset, sound.reads⟩
  · intro self world size sound
    exact ⟨sound.offset,
      sourceWithin_other sound.reads (deltaFlashPatchRead_records env world size) (by decide)⟩
  · intro config reached steps stepped step sound
    exact sound.step (runs_readerSound env stack memory log patchSize reached)
      (fun running => runs_live reached running) (inside config reached steps) step
  · exact ⟨fun _ => ⟨le_refl _, Int.natCast_nonneg _⟩, Extends.refl _ _⟩

/-- A seek below the slot succeeds. -/
theorem seekBelow_succeeds {self : ApplyPatch} {world : World} (live : Live env.map self world)
    (state : self.state = .adjustment) (size : (nextSize self).res = 0)
    (exact : FitsInt (world.flash.fromCurrent + (nextSize self).size))
    (below : world.flash.fromCurrent + (nextSize self).size < env.map.primary.offset) :
    (applyPatchProcessOnce (deltaCallbacks env) self world).self.state ≠ .failed ∧
      (applyPatchProcessOnce (deltaCallbacks env) self world).world.flash.fromCurrent <
        env.map.primary.offset := by
  have ends := live.fromEnd
  have found : deltaFlashSeek world (nextSize self).size =
      (0, world.sought (nextSize self).size) := by
    have outcome := deltaFlashSeek_cases world (nextSize self).size
    generalize deltaFlashSeek world (nextSize self).size = sought at outcome
    cases outcome with
    | outside above =>
        rw [intT_of_fits exact] at above
        omega
    | sought => rfl
  have switch : processState (deltaCallbacks env) self world =
      processAdjustment (deltaCallbacks env) self world := by
    simp only [processState, state]
  rw [processAdjustment_eq, if_neg (not_not.mpr size)] at switch
  change _ = if (deltaFlashSeek world (nextSize self).size).1 ≠ 0 then _ else _ at switch
  rw [if_neg (by rw [found]; exact not_not.mpr rfl)] at switch
  rw [applyPatchProcessOnce_kept _ (by rw [switch]; simp), switch]
  constructor
  · simp only
    split <;> simp
  · change (deltaFlashSeek world (nextSize self).size).2.flash.fromCurrent < _
    rw [found]
    simp only [World.sought]
    rw [intT_of_fits exact]
    exact below

/-- The source cursor and the source reads stay inside the primary slot in every state of
a run exactly when every step moves the cursor inside the slot. -/
theorem source_kept_iff :
    (∀ config, Runs env stack memory log patchSize config → SourceKept env.map log config) ↔
      ∀ config, Runs env stack memory log patchSize config → config.Steps →
        MoveInside env.map config.self config.world.flash := by
  constructor
  · intro kept config runs steps
    obtain ⟨after, reached, world, chunk, same⟩ := Visits.steps runs steps
    have now := kept config runs
    have later := kept after reached
    refine ⟨fun change moves => ?_, fun state change moves => ?_⟩
    · have cursor := now.cursor moves.running
      obtain ⟨exact, -⟩ := now.exact steps change moves
      cases moves with
      | read => omega
      | seek state size =>
          by_contra leaves
          obtain ⟨running, below⟩ := seekBelow_succeeds env
            (runs_live runs (by simp [state])) state size exact (not_le.mp leaves)
          have bound := (later.cursor (by rw [same]; exact running)).1
          rw [world] at bound
          exact absurd bound (not_le.mpr below)
    · cases moves with
      | seek other => simp [state] at other
      | read _ nonempty block =>
          have some := (nextBlock_length nonempty block).1
          obtain ⟨ok, issued⟩ := sourceRead_issued env config.world state nonempty block
          rw [← world] at issued
          have within := now.reads.newest later.reads issued _ _ ok rfl
            (config.world.flash.fromCurrent + (nextBlock config.self).data.length - 1)
            (by omega) (by omega)
          have bound := within.2
          omega
  · intro inside config runs
    have sound := runs_sourceSound env stack memory log patchSize inside runs
    refine ⟨fun running => ?_, fun steps change moves => ?_, sound.reads⟩
    · have offset := sound.offset running
      rw [(runs_live runs running).fromCurrent_eq offset]
      omega
    · have offset := sound.offset moves.running
      obtain ⟨low, high⟩ := moves.small (runs_readerSound env stack memory log patchSize runs)
      rw [(runs_live runs moves.running).fromCurrent_eq offset]
      exact move_fits offset low high

end

/-- A patch whose only record puts one byte out and moves the source back by one. -/
def seekBelowPatch : List UInt8 := [0x04, 0x02, 0x44, 0x80, 0x40, 0x20, 0x3a, 0xaa, 0x08]

/-- The source cursor is moved below the primary slot. -/
theorem source_leaves_slot :
    ¬ ∀ config, Runs (Env.flawless buildMap) zeroStack
      (placeAt 0xf8000 (Script.packed seekBelowPatch)) [] 9 config →
        SourceKept buildMap [] config := by
  intro kept
  have final := detoolsApplyPatchCallbacks_visits (deltaCallbacks (Env.flawless buildMap))
    zeroStack (startWorld buildMap (placeAt 0xf8000 (Script.packed seekBelowPatch)) []) 9
  have cursor := (kept _ final).cursor (by decide +kernel)
  revert cursor
  decide +kernel

end DeltaUpdate.Delta
