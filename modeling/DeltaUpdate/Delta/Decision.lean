import DeltaUpdate.Delta.Tracking

/-!
Owns the end of a run over a stored patch. A run with a positive result has read a patch
that the machine accepts, and has handed the target over. A run over a patch that the machine
accepts has a positive result when the device works and the patch and the target fit.
-/

namespace DeltaUpdate.Delta

open DeltaUpdate.Detools
open DeltaUpdate.Heatshrink
open DeltaUpdate.Library
open DeltaUpdate.Patch

/-- The machine accepts the body of a patch. -/
def BodyAccepted (task : Task) (body : List UInt8) : Prop :=
  ∃ plain padding, unpackBody body = some (plain, padding) ∧ Accepts task plain padding

/-- What the machine puts out for the body of a patch. -/
def bodyOutput (task : Task) (body : List UInt8) : List UInt8 :=
  match bodyVerdict task body with
  | some progress => progress.output
  | none => []

/-- What a positive result of a run over a patch says. -/
structure Concluded (env : Env) (task : Task) (image : List UInt8) (patchSize : Nat)
    (body : List UInt8) (world : World) : Prop where
  accepted : BodyAccepted task body
  target : task.targetSize < env.map.secondary.size
  patch : patchSize < env.map.storage.size
  image : SourceApart env.map task.low → handedImage world.log = image ++ bodyOutput task body

section

variable {env : Env} {task : Task} {memory : Memory} {patch image : List UInt8}
variable {self : ApplyPatch} {world : World} {stepped : Stepped World}
variable {typeByte : UInt8} {declared : Int} {body : List UInt8}

theorem bodyVerdict_some {plain : List UInt8} {padding : List Bool}
    (unpacked : unpackBody body = some (plain, padding)) (task : Task) :
    bodyVerdict task body = some (feedAll task startProgress plain) ∧
      bodyPadding body = some padding := by
  rw [bodyVerdict, bodyPadding, unpacked]
  exact ⟨rfl, rfl⟩

theorem BodyAccepted.accepted (accepts : BodyAccepted task body) :
    Accepted (bodyVerdict task body) := by
  obtain ⟨plain, padding, unpacked, accepts⟩ := accepts
  exact ⟨_, (bodyVerdict_some unpacked task).1, accepts.done⟩

/-- A verdict and the bits behind it are those of a body that decompresses. -/
theorem bodyAccepted_of_verdict {progress : Progress} {padding : List Bool}
    (verdict : bodyVerdict task body = some progress) (behind : bodyPadding body = some padding)
    (done : progress.position = .done) (short : padding.length < 8) :
    BodyAccepted task body ∧ bodyOutput task body = progress.output := by
  have output : bodyOutput task body = progress.output := by rw [bodyOutput, verdict]
  refine ⟨?_, output⟩
  unfold bodyVerdict at verdict
  unfold bodyPadding at behind
  cases unpacked : unpackBody body with
  | none => simp [unpacked] at verdict
  | some pair =>
      obtain ⟨plain, bits⟩ := pair
      simp only [unpacked, Option.map_some, Option.some.injEq] at verdict behind
      subst verdict behind
      exact ⟨plain, bits, unpacked, short, done⟩

/-! ### A positive result -/

/-- What an engine that is done has read, when its decoder is at rest. -/
theorem Following.concluded {progress : Progress} {history : List UInt8}
    (following : Following env.map task image self world progress)
    (matched : Matched task (bodyVerdict task body) (bodyPadding body) history progress
      self.patchReader [])
    (live : Live env.map self world) (state : self.state = .done)
    (finish : heatshrinkDecoderFinish self.patchReader.decoder = .done)
    {patchSize : Nat} (small : patchSize < env.map.storage.size) :
    Concluded env task image patchSize body world := by
  obtain ⟨verdict, done, padding, behind, short⟩ := following.aligned.concluded matched state finish
  obtain ⟨accepted, output⟩ := bodyAccepted_of_verdict verdict behind done short
  have produced := live.produced_lt
  rw [produced_of_ne following.stands.opened.1, following.whole state, following.declared]
    at produced
  exact ⟨accepted, produced, small, fun low => output ▸ following.image low⟩

/-- A run that stops with a positive result has read the whole patch inside the partition. -/
theorem runs_patchSmall {stack : ApplyPatch} {log : List Event} {patchSize : Nat}
    {config : Config World} (runs : Runs env stack memory log patchSize config) :
    ∀ res, config.phase = .stop res → 0 < res → patchSize < env.map.storage.size := by
  refine Visits.invariant_of (fun config => ∀ res, config.phase = .stop res → 0 < res →
    patchSize < env.map.storage.size) ?_ (by nofun) runs
  intro before after reached step small
  cases step with
  | halted => exact small
  | @stopped res self world stepped step ends =>
      rintro other same positive
      cases same
      obtain ⟨nonpositive, drained⟩ := runs_drained reached res rfl
      obtain ⟨zero, well⟩ := finalResult_positive nonpositive step.res_le ends positive
      have state := step.of_alreadyDone well.alreadyDone
      exact (drained zero (by rw [state]; decide)).2
  | _ => nofun

/-- A run that stops with a positive result has read a patch that is accepted, unless the
engine has gone on where the machine stops. -/
def StopConcluded (env : Env) (task : Task) (patch image : List UInt8) (config : Config World) :
    Prop :=
  ∀ res, config.phase = .stop res → 0 < res →
    ∃ typeByte declared body, Header typeByte declared body patch ∧ declared ≠ 0 ∧
      (task.low = lowestSource env.map ∨ Alive (bodyVerdict task body) →
        Concluded env task image patch.length body config.world)

theorem stopConcluded_kept {before after : Config World}
    (live : before.self.state ≠ .failed → Live env.map before.self before.world)
    (tracked : Tracked env memory task patch image before)
    (drained : Drained env patch.length before)
    (step : DriverStep (deltaCallbacks env) patch.length before after)
    (concluded : StopConcluded env task patch image before) :
    StopConcluded env task patch image after := by
  cases step with
  | halted => exact concluded
  | @stopped res self world stepped step ends =>
      rintro other same positive
      cases same
      obtain ⟨nonpositive, empty⟩ := drained res rfl
      obtain ⟨zero, well⟩ := finalResult_positive nonpositive step.res_le ends positive
      have state := step.of_alreadyDone well.alreadyDone
      obtain rfl := step.of_done state
      have running : self.state ≠ .failed := by rw [state]; decide
      obtain ⟨none, fits⟩ := empty zero running
      have tracking := tracked.tracking running zero
      change Tracking env task patch image self world self.chunk.bytes at tracking
      rw [chunk_bytes_nil none] at tracking
      rw [well.result] at positive
      cases tracking with
      | unread other => rw [state] at other; cases other
      | empty _ _ zero =>
          change 0 < intT self.toSize at positive
          rw [zero] at positive
          exact absurd positive (by decide)
      | @reading typeByte declared body header nonzero simulated =>
          refine ⟨typeByte, declared, body, header, nonzero, fun reason => ?_⟩
          cases simulated with
          | hopeless refused cause =>
              exfalso
              rcases reason with low | alive
              · rcases cause with other | doomed
                · exact other low
                · rcases doomed.data with data | data <;> rw [state] at data <;> cases data
              · exact refused alive
          | follows matched following =>
              obtain ⟨opened, running⟩ := following.stands.opened
              have set := (following.bounded.opened opened running).1
              exact following.concluded matched (live running) state (well.finish set) fits
  | _ => nofun

/-- A run that stops with a positive result has read a patch that is accepted. -/
theorem runs_concluded (stored : StoredPatch env.map memory patch)
    (slot : SlotTask env.map memory task)
    (sized : ∀ typeByte declared body, Header typeByte declared body patch →
      task.targetSize = declared.natAbs) {stack : ApplyPatch} {log : List Event}
    {config : Config World} (runs : Runs env stack memory log patch.length config) :
    StopConcluded env task patch (handedImage log) config :=
  Visits.invariant_of (StopConcluded env task patch (handedImage log))
    (fun _ _ reached step concluded => stopConcluded_kept
      (fun running => runs_live reached running) (runs_tracked stored slot sized reached)
      (runs_drained reached) step concluded)
    (by nofun) runs

/-! ### A patch that is accepted -/

/-- A patch has one header, so the size of the task is that of any header it may have. -/
theorem header_sized (header : Header typeByte declared body patch)
    (sized : task.targetSize = declared.natAbs) (otherByte : UInt8) (other : Int)
    (rest : List UInt8) (second : Header otherByte other rest patch) :
    task.targetSize = other.natAbs := by
  rw [← (header.unique second).2.1]
  exact sized

/-- No flash operation fails. -/
def Env.Works (env : Env) : Prop := ∀ log op, env.fails log op = false

/-- The target fits into the slot, or every block handed over so far does. -/
def SlotHasRoom (env : Env) (task : Task) (log : List Event) : Prop :=
  task.targetSize < env.map.secondary.size ∨ ¬ Overrun env.map log

/-- What a step does where the stream is not rejected and the device works. -/
inductive GoesOn (env : Env) (task : Task) (verdict : Option Progress)
    (padding : Option (List Bool)) (image : List UInt8) (self : ApplyPatch) (world : World)
    (later : List UInt8) (stepped : Stepped World) : Prop
  | moved (res : stepped.res = 0)
  | waiting (res : stepped.res = 1) (starves : later = [] → ¬ Accepted verdict)
  | done {history : List UInt8} {progress : Progress} (state : self.state = .done)
      (matched : Matched task verdict padding history progress self.patchReader
        (self.chunk.bytes ++ later))
      (following : Following env.map task image self world progress)

theorem Following.goes_on {verdict : Option Progress} {padding : Option (List Bool)}
    {history later : List UInt8} {progress : Progress}
    (following : Following env.map task image self world progress)
    (matched : Matched task verdict padding history progress self.patchReader
      (self.chunk.bytes ++ later))
    (live : Live env.map self world) (undisturbed : Undisturbed env.map memory world)
    (slot : SlotTask env.map memory task) (alive : Alive verdict) (works : env.Works)
    (room : SlotHasRoom env task stepped.world.log)
    (step : EngineStep (deltaCallbacks env) self world stepped) :
    GoesOn env task verdict padding image self world later stepped := by
  cases following.step live undisturbed slot matched step with
  | moved res => exact .moved res
  | waiting res matched following empty out waits =>
      refine .waiting res fun none => ?_
      rw [chunk_bytes_nil empty, none] at matched
      exact matched.not_ended out waits
  | hopeless refused => exact absurd alive refused
  | finished state => exact .done state matched following
  | device failed cause =>
      rcases cause with ⟨log, op, fails⟩ | ⟨large, overrun⟩
      · rw [works log op] at fails
        cases fails
      · rw [following.declared] at large
        rcases room with fits | kept
        · omega
        · exact absurd overrun kept

theorem Tracking.goes_on {later : List UInt8}
    (tracking : Tracking env task patch image self world (self.chunk.bytes ++ later))
    (header : Header typeByte declared body patch) (nonzero : declared ≠ 0)
    (opens : self.state = .init → self.chunk.bytes ++ later = patch → (processInit self).1 = 0)
    (live : Live env.map self world) (undisturbed : Undisturbed env.map memory world)
    (slot : SlotTask env.map memory task) (alive : Alive (bodyVerdict task body))
    (works : env.Works) (room : SlotHasRoom env task stepped.world.log)
    (step : EngineStep (deltaCallbacks env) self world stepped) :
    GoesOn env task (bodyVerdict task body) (bodyPadding body) image self world later stepped := by
  cases tracking with
  | unread state whole => exact .moved (step.of_init state (opens state whole))
  | empty other =>
      obtain ⟨-, zero, -⟩ := header.unique other
      exact absurd zero nonzero
  | reading other _ simulated =>
      obtain ⟨-, -, rfl⟩ := header.unique other
      cases simulated with
      | hopeless refused => exact absurd alive refused
      | follows matched following =>
          exact following.goes_on matched live undisturbed slot alive works room step

/-- The header of a patch lies in its first chunk. -/
theorem header_take (header : Header typeByte declared body patch) {count : Nat}
    (enough : 512 ≤ count ∨ patch.length ≤ count) :
    ∃ rest, Header typeByte declared rest (patch.take count) := by
  rcases enough with large | whole
  · obtain ⟨sizeBytes, split, sized⟩ := header.layout
    have short := sized.short
    refine ⟨body.take (count - 1 - sizeBytes.length), header.patchType, sizeBytes, ?_, sized⟩
    obtain ⟨rest, rfl⟩ : ∃ rest, count = rest + 1 := ⟨count - 1, by omega⟩
    rw [split, List.take_succ_cons, List.take_append, List.take_of_length_le (by omega),
      Nat.add_sub_cancel]
  · rw [List.take_of_length_le whole]
    exact ⟨body, header⟩

/-- The header is good when the first chunk is fed. -/
theorem processInit_first (header : Header typeByte declared body patch) {patchOffset : Nat}
    (fetching : Fetching env.map patch.length patchOffset self world)
    (available : 0 < chunkLeft self.chunk)
    (whole : self.chunk.bytes ++ patch.drop patchOffset = patch) : (processInit self).1 = 0 := by
  have chunk : self.chunk.bytes = patch.take patchOffset :=
    List.append_cancel_right (whole.trans (List.take_append_drop patchOffset patch).symm)
  have some : patchOffset ≠ 0 := by
    rintro rfl
    rw [List.take_zero] at chunk
    have length := congrArg List.length chunk
    rw [Chunk.bytes_length, List.length_nil] at length
    omega
  have enough : 512 ≤ patchOffset ∨ patch.length ≤ patchOffset :=
    fetching.aligned.imp (Nat.le_of_dvd (Nat.pos_of_ne_zero some)) fun all => all.ge
  obtain ⟨rest, opened⟩ := header_take header enough
  rw [← chunk] at opened
  exact processInit_opens opened

/-- A chunk inside the partition is read by a device that works. -/
theorem patchRead_succeeds (works : env.Works) {patchSize patchOffset size : Nat}
    (live : Live env.map self world)
    (fetching : Fetching env.map patchSize patchOffset self world) (nonempty : size ≠ 0)
    (within : patchOffset + size < env.map.storage.size) :
    (deltaFlashPatchRead env world size).1 = 0 := by
  have outcome := deltaFlashPatchRead_cases env world size
  generalize deltaFlashPatchRead env world size = read at outcome
  cases outcome with
  | empty zero => exact absurd zero nonempty
  | failed _ fails => rw [works] at fails; cases fails
  | read => rfl
  | outside _ above =>
      have cursor := fetching.cursor
      unfold CursorAt at cursor
      have bound := env.map.storage.below
      rw [cursor, live.patchEnd, intT_of_fits (by unfold FitsInt headerSize; omega)] at above
      omega

/-- Before the last chunk is used up the engine is not done. -/
theorem BodyAccepted.not_early (accepted : BodyAccepted task body) {progress : Progress}
    {history later : List UInt8}
    (matched : Matched task (bodyVerdict task body) (bodyPadding body) history progress
      self.patchReader (self.chunk.bytes ++ later))
    (following : Following env.map task image self world progress) (state : self.state = .done) :
    chunkLeft self.chunk = 0 := by
  obtain ⟨plain, padding, unpacked, accepts⟩ := accepted
  exact following.aligned.used matched (BodyAccepted.accepted ⟨plain, padding, unpacked, accepts⟩)
    accepts.short (bodyVerdict_some unpacked task).2 state

/-- The decoder of an engine that is done is at rest. -/
theorem BodyAccepted.finish (accepted : BodyAccepted task body) {progress : Progress}
    {history : List UInt8}
    (matched : Matched task (bodyVerdict task body) (bodyPadding body) history progress
      self.patchReader [])
    (following : Following env.map task image self world progress) (state : self.state = .done) :
    heatshrinkDecoderFinish self.patchReader.decoder = .done :=
  following.aligned.rests matched accepted.accepted state

/-- Nothing fails in a run over a patch that is accepted. -/
structure Succeeding (task : Task) (config : Config World) : Prop where
  drains : ∀ res, config.phase = .drain res → res = 0 ∧ config.self.state ≠ .failed
  stops : ∀ res, config.phase = .stop res → res = task.targetSize

/-- A step of a run over a patch that is accepted. -/
theorem succeeding_kept (header : Header typeByte declared body patch) (nonzero : declared ≠ 0)
    (accepted : BodyAccepted task body) (slot : SlotTask env.map memory task)
    (works : env.Works) (small : patch.length < env.map.storage.size)
    {before after : Config World} (room : SlotHasRoom env task after.world.log)
    (live : before.self.state ≠ .failed → Live env.map before.self before.world)
    {log : List Event} (paced : PatchPaced env.map log patch.length before)
    (tracked : Tracked env memory task patch image before)
    (drained : Drained env patch.length before)
    (step : DriverStep (deltaCallbacks env) patch.length before after)
    (succeeding : Succeeding task before) : Succeeding task after := by
  have alive := accepted.accepted.alive
  cases step with
  | fetched => exact ⟨by nofun, by nofun⟩
  | used => exact ⟨by nofun, by nofun⟩
  | fed => exact ⟨by nofun, by nofun⟩
  | halted => exact succeeding
  | @fetchFailed patchOffset self world below failure =>
      have fetching := paced.fetching patchOffset (Or.inl rfl)
      exact absurd (patchRead_succeeds works (live fetching.running) fetching (by omega)
        (by omega)) failure
  | @fetchedAll patchOffset self world all =>
      have fetching := paced.fetching patchOffset (Or.inl rfl)
      refine ⟨?_, by nofun⟩
      rintro res same
      cases same
      exact ⟨rfl, fetching.running⟩
  | @fedFailed patchOffset self world stepped available step negative =>
      have fetching := paced.fetching patchOffset (Or.inr rfl)
      have running := fetching.running
      cases (tracked.tracking running trivial).goes_on header nonzero
          (fun _ => processInit_first header fetching available) (live running)
          (tracked.undisturbed running trivial) slot alive works room step with
      | moved res => omega
      | waiting res => omega
      | done state matched following =>
          exact absurd (accepted.not_early matched following state) available.ne'
  | @drained res self world stepped step again =>
      obtain ⟨zero, -⟩ := succeeding.drains res rfl
      refine ⟨?_, by nofun⟩
      rintro other same
      cases same
      exact ⟨zero, mt step.failed_iff.mp (by omega)⟩
  | @stopped res self world stepped step ends =>
      refine ⟨by nofun, ?_⟩
      rintro other same
      cases same
      obtain ⟨zero, running⟩ := succeeding.drains res rfl
      obtain ⟨none, -⟩ := (drained res rfl).2 zero running
      have tracking := tracked.tracking running zero
      change Tracking env task patch image self world self.chunk.bytes at tracking
      have empty : self.chunk.bytes = [] := chunk_bytes_nil none
      rw [← List.append_nil self.chunk.bytes] at tracking
      have opens (state : self.state = .init) (whole : self.chunk.bytes ++ [] = patch) :
          (processInit self).1 = 0 := by
        obtain ⟨sizeBytes, split, -⟩ := header.layout
        rw [empty, split] at whole
        cases whole
      cases tracking.goes_on header nonzero opens (live running)
          (tracked.undisturbed running zero) slot alive works room step with
      | moved zero => exact absurd zero ends
      | waiting res starves => exact absurd accepted.accepted (starves rfl)
      | done state matched following =>
          rw [empty] at matched
          have finish := accepted.finish matched following state
          obtain ⟨-, declared, -⟩ := following.aligned.offsets
          obtain rfl := step.of_done state
          rw [zero, finalResult_done rfl finish]
          change intT self.toSize = _
          rw [intT_of_fits (by unfold FitsInt; omega), following.declared]

/-- A run over a patch that is accepted stops with the size of the target. -/
theorem runs_succeeding (header : Header typeByte declared body patch) (nonzero : declared ≠ 0)
    (accepted : BodyAccepted task body) (stored : StoredPatch env.map memory patch)
    (slot : SlotTask env.map memory task) (sized : task.targetSize = declared.natAbs)
    (works : env.Works) (small : patch.length < env.map.storage.size) {stack : ApplyPatch}
    {log : List Event}
    (room : ∀ config, Runs env stack memory log patch.length config →
      SlotHasRoom env task config.world.log)
    {config : Config World} (runs : Runs env stack memory log patch.length config) :
    Succeeding task config := by
  have sized := header_sized header sized
  refine Reaches.invariant_of (Succeeding task) ?_ runs ⟨by nofun, by nofun⟩
  intro before reached succeeding
  exact succeeding_kept header nonzero accepted slot works small
    (room _ (Reaches.next reached)) (fun running => runs_live reached running)
    (runs_patchPaced reached) (runs_tracked stored slot sized reached) (runs_drained reached)
    (driverStep_cases _ _ before) succeeding

/-- A patch that is accepted, with a target that does not fit into the slot, overruns it on a
device that works. -/
theorem runs_overrun (header : Header typeByte declared body patch) (nonzero : declared ≠ 0)
    (accepted : BodyAccepted task body) (stored : StoredPatch env.map memory patch)
    (slot : SlotTask env.map memory task) (sized : task.targetSize = declared.natAbs)
    (works : env.Works) (small : patch.length < env.map.storage.size)
    (large : env.map.secondary.size ≤ task.targetSize) (stack : ApplyPatch) (log : List Event) :
    ∃ config, Runs env stack memory log patch.length config ∧
      Overrun env.map config.world.log := by
  by_contra none
  have room (config : Config World) (runs : Runs env stack memory log patch.length config) :
      SlotHasRoom env task config.world.log :=
    Or.inr fun overrun => none ⟨config, runs, overrun⟩
  have stops := detoolsApplyPatchCallbacks_visits (deltaCallbacks env) stack
    (startWorld env.map memory log) patch.length
  have size := (runs_succeeding header nonzero accepted stored slot sized works small room
    stops).stops _ rfl
  have sized := header_sized header sized
  have positive : 0 < task.targetSize := by
    rw [sized _ _ _ header]
    exact Int.natAbs_pos.mpr nonzero
  obtain ⟨otherByte, other, rest, second, -, concluded⟩ :=
    runs_concluded stored slot sized stops _ rfl (by omega)
  obtain ⟨-, -, rfl⟩ := header.unique second
  have fits := (concluded (Or.inr accepted.accepted.alive)).target
  omega

/-! ### A patch that goes on -/

/-- A run that has not come to the chunk at an offset. -/
def BeforeChunk (patchOffset : Nat) (config : Config World) : Prop :=
  ∃ offset, config.phase = .fetch offset ∧ offset < patchOffset ∨
    config.phase = .feed offset ∧ offset ≤ patchOffset

/-- A run goes on to the next chunk while the machine neither accepts nor rejects. -/
theorem BeforeChunk.step {patchOffset : Nat} {before after : Config World}
    (waits : BeforeChunk patchOffset before)
    (header : Header typeByte declared body patch) (nonzero : declared ≠ 0)
    {final : Progress} (verdict : bodyVerdict task body = some final)
    (goes : final.position ≠ .failed) (unfinished : final.position ≠ .done)
    (slot : SlotTask env.map memory task) (works : env.Works)
    (fits : task.targetSize < env.map.secondary.size) (aligned : 512 ∣ patchOffset)
    (below : patchOffset < patch.length) (inside : patchOffset < env.map.storage.size)
    (live : before.self.state ≠ .failed → Live env.map before.self before.world)
    {log : List Event} (paced : PatchPaced env.map log patch.length before)
    (tracked : Tracked env memory task patch image before)
    (step : DriverStep (deltaCallbacks env) patch.length before after)
    (other : after.phase ≠ .fetch patchOffset) : BeforeChunk patchOffset after := by
  obtain ⟨offset, ⟨phase, early⟩ | ⟨phase, early⟩⟩ := waits
  · have fetching := paced.fetching offset (Or.inl phase)
    obtain ⟨chunks, start⟩ := fetching.aligned.resolve_right (by omega)
    obtain ⟨last, whole⟩ := aligned
    cases step with
    | fetched =>
        cases phase
        exact ⟨_, Or.inr ⟨rfl, by omega⟩⟩
    | fetchFailed _ failure =>
        cases phase
        exact absurd (patchRead_succeeds works (live fetching.running) fetching (by omega)
          (by omega)) failure
    | fetchedAll all =>
        cases phase
        omega
    | _ => cases phase
  · have fetching := paced.fetching offset (Or.inr phase)
    have running := fetching.running
    cases step with
    | used =>
        cases phase
        exact ⟨_, Or.inl ⟨rfl, lt_of_le_of_ne early fun same => other (same ▸ rfl)⟩⟩
    | fed =>
        cases phase
        exact ⟨_, Or.inr ⟨rfl, early⟩⟩
    | fedFailed available step negative =>
        cases phase
        cases (tracked.tracking running trivial).goes_on header nonzero
            (fun _ => processInit_first header fetching available) (live running)
            (tracked.undisturbed running trivial) slot ⟨final, verdict, goes⟩ works
            (Or.inl fits) step with
        | moved res => omega
        | waiting res => omega
        | done state matched following =>
            have done := (following.stands.of_done state).1
            rcases matched.settled done verdict with same | same
            · exact absurd same unfinished
            · exact absurd same goes
    | _ => cases phase

/-- As long as the machine neither accepts nor rejects the stream, every chunk is fetched. -/
theorem runs_fetches (header : Header typeByte declared body patch) (nonzero : declared ≠ 0)
    {final : Progress} (verdict : bodyVerdict task body = some final)
    (goes : final.position ≠ .failed) (unfinished : final.position ≠ .done)
    (stored : StoredPatch env.map memory patch) (slot : SlotTask env.map memory task)
    (sized : task.targetSize = declared.natAbs) (works : env.Works)
    (fits : task.targetSize < env.map.secondary.size) (stack : ApplyPatch) (log : List Event)
    {patchOffset : Nat} (aligned : 512 ∣ patchOffset) (below : patchOffset < patch.length)
    (inside : patchOffset < env.map.storage.size) :
    ∃ config, Runs env stack memory log patch.length config ∧
      config.phase = .fetch patchOffset := by
  by_contra none
  have never {config : Config World} (runs : Runs env stack memory log patch.length config) :
      config.phase ≠ .fetch patchOffset := fun phase => none ⟨config, runs, phase⟩
  have sized := header_sized header sized
  -- a run that never comes to the offset stays before it
  have stays {config : Config World} (runs : Runs env stack memory log patch.length config) :
      BeforeChunk patchOffset config := by
    refine Reaches.invariant_of (BeforeChunk patchOffset) ?_ runs ?_
    · intro before reached waits
      exact waits.step header nonzero verdict goes unfinished slot works fits aligned below inside
        (fun running => runs_live reached running) (runs_patchPaced reached)
        (runs_tracked stored slot sized reached) (driverStep_cases _ _ before)
        (never (Reaches.next reached))
    · have start : (0 : Nat) ≠ patchOffset := fun zero => never (Reaches.refl _) (zero ▸ rfl)
      exact ⟨0, Or.inl ⟨rfl, by omega⟩⟩
  obtain ⟨offset, ⟨phase, -⟩ | ⟨phase, -⟩⟩ := stays
    (detoolsApplyPatchCallbacks_visits (deltaCallbacks env) stack
      (startWorld env.map memory log) patch.length)
  · cases phase
  · cases phase

end

end DeltaUpdate.Delta
