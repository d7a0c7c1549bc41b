import DeltaUpdate.Delta.Confinement

/-!
Owns what a failure does to a call of `delta_check_and_apply`: the result is negative,
no upgrade is requested, and after a failure on the slot or on the source the flash is
left alone.
-/

namespace DeltaUpdate.Delta

open DeltaUpdate.Detools

/-- A flash operation or a check of a callback fails. -/
def Event.IsFailure : Event → Prop
  | .flash _ _ ok => ok = false
  | .refused _ => True
  | _ => False

/-- A slot write, a slot erase, a source read or a seek fails. -/
def Event.Stops : Event → Prop
  | .flash .deltaReadPatchHeader _ _ => False
  | .flash .deltaFlashPatchRead _ _ => False
  | .flash _ _ ok => ok = false
  | .refused .deltaFlashPatchRead => False
  | .refused _ => True
  | _ => False

/-- A flash operation is issued. -/
def Event.IsFlashOp : Event → Prop
  | .flash _ _ _ => True
  | _ => False

theorem Event.Stops.isFailure {event : Event} (stops : event.Stops) : event.IsFailure := by
  cases event with
  | flash issuer op ok => cases issuer <;> first | exact stops | exact stops.elim
  | refused issuer => trivial
  | _ => exact stops

/-- No flash operation follows a failure on the slot or on the source. -/
def Quiets (earlier later : Event) : Prop := earlier.Stops → ¬ later.IsFlashOp

/-- What a step appends to the log: failures come with a rejection, nothing follows a
failure that stops the run, and no upgrade is requested. -/
structure StepEvents (res : Int) (events : List Event) : Prop where
  rejects : ∀ event ∈ events, event.IsFailure → Rejected res
  ordered : events.Pairwise Quiets
  noRequest : ∀ event ∈ events, ¬ event.Requests

theorem stepEvents_nil (res : Int) : StepEvents res [] :=
  ⟨by simp, List.Pairwise.nil, by simp⟩

/-- Events without a failure may come before other events. -/
theorem StepEvents.append {first second : List Event} {res : Int}
    (clean : ∀ event ∈ first, ¬ event.IsFailure) (requests : ∀ event ∈ first, ¬ event.Requests)
    (rest : StepEvents res second) : StepEvents res (first ++ second) := by
  refine ⟨?_, ?_, ?_⟩
  · intro event among failure
    rcases List.mem_append.mp among with early | late
    · exact absurd failure (clean event early)
    · exact rest.rejects event late failure
  · refine List.pairwise_append.mpr ⟨?_, rest.ordered, ?_⟩
    · exact List.pairwise_of_forall_mem_list fun event among _ _ stops =>
        absurd stops.isFailure (clean event among)
    · exact fun event among _ _ stops => absurd stops.isFailure (clean event among)
  · intro event among
    rcases List.mem_append.mp among with early | late
    · exact requests event early
    · exact rest.noRequest event late

/-! ### The callbacks -/

/-- What a callback appends to the log, by its result: failures come with an error. -/
structure CallEvents (res : Int) (events : List Event) : Prop where
  fails : ∀ event ∈ events, event.IsFailure → res ≠ 0
  ordered : events.Pairwise Quiets
  noRequest : ∀ event ∈ events, ¬ event.Requests

theorem Prepared.events {world ready : World} {block : List UInt8}
    (prepared : Prepared world block ready) :
    ∃ before, ready.log = world.log ++ before ∧
      (before = [.handed world.flash block] ∨
        ∃ op, before = [.handed world.flash block, .flash .deltaFlashWrite op true]) := by
  cases prepared with
  | kept => exact ⟨_, rfl, Or.inl rfl⟩
  | erased => exact ⟨_, List.append_assoc _ _ _, Or.inr ⟨_, rfl⟩⟩

theorem deltaFlashWrite_events (env : Env) (world : World) (block : List UInt8) :
    ∃ events, (deltaFlashWrite env world block).2.log = world.log ++ events ∧
      CallEvents (deltaFlashWrite env world block).1 events := by
  have outcome := deltaFlashWrite_cases env world block
  generalize deltaFlashWrite env world block = written at outcome
  cases outcome with
  | eraseFailed =>
      refine ⟨[.handed world.flash block, .flash .deltaFlashWrite (eraseAhead world block) false],
        List.append_assoc _ _ _, ?_⟩
      exact ⟨fun _ _ _ => (DeltaError.result_neg _).ne, by simp [Quiets, Event.Stops],
        by simp [Event.Requests]⟩
  | @writeFailed ready prepared =>
      obtain ⟨before, log, rfl | ⟨op, rfl⟩⟩ := prepared.events
      all_goals
        refine ⟨_, by rw [World.record_log, log, List.append_assoc], ?_⟩
        exact ⟨fun _ _ _ => (DeltaError.result_neg _).ne, by simp [Quiets, Event.Stops],
          by simp [Event.Requests]⟩
  | @full ready prepared =>
      obtain ⟨before, log, rfl | ⟨op, rfl⟩⟩ := prepared.events
      all_goals
        refine ⟨_, by rw [World.record_log, World.written, log, List.append_assoc,
          List.append_assoc], ?_⟩
        exact ⟨fun _ _ _ => (DeltaError.result_neg _).ne,
          by simp [Quiets, Event.Stops, Event.IsFlashOp], by simp [Event.Requests]⟩
  | @wrote ready prepared =>
      obtain ⟨before, log, rfl | ⟨op, rfl⟩⟩ := prepared.events
      all_goals
        refine ⟨_, by rw [World.written, log, List.append_assoc], ?_⟩
        exact ⟨by simp [Event.IsFailure], by simp [Quiets, Event.Stops],
          by simp [Event.Requests]⟩

theorem deltaFlashFromRead_events (env : Env) (world : World) (size : Nat) :
    ∃ events, (deltaFlashFromRead env world size).2.2.log = world.log ++ events ∧
      CallEvents (deltaFlashFromRead env world size).1 events := by
  have outcome := deltaFlashFromRead_cases env world size
  generalize deltaFlashFromRead env world size = read at outcome
  cases outcome with
  | empty =>
      exact ⟨_, rfl, fun _ _ _ => (DeltaError.result_neg _).ne, List.pairwise_singleton _ _,
        by simp [Event.Requests]⟩
  | failed =>
      exact ⟨_, rfl, fun _ _ _ => (DeltaError.result_neg _).ne, List.pairwise_singleton _ _,
        by simp [Event.Requests]⟩
  | outside =>
      exact ⟨_, List.append_assoc _ _ _, fun _ _ _ => (DeltaError.result_neg _).ne,
        by simp [Quiets, Event.Stops], by simp [Event.Requests]⟩
  | read =>
      exact ⟨_, rfl, by simp [Event.IsFailure], List.pairwise_singleton _ _,
        by simp [Event.Requests]⟩

theorem deltaFlashSeek_events (world : World) (offset : Int) :
    ∃ events, (deltaFlashSeek world offset).2.log = world.log ++ events ∧
      CallEvents (deltaFlashSeek world offset).1 events := by
  have outcome := deltaFlashSeek_cases world offset
  generalize deltaFlashSeek world offset = sought at outcome
  cases outcome with
  | outside =>
      exact ⟨_, rfl, fun _ _ _ => (DeltaError.result_neg _).ne, List.pairwise_singleton _ _,
        by simp [Event.Requests]⟩
  | sought => exact ⟨[], by simp [World.sought], by simp, List.Pairwise.nil, by simp⟩

/-- A failed patch read does not stop the run by itself. -/
theorem deltaFlashPatchRead_events (env : Env) (world : World) (size : Nat) :
    ∃ events, (deltaFlashPatchRead env world size).2.2.log = world.log ++ events ∧
      CallEvents (deltaFlashPatchRead env world size).1 events ∧
      ∀ event ∈ events, ¬ event.Stops := by
  have outcome := deltaFlashPatchRead_cases env world size
  generalize deltaFlashPatchRead env world size = read at outcome
  cases outcome with
  | empty =>
      exact ⟨_, rfl, ⟨fun _ _ _ => (DeltaError.result_neg _).ne, List.pairwise_singleton _ _,
        by simp [Event.Requests]⟩, by simp [Event.Stops]⟩
  | failed =>
      exact ⟨_, rfl, ⟨fun _ _ _ => (DeltaError.result_neg _).ne, List.pairwise_singleton _ _,
        by simp [Event.Requests]⟩, by simp [Event.Stops]⟩
  | outside =>
      exact ⟨_, List.append_assoc _ _ _, ⟨fun _ _ _ => (DeltaError.result_neg _).ne,
        by simp [Quiets, Event.Stops], by simp [Event.Requests]⟩, by simp [Event.Stops]⟩
  | read =>
      exact ⟨_, List.append_assoc _ _ _, ⟨by simp [Event.IsFailure],
        by simp [Quiets, Event.Stops], by simp [Event.Requests]⟩, by simp [Event.Stops]⟩

/-! ### The engine -/

/-- A callback that ends a step rejects the patch when it fails. -/
theorem CallEvents.step {code res : Int} {events : List Event} (call : CallEvents code events)
    (error : code ≠ 0 → Rejected res) : StepEvents res events :=
  ⟨fun event among failure => error (call.fails event among failure), call.ordered,
    call.noRequest⟩

theorem engineStep_events {env : Env} {self : ApplyPatch} {world : World}
    {stepped : Stepped World} (step : EngineStep (deltaCallbacks env) self world stepped) :
    ∃ events, stepped.world.log = world.log ++ events ∧ StepEvents stepped.res events := by
  have ioFailed : Rejected DetoolsError.ioFailed.result := DetoolsError.rejected (by decide)
  have write {middle : ApplyPatch} {between : World} {block : List UInt8} {res : Int}
      (gathered : Gathered (deltaCallbacks env) self world middle between block)
      (error : (deltaFlashWrite env between block).1 ≠ 0 → Rejected res) :
      ∃ events, (deltaFlashWrite env between block).2.log = world.log ++ events ∧
        StepEvents res events := by
    obtain ⟨late, writeLog, writeCall⟩ := deltaFlashWrite_events env between block
    cases gathered with
    | diff state read =>
        obtain ⟨early, readLog, readCall⟩ :=
          deltaFlashFromRead_events env world (nextBlock self).data.length
        change deltaFlashFromRead env world _ = _ at read
        rw [read] at readLog readCall
        refine ⟨early ++ late, by rw [writeLog, readLog, List.append_assoc], ?_⟩
        exact (writeCall.step error).append
          (fun event among failure => readCall.fails event among failure rfl)
          readCall.noRequest
    | extra => exact ⟨late, writeLog, writeCall.step error⟩
  cases step with
  | sourceFailed state nonempty read failure =>
      obtain ⟨events, log, call⟩ :=
        deltaFlashFromRead_events env world (nextBlock self).data.length
      exact ⟨events, log, call.step fun _ => ioFailed⟩
  | wrote nonempty read gathered written =>
      exact write gathered fun failure => absurd written failure
  | writeFailed nonempty read gathered failure => exact write gathered fun _ => ioFailed
  | sought state read found =>
      obtain ⟨events, log, call⟩ := deltaFlashSeek_events world (nextSize self).size
      exact ⟨events, log, call.step fun failure => absurd found failure⟩
  | seekFailed state read failure =>
      obtain ⟨events, log, call⟩ := deltaFlashSeek_events world (nextSize self).size
      exact ⟨events, log, call.step fun _ => ioFailed⟩
  | _ => exact ⟨[], by simp, stepEvents_nil _⟩

/-! ### Runs -/

/-- The run is on its way to an error. -/
def Phase.IsError (phase : Phase) : Prop :=
  ∃ res, res < 0 ∧ (phase = .drain res ∨ phase = .stop res)

/-- Every failure so far has been noticed. -/
structure Reported (config : Config World) : Prop where
  nonpositive : ∀ res, config.phase = .drain res → res ≤ 0
  error : ∀ event ∈ config.world.log, event.IsFailure → Phase.IsError config.phase
  failed : ∀ event ∈ config.world.log, event.Stops → config.self.state = .failed
  ordered : config.world.log.Pairwise Quiets
  noRequest : ∀ event ∈ config.world.log, ¬ event.Requests

/-- Events are appended to a log in which every failure has been noticed. -/
theorem Reported.append {before after : Config World} {events : List Event}
    (reported : Reported before) (log : after.world.log = before.world.log ++ events)
    (nonpositive : ∀ res, after.phase = .drain res → res ≤ 0)
    (errorStays : Phase.IsError before.phase → Phase.IsError after.phase)
    (error : ∀ event ∈ events, event.IsFailure → Phase.IsError after.phase)
    (failedStays : before.self.state = .failed → after.self.state = .failed)
    (failed : ∀ event ∈ events, event.Stops → after.self.state = .failed)
    (ordered : events.Pairwise Quiets)
    (quiet : before.self.state = .failed → ∀ event ∈ events, ¬ event.IsFlashOp)
    (noRequest : ∀ event ∈ events, ¬ event.Requests) : Reported after := by
  refine ⟨nonpositive, ?_, ?_, ?_, ?_⟩
  · intro event among failure
    rw [log] at among
    rcases List.mem_append.mp among with old | new
    · exact errorStays (reported.error event old failure)
    · exact error event new failure
  · intro event among stops
    rw [log] at among
    rcases List.mem_append.mp among with old | new
    · exact failedStays (reported.failed event old stops)
    · exact failed event new stops
  · rw [log]
    refine List.pairwise_append.mpr ⟨reported.ordered, ordered, ?_⟩
    exact fun earlier old later new stops =>
      quiet (reported.failed earlier old stops) later new
  · intro event among
    rw [log] at among
    rcases List.mem_append.mp among with old | new
    · exact reported.noRequest event old
    · exact noRequest event new

/-- A step of the engine notices its own failures. -/
theorem Reported.engine {env : Env} {phase next : Phase} {self after : ApplyPatch} {world : World}
    {stepped : Stepped World} (reported : Reported ⟨phase, self, world⟩)
    (step : EngineStep (deltaCallbacks env) self world stepped)
    (state : after.state = stepped.self.state) (nonpositive : ∀ res, next = .drain res → res ≤ 0)
    (errorStays : Phase.IsError phase → Phase.IsError next)
    (error : Rejected stepped.res → Phase.IsError next) :
    Reported ⟨next, after, stepped.world⟩ := by
  obtain ⟨events, log, appended⟩ := engineStep_events step
  have failing : ∀ event ∈ events, event.IsFailure → after.state = .failed :=
    fun event among failure => by
      rw [state, step.failed_iff]
      exact (appended.rejects event among failure).1
  refine reported.append log nonpositive errorStays
    (fun event among failure => error (appended.rejects event among failure))
    (fun failed => by rw [state]; exact step.failed_stays failed)
    (fun event among stops => failing event among stops.isFailure)
    appended.ordered (fun failed event among => ?_) appended.noRequest
  have same := (step.of_failed failed).2.2
  rw [same] at log
  rw [List.self_eq_append_right.mp log] at among
  simp at among

/-- Reading a chunk notices its own failures. -/
theorem Reported.fetch {env : Env} {patchOffset size : Nat} {next : Phase}
    {self after : ApplyPatch} {world : World}
    (reported : Reported ⟨.fetch patchOffset, self, world⟩)
    (nonpositive : ∀ res, next = .drain res → res ≤ 0)
    (error : (deltaFlashPatchRead env world size).1 ≠ 0 → Phase.IsError next) :
    Reported ⟨next, after, (deltaFlashPatchRead env world size).2.2⟩ := by
  obtain ⟨events, log, call, unstopped⟩ := deltaFlashPatchRead_events env world size
  have noError : ¬ Phase.IsError (.fetch patchOffset) := by
    rintro ⟨res, -, phase | phase⟩ <;> cases phase
  refine ⟨nonpositive, ?_, ?_, ?_, ?_⟩
  · intro event among failure
    rw [log] at among
    rcases List.mem_append.mp among with old | new
    · exact absurd (reported.error event old failure) noError
    · exact error (call.fails event new failure)
  · intro event among stops
    rw [log] at among
    rcases List.mem_append.mp among with old | new
    · exact absurd (reported.error event old stops.isFailure) noError
    · exact absurd stops (unstopped event new)
  · rw [log]
    refine List.pairwise_append.mpr ⟨reported.ordered, call.ordered, ?_⟩
    exact fun earlier old _ _ stops =>
      absurd (reported.error earlier old stops.isFailure) noError
  · intro event among
    rw [log] at among
    rcases List.mem_append.mp among with old | new
    · exact reported.noRequest event old
    · exact call.noRequest event new

/-- The same log in another phase. -/
theorem Reported.move {phase next : Phase} {self after : ApplyPatch} {world : World}
    (reported : Reported ⟨phase, self, world⟩) (state : after.state = self.state)
    (nonpositive : ∀ res, next = .drain res → res ≤ 0)
    (errorStays : Phase.IsError phase → Phase.IsError next) :
    Reported ⟨next, after, world⟩ :=
  ⟨nonpositive, fun event among failure => errorStays (reported.error event among failure),
    fun event among stops => state.trans (reported.failed event among stops),
    reported.ordered, reported.noRequest⟩

theorem reported_kept {env : Env} {patchSize : Nat} {before after : Config World}
    (step : DriverStep (deltaCallbacks env) patchSize before after) (reported : Reported before) :
    Reported after := by
  cases step with
  | fetched below success =>
      exact reported.fetch (by simp) fun failure => absurd success failure
  | fetchFailed =>
      refine reported.fetch ?_ fun _ => ⟨_, DetoolsError.result_neg _, Or.inl rfl⟩
      rintro res ⟨⟩
      exact (DetoolsError.result_neg _).le
  | fetchedAll =>
      refine reported.move rfl ?_ ?_
      · rintro res ⟨⟩
        exact le_refl _
      · rintro ⟨res, -, phase | phase⟩ <;> cases phase
  | used =>
      apply reported.move rfl (by simp)
      rintro ⟨res, -, phase | phase⟩ <;> cases phase
  | fed available step nonneg =>
      apply reported.engine step rfl (by simp)
      · rintro ⟨res, -, phase | phase⟩ <;> cases phase
      · exact fun error => absurd error.1 (not_lt.mpr nonneg)
  | fedFailed available step negative =>
      refine reported.engine step rfl ?_ (fun _ => ⟨_, negative, Or.inl rfl⟩)
        (fun _ => ⟨_, negative, Or.inl rfl⟩)
      rintro res ⟨⟩
      exact negative.le
  | drained step again =>
      exact reported.engine step rfl (fun res phase => reported.nonpositive res phase) id
        fun error => absurd error.1 (by omega)
  | @stopped res self world stepped step ends =>
      have nonpositive := reported.nonpositive res rfl
      apply reported.engine step rfl (by simp)
      · rintro ⟨error, negative, phase | phase⟩
        · cases phase
          exact ⟨_, by rw [finalResult_error negative]; exact negative, Or.inr rfl⟩
        · cases phase
      · exact fun error => ⟨_, finalResult_rejected nonpositive error, Or.inr rfl⟩
  | halted => exact reported

/-- A run that starts without a failure notices all of them. -/
theorem runs_reported {env : Env} {stack : ApplyPatch} {memory : Memory} {log : List Event}
    {patchSize : Nat} {config : Config World} (runs : Runs env stack memory log patchSize config)
    (clean : ∀ event ∈ log, ¬ event.IsFailure) (noRequest : ∀ event ∈ log, ¬ event.Requests) :
    Reported config := by
  refine Visits.invariant Reported (fun _ _ step reported => reported_kept step reported) ?_ runs
  exact ⟨by simp [driverStart], fun event among failure => absurd failure (clean event among),
    fun event among stops => absurd stops.isFailure (clean event among),
    List.pairwise_of_forall_mem_list fun event among _ _ stops =>
      absurd stops.isFailure (clean event among), noRequest⟩

/-! ### Calls -/

/-- What a failure does to a call that ends with a log. -/
structure FailureHandled (ending : Ending) (log : List Event) : Prop where
  negative : (∃ event ∈ log, event.IsFailure) → ∃ code, code < 0 ∧ ending = .returned code
  noRequest : (∃ event ∈ log, event.IsFailure) → ∀ event ∈ log, ¬ event.Requests
  ordered : log.Pairwise Quiets

/-- A call that has returned an error before the engine starts. -/
theorem failureHandled_early {code : Int} (negative : code < 0) {log : List Event}
    (noRequest : ∀ event ∈ log, ¬ event.Requests) (ordered : log.Pairwise Quiets) :
    FailureHandled (.returned code) log :=
  ⟨fun _ => ⟨code, negative, rfl⟩, fun _ => noRequest, ordered⟩

/-- A run of the engine without a failure is followed by operations of the bootloader
only; a run with one ends in an error, and the call with it. -/
theorem failureHandled_upgrade {env : Env} {self : ApplyPatch} {res : Int} {world : World}
    (reported : Reported ⟨.stop res, self, world⟩) :
    FailureHandled (requestUpgrade env res world).1 (requestUpgrade env res world).2.log := by
  have clean (positive : 0 < res) : ∀ event ∈ world.log, ¬ event.IsFailure := by
    intro event among failure
    obtain ⟨error, negative, phase | phase⟩ := reported.error event among failure
    · cases phase
    · cases phase
      omega
  have appended (positive : 0 < res) (events : List Event) (ending : Ending)
      (boot : ∀ event ∈ events, ¬ event.IsFailure) :
      FailureHandled ending (world.log ++ events) := by
    have none : ¬ ∃ event ∈ world.log ++ events, event.IsFailure := by
      rintro ⟨event, among, failure⟩
      rcases List.mem_append.mp among with old | new
      · exact clean positive event old failure
      · exact boot event new failure
    refine ⟨fun some => absurd some none, fun some => absurd some none, ?_⟩
    exact List.pairwise_of_forall_mem_list fun event among _ _ stops =>
      absurd ⟨event, among, stops.isFailure⟩ none
  have outcome := requestUpgrade_cases env res world
  generalize requestUpgrade env res world = upgraded at outcome
  cases outcome with
  | none nonpositive =>
      refine ⟨?_, fun _ => reported.noRequest, reported.ordered⟩
      rintro ⟨event, among, failure⟩
      obtain ⟨error, negative, phase | phase⟩ := reported.error event among failure
      · cases phase
      · cases phase
        exact ⟨res, negative, rfl⟩
  | failed positive => exact appended positive _ _ (by simp [Event.IsFailure])
  | requested positive =>
      rw [World.record_log, World.record_log, List.append_assoc]
      exact appended positive _ _ (by simp [Event.IsFailure])

/-- In every call with a failing flash operation or a failing check of a callback, the
result is negative and no upgrade is requested; and after a failed slot write, slot erase,
source read or seek no flash operation is issued. -/
theorem failure_never_upgrades (env : Env) (stack : ApplyPatch) (flash : FlashMem)
    (memory : Memory) :
    let call := callOn env stack flash memory
    ((∃ event ∈ call.2.log, event.IsFailure) →
      (∃ code, code < 0 ∧ call.1 = .returned code) ∧
        ∀ ok, .bootRequestUpgrade ok ∉ call.2.log) ∧
      call.2.log.Pairwise Quiets := by
  suffices handled : FailureHandled (callOn env stack flash memory).1
      (callOn env stack flash memory).2.log by
    refine ⟨fun failure => ⟨handled.negative failure, fun ok among => ?_⟩, handled.ordered⟩
    exact handled.noRequest failure _ among trivial
  have outcome := deltaCheckAndApply_cases env stack ⟨flash, memory, []⟩
  unfold callOn
  generalize deltaCheckAndApply env stack ⟨flash, memory, []⟩ = call at outcome
  cases outcome with
  | unread header negative =>
      cases header with
      | readFailed =>
          exact failureHandled_early negative (by simp [Event.Requests])
            (List.pairwise_singleton _ _)
      | clearFailed =>
          exact failureHandled_early negative (by simp [Event.Requests])
            (by simp [Quiets, Event.Stops])
      | noPatch => exact absurd negative (lt_irrefl _)
      | cleared => exact absurd negative (lt_irrefl _)
  | idle header empty =>
      cases header with
      | noPatch =>
          exact ⟨by simp [Event.IsFailure], by simp [Event.IsFailure],
            List.pairwise_singleton _ _⟩
      | cleared =>
          exact ⟨by simp [World.cleared, headerEvents, Event.IsFailure],
            by simp [World.cleared, headerEvents, Event.IsFailure],
            by simp [World.cleared, headerEvents, Quiets, Event.Stops]⟩
  | initFailed marker positive init failure =>
      cases init with
      | failed =>
          exact failureHandled_early (DeltaError.result_neg _)
            (by simp [startWorld, World.cleared, headerEvents, Event.Requests])
            (by simp [startWorld, World.cleared, headerEvents, Quiets, Event.Stops])
      | done => exact absurd rfl failure
  | applied marker positive init =>
      cases init with
      | done =>
          refine failureHandled_upgrade (runs_reported
            (detoolsApplyPatchCallbacks_visits (deltaCallbacks env) stack _ _) ?_ ?_)
          · simp [World.cleared, headerEvents, Event.IsFailure]
          · simp [World.cleared, headerEvents, Event.Requests]

end DeltaUpdate.Delta
