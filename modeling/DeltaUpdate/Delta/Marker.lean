import DeltaUpdate.Delta.Confinement

/-!
Owns lives of a device: calls of `delta_check_and_apply` with failures and resets, and what
is written to the flash between them. The marker of the patch header is cleared before
anything else changes, and nothing that follows reaches the patch partition, so a patch that
has been flashed is applied at most once.
-/

namespace DeltaUpdate.Delta

open DeltaUpdate.Detools

/-! ### The shape of one call -/

/-- An operation on the patch header. -/
def Event.FromHeader : Event → Prop
  | .flash .deltaReadPatchHeader _ _ => True
  | _ => False

/-- The log goes on with events that are no operations on the header. -/
def HeaderBehind (start log : List Event) : Prop :=
  Extends (fun event => ¬ event.FromHeader) start log

/-- Behind the header no operation on it is issued. -/
theorem header_kept (env : Env) (start : List Event) :
    KeptByCallbacks env fun world => HeaderBehind start world.log where
  source := by
    intro world size extended
    have outcome := deltaFlashFromRead_cases env world size
    generalize deltaFlashFromRead env world size = read at outcome
    cases outcome with
    | empty => exact extended.record id
    | failed => exact extended.record id
    | outside => exact (extended.record id).record id
    | read => exact extended.record id
  seek := by
    intro world offset extended
    have outcome := deltaFlashSeek_cases world offset
    generalize deltaFlashSeek world offset = sought at outcome
    cases outcome with
    | outside => exact extended.record id
    | sought => exact extended
  patch := by
    intro world size extended
    have outcome := deltaFlashPatchRead_cases env world size
    generalize deltaFlashPatchRead env world size = read at outcome
    cases outcome with
    | empty => exact extended.record id
    | failed => exact extended.record id
    | outside => exact (extended.record id).record id
    | read => exact (extended.record id).record id
  write := by
    intro world block cursor nonempty small extended
    have within : CallWithin env.map world.flash block :=
      ⟨cursor.low, cursor.high, cursor.counted, nonempty, small⟩
    obtain ⟨ops, written, writer⟩ := deltaFlashWrite_log within
    rw [written]
    apply extended.append
    intro event among
    rcases List.mem_cons.mp among with rfl | issued
    · exact id
    · rcases writer.only event issued with rfl | ⟨op, ok, rfl, -⟩ <;> exact id

/-- How a call ends, and what it records. -/
inductive CallShape (map : FlashMap) (memory : Memory) : Ending → List Event → Prop
  | unread :
      CallShape map memory (.returned DeltaError.patchHeaderError.result)
        [.flash .deltaReadPatchHeader (.read map.storage.offset 8) false]
  | noPatch (other : headerWord map memory 0 ≠ newPatch) :
      CallShape map memory (.returned 0)
        [.flash .deltaReadPatchHeader (.read map.storage.offset 8) true]
  | clearFailed (marker : headerWord map memory 0 = newPatch) :
      CallShape map memory (.returned DeltaError.patchHeaderError.result)
        [.flash .deltaReadPatchHeader (.read map.storage.offset 8) true,
          .flash .deltaReadPatchHeader (.write map.storage.offset resetMsg) false]
  | cleared (marker : headerWord map memory 0 = newPatch) (ending : Ending) (rest : List Event)
      (others : ∀ event ∈ rest, ¬ event.FromHeader) :
      CallShape map memory ending (headerEvents map ++ rest)

/-- A call adds the events of one of these shapes to the log. -/
theorem deltaCheckAndApply_shape (env : Env) (stack : ApplyPatch) (world : World) :
    ∃ events, (deltaCheckAndApply env stack world).2.log = world.log ++ events ∧
      CallShape env.map world.memory (deltaCheckAndApply env stack world).1 events := by
  have outcome := deltaCheckAndApply_cases env stack world
  generalize deltaCheckAndApply env stack world = call at outcome
  cases outcome with
  | unread header negative =>
      cases header with
      | readFailed => exact ⟨_, rfl, .unread⟩
      | clearFailed marker => exact ⟨_, List.append_assoc _ _ _, .clearFailed marker⟩
      | noPatch => exact absurd negative (lt_irrefl _)
      | cleared => exact absurd negative (lt_irrefl _)
  | idle header empty =>
      cases header with
      | noPatch other => exact ⟨_, rfl, .noPatch other⟩
      | cleared marker => exact ⟨headerEvents env.map, rfl, .cleared marker _ [] (by simp)⟩
  | initFailed marker positive init failure =>
      cases init with
      | failed =>
          exact ⟨_, List.append_assoc _ _ _,
            .cleared marker _ [.flash .deltaInit (firstErase env.map) false]
              (by simp [Event.FromHeader])⟩
      | done => exact absurd rfl failure
  | @applied marker positive inited init =>
      have start : HeaderBehind (world.log ++ headerEvents env.map) inited.log := by
        cases init with
        | done =>
            exact ⟨[.flash .deltaInit (firstErase env.map) true], rfl, by simp [Event.FromHeader]⟩
      obtain ⟨before, log, rfl, runs⟩ := init.runs stack (headerWord env.map world.memory 4)
      have extended := (header_kept env (world.log ++ headerEvents env.map)).runs runs start
      generalize detoolsApplyPatchCallbacks (deltaCallbacks env) stack _ _ = applied
        at extended ⊢
      have upgraded := requestUpgrade_cases env applied.res applied.world
      generalize requestUpgrade env applied.res applied.world = call at upgraded
      have shape (ending : Ending) {log : List Event}
          (extended : HeaderBehind (world.log ++ headerEvents env.map) log) :
          ∃ events, log = world.log ++ events ∧
            CallShape env.map world.memory ending events := by
        obtain ⟨rest, rfl, others⟩ := extended
        exact ⟨_, List.append_assoc _ _ _, .cleared marker ending rest others⟩
      cases upgraded with
      | none => exact shape _ extended
      | failed => exact shape _ (extended.record id)
      | requested => exact shape _ ((extended.record id).record id)

theorem callOn_shape (env : Env) (stack : ApplyPatch) (flash : FlashMem) (memory : Memory) :
    CallShape env.map memory (callOn env stack flash memory).1
      (callOn env stack flash memory).2.log := by
  obtain ⟨events, same, shape⟩ := deltaCheckAndApply_shape env stack ⟨flash, memory, []⟩
  rw [callOn, same]
  exact shape

/-! ### Calls that fail and are cut short -/

/-- One call: what fails, what the stack and the cursors hold, and the number of events
after which the device is reset, if it is. -/
structure Attempt where
  fails : List Event → FlashOp → Bool
  upgradeFails : Bool
  stack : ApplyPatch
  flash : FlashMem
  cut : Option Nat

/-- The call, if it is not cut short. -/
def Attempt.call (attempt : Attempt) (map : FlashMap) (memory : Memory) : Ending × World :=
  callOn ⟨map, attempt.fails, attempt.upgradeFails⟩ attempt.stack attempt.flash memory

/-- What happens until the call ends or the device is reset. -/
def Attempt.events (attempt : Attempt) (map : FlashMap) (memory : Memory) : List Event :=
  match attempt.cut with
  | none => (attempt.call map memory).2.log
  | some count => (attempt.call map memory).2.log.take count

/-- The secondary slot is written or erased, or an upgrade is requested. -/
def Event.Acts (map : FlashMap) (event : Event) : Prop :=
  event.Requests ∨ ∃ address, map.secondary.Contains address ∧ event.Touches address

/-- The call does something to the slot or requests an upgrade. -/
def Attempt.Acts (map : FlashMap) (memory : Memory) (attempt : Attempt) : Prop :=
  ∃ event ∈ attempt.events map memory, event.Acts map

/-- The marker has been cleared and the rest of the patch partition is the same. -/
def MarkerCleared (map : FlashMap) (before after : Memory) : Prop :=
  headerWord map before 0 = newPatch ∧
    ∀ address, map.storage.Contains address →
      after address = if address < map.storage.offset + 4 then 0 else before address

theorem Attempt.events_cut (attempt : Attempt) (map : FlashMap) (memory : Memory) :
    attempt.events map memory <+: (attempt.call map memory).2.log := by
  unfold Attempt.events
  split
  · exact List.prefix_rfl
  · exact List.take_prefix _ _

/-- A prefix of a log that starts with the header stops within it or goes on behind it. -/
theorem prefix_of_header {map : FlashMap} {events rest : List Event}
    (cut : events <+: headerEvents map ++ rest) :
    events = [] ∨ events = [.flash .deltaReadPatchHeader (.read map.storage.offset 8) true] ∨
      ∃ done, done <+: rest ∧ events = headerEvents map ++ done := by
  match events, cut with
  | [], _ => exact Or.inl rfl
  | [first], cut =>
      have same := (List.cons_prefix_cons.mp cut).1
      exact Or.inr (Or.inl (by rw [same]))
  | first :: second :: done, cut =>
      obtain ⟨same, cut⟩ := List.cons_prefix_cons.mp cut
      obtain ⟨also, cut⟩ := List.cons_prefix_cons.mp cut
      exact Or.inr (Or.inr ⟨done, cut, by rw [same, also]; rfl⟩)

/-- A read of the header, or a clearing of it that fails. -/
def Event.Inert (map : FlashMap) (event : Event) : Prop :=
  (∃ ok, event = .flash .deltaReadPatchHeader (.read map.storage.offset 8) ok) ∨
    event = .flash .deltaReadPatchHeader (.write map.storage.offset resetMsg) false

theorem replay_inert {map : FlashMap} {events : List Event}
    (inert : ∀ event ∈ events, event.Inert map) (memory : Memory) :
    replay memory events = memory := by
  induction events with
  | nil => rfl
  | cons event events inductionHypothesis =>
      have same : event.apply memory = memory := by
        rcases inert event List.mem_cons_self with ⟨ok, rfl⟩ | rfl
        · cases ok <;> rfl
        · rfl
      rw [replay_cons, same]
      exact inductionHypothesis fun later among => inert later (List.mem_cons_of_mem _ among)

theorem clearedMemory_marker (map : FlashMap) (memory : Memory) {address : Int}
    (low : map.storage.offset ≤ address) :
    clearedMemory map memory address =
      if address < map.storage.offset + 4 then 0 else memory address := by
  have zeros : ∀ index, resetMsg.getD index 0 = 0
    | 0 | 1 | 2 | 3 => rfl
    | _ + 4 => rfl
  change (if map.storage.offset ≤ address ∧ address < map.storage.offset + 4
    then memory address &&& resetMsg.getD (address - map.storage.offset).toNat 0
    else memory address) = _
  by_cases marker : address < map.storage.offset + 4
  · rw [if_pos marker, if_pos ⟨low, marker⟩, zeros, UInt8.and_zero]
  · rw [if_neg marker, if_neg fun inside => marker inside.2]

/-- The patch partition is as in the image. -/
def PartitionSame (map : FlashMap) (image memory : Memory) : Prop :=
  ∀ address, map.storage.Contains address → memory address = image address

section

variable (storage : { partition : Partition // partition.offset = 0xf8000 })

/-- An inert event does not act on the device. -/
theorem inert_acts_not {event : Event} (inert : event.Inert (deviceMap storage)) :
    ¬ event.Acts (deviceMap storage) := by
  obtain ⟨-, -, -, slotEnd, patchStart⟩ := deviceMap_layout storage
  rcases inert with ⟨ok, rfl⟩ | rfl
  · rintro (requests | ⟨address, -, touches⟩)
    · exact requests
    · exact touches
  · rintro (requests | ⟨address, inside, touches⟩)
    · exact requests
    · have marked := marker_touched touches
      have high := inside.2
      omega

/-- A call changes nothing and does not act, or it clears the marker and leaves the rest
of the patch partition as it was. -/
theorem attempt_effect (attempt : Attempt) (memory : Memory) :
    ((∀ event ∈ attempt.events (deviceMap storage) memory, event.Inert (deviceMap storage)) ∧
        replay memory (attempt.events (deviceMap storage) memory) = memory) ∨
      MarkerCleared (deviceMap storage) memory
        (replay memory (attempt.events (deviceMap storage) memory)) := by
  have cut := attempt.events_cut (deviceMap storage) memory
  have shape := callOn_shape ⟨deviceMap storage, attempt.fails, attempt.upgradeFails⟩
    attempt.stack attempt.flash memory
  have near := slotOps_near ⟨deviceMap storage, attempt.fails, attempt.upgradeFails⟩
    attempt.stack attempt.flash memory
  change (attempt.events (deviceMap storage) memory) <+: (callOn _ _ _ _).2.log at cut
  generalize attempt.events (deviceMap storage) memory = events at cut ⊢
  generalize callOn _ _ _ _ = call at cut shape near
  have still (inert : ∀ event ∈ events, event.Inert (deviceMap storage)) :
      (∀ event ∈ events, event.Inert (deviceMap storage)) ∧ replay memory events = memory :=
    ⟨inert, replay_inert inert memory⟩
  obtain ⟨ending, after⟩ := call
  generalize log : after.log = record at cut shape near
  cases shape with
  | unread =>
      refine Or.inl (still fun event among => ?_)
      have among := cut.subset among
      simp only [List.mem_singleton] at among
      exact Or.inl ⟨_, among⟩
  | noPatch =>
      refine Or.inl (still fun event among => ?_)
      have among := cut.subset among
      simp only [List.mem_singleton] at among
      exact Or.inl ⟨_, among⟩
  | clearFailed =>
      refine Or.inl (still fun event among => ?_)
      have among := cut.subset among
      simp only [List.mem_cons, List.not_mem_nil, or_false] at among
      rcases among with read | clear
      · exact Or.inl ⟨_, read⟩
      · exact Or.inr clear
  | cleared marker ending rest others =>
      rcases prefix_of_header cut with rfl | rfl | ⟨done, within, rfl⟩
      · exact Or.inl (still (by simp))
      · refine Or.inl (still fun event among => ?_)
        exact Or.inl ⟨_, List.mem_singleton.mp among⟩
      · refine Or.inr ⟨marker, fun address inside => ?_⟩
        obtain ⟨-, -, -, slotEnd, patchStart⟩ := deviceMap_layout storage
        have away : ∀ event ∈ done, ¬ event.Touches address := by
          intro event among touches
          have later := within.subset among
          cases event with
          | flash issuer op ok =>
              have notHeader : issuer ≠ .deltaReadPatchHeader := by
                rintro rfl
                exact others _ later trivial
              have bounds := near issuer op ok (List.mem_append_right _ later) notHeader address
                touches
              have low := inside.1
              unfold pageSize at bounds
              simp only at bounds
              omega
          | _ => exact touches
        have cleared : replay memory (headerEvents (deviceMap storage)) =
            clearedMemory (deviceMap storage) memory := rfl
        rw [replay_append, cleared, replay_untouched away]
        exact clearedMemory_marker _ _ inside.1

/-- The marker bytes lie in the patch partition. -/
theorem marker_inside {index : Nat} (small : index < 4) :
    (deviceMap storage).storage.Contains ((deviceMap storage).storage.offset + index) := by
  obtain ⟨pages, size⟩ := (deviceMap storage).storage.sizeAligned
  have positive := (deviceMap storage).storage.positive
  unfold pageSize at size
  unfold Partition.Contains
  omega

theorem markerCleared_word {before after : Memory}
    (cleared : MarkerCleared (deviceMap storage) before after) :
    headerWord (deviceMap storage) after 0 = 0 := by
  have zero (index : Nat) (small : index < 4) :
      after ((deviceMap storage).storage.offset + index) = 0 := by
    rw [cleared.2 _ (marker_inside storage small), if_pos (by omega)]
  simp only [headerWord, wordAt, Nat.zero_add]
  rw [zero 0 (by decide), zero 1 (by decide), zero 2 (by decide), zero 3 (by decide)]
  rfl

/-- With any other marker, a call reads the header and returns. -/
theorem call_idle (attempt : Attempt) (memory : Memory)
    (other : headerWord (deviceMap storage) memory 0 ≠ newPatch) :
    ((attempt.call (deviceMap storage) memory).1 = .returned 0 ∨
        (attempt.call (deviceMap storage) memory).1 =
          .returned DeltaError.patchHeaderError.result) ∧
      ∀ event ∈ (attempt.call (deviceMap storage) memory).2.log,
        event.Inert (deviceMap storage) := by
  have shape := callOn_shape ⟨deviceMap storage, attempt.fails, attempt.upgradeFails⟩
    attempt.stack attempt.flash memory
  change CallShape _ _ (attempt.call (deviceMap storage) memory).1
    (attempt.call (deviceMap storage) memory).2.log at shape
  generalize (attempt.call (deviceMap storage) memory).1 = ending at shape
  generalize (attempt.call (deviceMap storage) memory).2.log = log at shape
  cases shape with
  | unread =>
      refine ⟨Or.inr rfl, fun event among => ?_⟩
      exact Or.inl ⟨_, List.mem_singleton.mp among⟩
  | noPatch =>
      refine ⟨Or.inl rfl, fun event among => ?_⟩
      exact Or.inl ⟨_, List.mem_singleton.mp among⟩
  | clearFailed marker => exact absurd marker other
  | cleared marker => exact absurd marker other

/-- With any other marker, a call that may be cut short records inert events only. -/
theorem events_inert (attempt : Attempt) (memory : Memory)
    (other : headerWord (deviceMap storage) memory 0 ≠ newPatch) :
    ∀ event ∈ attempt.events (deviceMap storage) memory, event.Inert (deviceMap storage) :=
  fun event among => (call_idle storage attempt memory other).2 event
    ((attempt.events_cut (deviceMap storage) memory).subset among)

/-- A marker that agrees byte by byte agrees as a word. -/
theorem headerWord_congr {before after : Memory}
    (same : PartitionSame (deviceMap storage) before after) :
    headerWord (deviceMap storage) after 0 = headerWord (deviceMap storage) before 0 := by
  simp only [headerWord, wordAt, Nat.zero_add]
  rw [same _ (marker_inside storage (by decide : 0 < 4)),
    same _ (marker_inside storage (by decide : 1 < 4)),
    same _ (marker_inside storage (by decide : 2 < 4)),
    same _ (marker_inside storage (by decide : 3 < 4))]

theorem markerCleared_other {before after : Memory}
    (cleared : MarkerCleared (deviceMap storage) before after) :
    headerWord (deviceMap storage) after 0 ≠ newPatch := by
  rw [markerCleared_word storage cleared]
  decide

end

/-! ### Lives -/

/-- The host writes the patch partition. -/
def reflashed (map : FlashMap) (image memory : Memory) : Memory := fun address =>
  if map.storage.offset ≤ address ∧ address < map.storage.offset + map.storage.size
  then image address else memory address

/-- What happens to the flash of a device. -/
inductive Happening
  /-- The host writes the patch partition, as `make flash-patch` does. -/
  | patchFlashed (image : Memory)
  /-- The rest is written: `make flash-image`, or the bootloader swaps the slots. -/
  | restWritten (image : Memory)
  | called (attempt : Attempt)

/-- The memory after a happening. -/
def Happening.apply (map : FlashMap) (memory : Memory) : Happening → Memory
  | .patchFlashed image => reflashed map image memory
  | .restWritten image => reflashed map memory image
  | .called attempt => replay memory (attempt.events map memory)

/-- The memory behind a life. -/
def memoryBehind (map : FlashMap) (memory : Memory) (life : List Happening) : Memory :=
  life.foldl (Happening.apply map) memory

/-- The memory after a history of calls. -/
def memoryAfter (map : FlashMap) (memory : Memory) (attempts : List Attempt) : Memory :=
  memoryBehind map memory (attempts.map .called)

/-- No patch is flashed in a life. -/
def NoFlash (life : List Happening) : Prop := ∀ image, .patchFlashed image ∉ life

/-- The happening of a life at an index is a call that acts. -/
def ActsAt (map : FlashMap) (memory : Memory) (life : List Happening) (index : Nat) : Prop :=
  ∃ attempt, life[index]? = some (.called attempt) ∧
    attempt.Acts map (memoryBehind map memory (life.take index))

@[simp] theorem memoryBehind_append (map : FlashMap) (memory : Memory)
    (first second : List Happening) :
    memoryBehind map memory (first ++ second) =
      memoryBehind map (memoryBehind map memory first) second :=
  List.foldl_append

@[simp] theorem memoryBehind_singleton (map : FlashMap) (memory : Memory)
    (happening : Happening) : memoryBehind map memory [happening] = happening.apply map memory :=
  rfl

theorem memoryAfter_cons (map : FlashMap) (memory : Memory) (attempt : Attempt)
    (attempts : List Attempt) :
    memoryAfter map memory (attempt :: attempts) =
      memoryAfter map (replay memory (attempt.events map memory)) attempts := rfl

theorem reflashed_inside {map : FlashMap} {image memory : Memory} {address : Int}
    (inside : map.storage.Contains address) : reflashed map image memory address = image address :=
  if_pos inside

theorem memoryBehind_next {map : FlashMap} {memory : Memory} {life : List Happening}
    {index : Nat} {happening : Happening} (happens : life[index]? = some happening) :
    memoryBehind map memory (life.take (index + 1)) =
      happening.apply map (memoryBehind map memory (life.take index)) := by
  rw [List.take_add_one, happens, Option.toList_some, memoryBehind_append,
    memoryBehind_singleton]

theorem NoFlash.sublist {life part : List Happening} (noFlash : NoFlash life)
    (within : part.Sublist life) : NoFlash part :=
  fun image among => noFlash image (within.subset among)

section

variable (storage : { partition : Partition // partition.offset = 0xf8000 })

/-- What a happening other than a flash does: the partition is the same, or the marker
has been cleared. -/
theorem happening_effect {happening : Happening} (noFlash : NoFlash [happening])
    (memory : Memory) :
    PartitionSame (deviceMap storage) memory (happening.apply (deviceMap storage) memory) ∨
      ∃ attempt, happening = .called attempt ∧
        MarkerCleared (deviceMap storage) memory (happening.apply (deviceMap storage) memory) := by
  cases happening with
  | patchFlashed image => exact absurd (List.mem_singleton_self _) (noFlash image)
  | restWritten image => exact Or.inl fun address inside => reflashed_inside inside
  | called attempt =>
      rcases attempt_effect storage attempt memory with ⟨-, same⟩ | cleared
      · exact Or.inl fun address _ => congrFun same address
      · exact Or.inr ⟨attempt, rfl, cleared⟩

/-- Without a flash, a marker that is not set stays so. -/
theorem life_idle {life : List Happening} (noFlash : NoFlash life) {memory : Memory}
    (other : headerWord (deviceMap storage) memory 0 ≠ newPatch) :
    headerWord (deviceMap storage) (memoryBehind (deviceMap storage) memory life) 0 ≠
      newPatch := by
  induction life generalizing memory with
  | nil => exact other
  | cons happening life inductionHypothesis =>
      have first : NoFlash [happening] := fun image among =>
        noFlash image (List.mem_cons.mpr (Or.inl (List.mem_singleton.mp among)))
      refine inductionHypothesis (fun image among => noFlash image (List.mem_cons_of_mem _ among))
        ?_
      rcases happening_effect storage first memory with same | ⟨-, -, cleared⟩
      · rw [headerWord_congr storage same]
        exact other
      · exact markerCleared_other storage cleared

/-- A call that acts clears the marker. -/
theorem acts_clears {attempt : Attempt} {memory : Memory}
    (acts : attempt.Acts (deviceMap storage) memory) :
    MarkerCleared (deviceMap storage) memory
      (replay memory (attempt.events (deviceMap storage) memory)) := by
  rcases attempt_effect storage attempt memory with ⟨inert, -⟩ | cleared
  · obtain ⟨event, among, acts⟩ := acts
    exact absurd acts (inert_acts_not storage (inert event among))
  · exact cleared

/-- The patch partition is as it was at first, or the marker has been cleared. -/
def AtMostCleared (before after : Memory) : Prop :=
  PartitionSame (deviceMap storage) before after ∨ MarkerCleared (deviceMap storage) before after

/-- What a happening other than a flash preserves, wherever a call is cut short. -/
theorem atMostCleared_step {happening : Happening} (noFlash : NoFlash [happening])
    {before memory : Memory} (kept : AtMostCleared storage before memory) :
    AtMostCleared storage before (happening.apply (deviceMap storage) memory) := by
  rcases happening_effect storage noFlash memory with still | ⟨-, -, next⟩
  · rcases kept with same | ⟨marker, cleared⟩
    · exact Or.inl fun address inside => (still address inside).trans (same address inside)
    · exact Or.inr ⟨marker, fun address inside =>
        (still address inside).trans (cleared address inside)⟩
  · rcases kept with same | cleared
    · refine Or.inr ⟨?_, fun address inside => ?_⟩
      · rw [← headerWord_congr storage same]
        exact next.1
      · rw [next.2 address inside, same address inside]
    · exact absurd next.1 (markerCleared_other storage cleared)

/-- What a whole life without a flash preserves. -/
theorem atMostCleared_life {life : List Happening} (noFlash : NoFlash life) (memory : Memory) :
    AtMostCleared storage memory (memoryBehind (deviceMap storage) memory life) := by
  induction life using List.reverseRecOn with
  | nil => exact Or.inl fun _ _ => rfl
  | append_singleton life happening inductionHypothesis =>
      rw [memoryBehind_append]
      exact atMostCleared_step storage (noFlash.sublist (List.sublist_append_right _ _))
        (inductionHypothesis (noFlash.sublist (List.sublist_append_left _ _)))

/-- A call behind one that acts does not act, if no patch is flashed in between. -/
theorem actsAt_not_before {memory : Memory} {life : List Happening} (noFlash : NoFlash life)
    {first second : Nat} (acts : ActsAt (deviceMap storage) memory life first)
    (again : ActsAt (deviceMap storage) memory life second) : ¬ first < second := by
  intro order
  obtain ⟨attempt, called, acting⟩ := acts
  obtain ⟨repeated, -, event, among, actingAgain⟩ := again
  have cleared := markerCleared_other storage (acts_clears storage acting)
  have behind := @memoryBehind_next (deviceMap storage) memory life first _ called
  -- the life up to the second call goes on behind the first one
  have split : life.take second =
      life.take (first + 1) ++ (life.drop (first + 1)).take (second - (first + 1)) := by
    rw [← List.take_add]
    congr 1
    omega
  have idle := life_idle storage (noFlash.sublist
    ((List.take_sublist (second - (first + 1)) _).trans (List.drop_sublist (first + 1) life)))
    cleared
  change headerWord _ (memoryBehind _ ((Happening.called attempt).apply _ _) _) 0 ≠ _ at idle
  rw [← behind, ← memoryBehind_append, ← split] at idle
  exact inert_acts_not storage (events_inert storage repeated _ idle event among) actingAgain

/-- What calls, failures, resets and writes beside the patch partition do to it and to the
secondary slot. -/
structure OneApplication (memory : Memory) (life : List Happening) : Prop where
  /-- At most one call acts. -/
  once : ∀ first second, ActsAt (deviceMap storage) memory life first →
    ActsAt (deviceMap storage) memory life second → first = second
  /-- The marker is the only part of the patch partition that changes. -/
  partitionKept : ∀ index, AtMostCleared storage memory
    (memoryBehind (deviceMap storage) memory (life.take index))
  /-- With the marker cleared, a call returns and changes nothing. -/
  idle : ∀ index attempt, life[index]? = some (.called attempt) →
    MarkerCleared (deviceMap storage) memory
      (memoryBehind (deviceMap storage) memory (life.take index)) →
    ((attempt.call (deviceMap storage)
          (memoryBehind (deviceMap storage) memory (life.take index))).1 = .returned 0 ∨
        (attempt.call (deviceMap storage)
          (memoryBehind (deviceMap storage) memory (life.take index))).1 =
            .returned DeltaError.patchHeaderError.result) ∧
      memoryBehind (deviceMap storage) memory (life.take (index + 1)) =
        memoryBehind (deviceMap storage) memory (life.take index)

/-- A patch is applied at most once, unless one is flashed again. -/
theorem patch_applied_once (memory : Memory) {life : List Happening} (noFlash : NoFlash life) :
    OneApplication storage memory life where
  once := fun first second acts again => by
    have notBefore := actsAt_not_before storage noFlash acts again
    have notAfter := actsAt_not_before storage noFlash again acts
    omega
  partitionKept := fun index =>
    atMostCleared_life storage (noFlash.sublist (List.take_sublist index life)) memory
  idle := fun index attempt called cleared => by
    have other := markerCleared_other storage cleared
    refine ⟨(call_idle storage attempt _ other).1, ?_⟩
    rw [memoryBehind_next called]
    exact replay_inert (events_inert storage attempt _ other) _

/-- A call in which nothing fails. -/
def flawlessAttempt : Attempt where
  fails _ _ := false
  upgradeFails := false
  stack := zeroStack
  flash := deltaInitFlashMem buildMap
  cut := none

/-- Two calls on a flashed patch, with a swap of the slots between them. -/
theorem patch_applied_once_swapped :
    OneApplication ⟨⟨0xf8000, 0x6000, by decide, by decide, by decide, by decide⟩, rfl⟩
      (placeAt 0xf8000 [0x4e, 0x45, 0x57, 0x50, 0x02, 0x00, 0x00, 0x00, 0x04, 0x00])
      [.called flawlessAttempt, .restWritten fun _ => 0, .called flawlessAttempt] :=
  patch_applied_once _ _ (by simp [NoFlash])

end

end DeltaUpdate.Delta
