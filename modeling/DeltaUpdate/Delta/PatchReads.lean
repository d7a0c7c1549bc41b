import DeltaUpdate.Delta.SlotEnd

/-!
Owns which bytes of the patch partition a call reads. The end of the patch that the
initialization sets is too far by the header, so the last chunk of a partition may end behind
it.
-/

namespace DeltaUpdate.Delta

open DeltaUpdate.Detools
open DeltaUpdate.Library
open DeltaUpdate.Patch

section

variable {env : Env} {stack : ApplyPatch} {memory : Memory} {log : List Event} {patchSize : Nat}

/-! ### Reads inside the partition -/

/-- The event is no patch read, or it reads between the header and the end of the patch
partition. -/
def Event.PatchReadWithin (map : FlashMap) (event : Event) : Prop :=
  ∀ address size ok, event = .flash .deltaFlashPatchRead (.read address size) ok →
    ∀ byte, address ≤ byte → byte < address + size →
      map.storage.offset + headerSize ≤ byte ∧ byte < map.storage.offset + map.storage.size

/-- A chunk of a run lies behind the header. It ends inside the partition if the patch does,
or if it is not the chunk at the last 512 bytes. -/
theorem Requested.within {op : FlashOp} (requested : Requested env stack memory log patchSize op)
    (fits : patchSize + headerSize ≤ env.map.storage.size ∨
      ∀ config, Runs env stack memory log patchSize config →
        config.phase ≠ .fetch (env.map.storage.size - 512)) (ok : Bool) :
    Event.PatchReadWithin env.map (.flash .deltaFlashPatchRead op ok) := by
  obtain ⟨patchOffset, config, runs, phase, below, rfl⟩ := requested
  have fetching := (runs_patchPaced runs).fetching patchOffset (Or.inl phase)
  have last : patchOffset + min (patchSize - patchOffset) 512 + headerSize ≤
      env.map.storage.size := by
    rcases fits with inside | before
    · omega
    · -- the chunks start at multiples of 512, and so does the last part of the partition
      have other : patchOffset ≠ env.map.storage.size - 512 := fun same =>
        before config runs (same ▸ phase)
      have reached := fetching.below
      obtain ⟨pages, size⟩ := env.map.storage.sizeAligned
      obtain ⟨chunks, start⟩ := fetching.aligned.resolve_right below.ne
      unfold pageSize at size
      unfold headerSize
      omega
  intro address size ok' same byte above under
  rw [ChunkRead] at same
  cases same
  omega

theorem requestUpgrade_log (env : Env) (res : Int) (world : World) :
    Extends (fun event => ¬ event.FromPatchRead) world.log
      (requestUpgrade env res world).2.log := by
  have outcome := requestUpgrade_cases env res world
  generalize requestUpgrade env res world = upgraded at outcome
  cases outcome with
  | none => exact Extends.refl _ _
  | failed => exact (Extends.refl _ _).record id
  | requested => exact ((Extends.refl _ _).record id).record id

/-- A chunk that a run comes to is read in the log of the call. -/
theorem fetch_logged {config : Config World} {res : Int} {self : ApplyPatch} {after : World}
    {patchOffset : Nat} (runs : Runs env stack memory log patchSize config)
    (phase : config.phase = .fetch patchOffset) (below : patchOffset < patchSize)
    (stops : Runs env stack memory log patchSize ⟨.stop res, self, after⟩) :
    ∃ ok, .flash .deltaFlashPatchRead (ChunkRead env.map patchSize patchOffset) ok ∈
      (requestUpgrade env res after).2.log := by
  obtain ⟨ok, issued⟩ := fetch_issues runs phase below
  exact ⟨ok, ((runs_stopGrows (Reaches.next runs) stops rfl).trans
    (requestUpgrade_grows env res after)).subset issued⟩

theorem Event.BeforeEngine.other {event : Event} (early : event.BeforeEngine) :
    ¬ event.FromPatchRead := by
  intro patch
  unfold Event.BeforeEngine at early
  split at early
  · exact patch
  · exact patch
  · exact early

theorem engineLog_quiet (map : FlashMap) {event : Event} (among : event ∈ engineLog map []) :
    ¬ event.FromPatchRead := by
  simp only [engineLog, headerEvents, List.nil_append, List.mem_append, List.mem_cons,
    List.not_mem_nil, or_false] at among
  rcases among with (rfl | rfl) | rfl <;> exact id

end

/-- The patch reads of a call stay behind the header and inside the patch partition exactly
when the patch fits into the partition with its header, or the call stops before it asks for
the chunk at the last 512 bytes of the partition. -/
theorem patchReads_confined_iff (env : Env) (stack : ApplyPatch) (flash : FlashMem)
    (memory : Memory) :
    (∀ event ∈ (callOn env stack flash memory).2.log, event.PatchReadWithin env.map) ↔
      headerWord env.map memory 4 + headerSize ≤ env.map.storage.size ∨
        ∀ config, CallVisits env stack ⟨flash, memory, []⟩ config →
          config.phase ≠ .fetch (env.map.storage.size - 512) := by
  have outcome := deltaCheckAndApply_runs env stack ⟨flash, memory, []⟩
  have called : callOn env stack flash memory = deltaCheckAndApply env stack ⟨flash, memory, []⟩ :=
    rfl
  rw [called]
  generalize deltaCheckAndApply env stack ⟨flash, memory, []⟩ = call at outcome
  have quiet {event : Event} (other : ¬ event.FromPatchRead) : event.PatchReadWithin env.map := by
    rintro address size ok rfl
    exact absurd trivial other
  cases outcome with
  | early nonpositive events none =>
      refine iff_of_true (fun event among => ?_)
        (Or.inr fun config visited => absurd visited (none config))
      obtain ⟨rest, same, early⟩ := events
      rw [same, List.nil_append] at among
      exact quiet (early event among).other
  | @engine res self after marker positive visits stops =>
      obtain ⟨upgrade, grown, others⟩ := requestUpgrade_log env res after
      have runs := (visits _).mp stops
      constructor
      · intro within
        by_contra leaves
        rw [not_or] at leaves
        obtain ⟨large, reached⟩ := leaves
        simp only [not_forall, not_not] at reached
        obtain ⟨config, visited, phase⟩ := reached
        have size := env.map.storage.positive
        obtain ⟨pages, aligned⟩ := env.map.storage.sizeAligned
        unfold pageSize at aligned
        unfold headerSize at large
        have below : env.map.storage.size - 512 < headerWord env.map memory 4 := by omega
        obtain ⟨ok, issued⟩ := fetch_logged ((visits _).mp visited) phase below runs
        have bound := within _ issued _ _ ok rfl
          (env.map.storage.offset + env.map.storage.size)
        unfold headerSize at bound
        have inside := bound (by push_cast; omega) (by push_cast; omega)
        omega
      · intro fits event among
        rw [grown] at among
        rcases List.mem_append.mp among with old | new
        · obtain ⟨rest, same, only⟩ := runs_requested runs
          change after.log = _ at same
          rw [same] at old
          rcases List.mem_append.mp old with start | recent
          · exact quiet (engineLog_quiet env.map start)
          · by_cases patch : ∃ op ok, event = .flash .deltaFlashPatchRead op ok
            · obtain ⟨op, ok, rfl⟩ := patch
              refine (only _ recent op ok rfl).within ?_ ok
              simp only [← visits]
              exact fits
            · rintro address size ok rfl
              exact absurd ⟨_, _, rfl⟩ patch
        · exact quiet (others event new)

/-! ### A patch of zeros -/

theorem unpackBody_zeros (count : Nat) :
    unpackBody (heatshrinkHeader :: List.replicate (2 * count) 0) =
      some (List.replicate count 0, []) := by
  have stuck : Lzss.parse 8 7 [] = ([], []) := Lzss.parse_of_none rfl
  have parsed := Lzss.parse_tokens (List.replicate count againToken) []
  rw [List.append_nil, stuck, List.append_nil, ← bitsOfBytes_zeros] at parsed
  have expanded : Lzss.expand [] (List.replicate count againToken) = List.replicate count 0 := by
    have zero : ([] : List UInt8).getD 0 0 = 0 := rfl
    rw [← List.append_nil (List.replicate count againToken), againToken,
      Lzss.expand_repeat ⟨0, by decide⟩ zero, Nat.zero_add, Nat.mul_one]
    exact List.append_nil _
  rw [unpackBody_header, parsed, expanded]

/-- A machine that reads zeros where a size is expected, and has put nothing out. -/
structure Idles (progress : Progress) : Prop where
  position : ∃ field, progress.position = .size field none
  source : progress.source = 0
  output : progress.output = []

theorem Idles.feed {task : Task} (low : task.low ≤ 0) (high : 0 < task.high)
    (nonempty : 0 < task.targetSize) {progress : Progress} (idles : Idles progress) :
    Idles (feed task progress 0) := by
  obtain ⟨field, position⟩ := idles.position
  have read : Patch.feed task progress 0 = progress.sized task field 0 := by
    rw [feed_size task position]
    rfl
  have empty := idles.output
  have start := idles.source
  rw [read]
  cases field with
  | dfpatch => exact ⟨⟨_, rfl⟩, start, empty⟩
  | part part =>
      have fits : progress.output.length + 0 ≤ task.targetSize := by
        rw [empty]
        exact Nat.zero_le _
      rw [show (0 : Int) = ((0 : Nat) : Int) from rfl, sized_part fits]
      exact ⟨⟨_, rfl⟩, start, empty⟩
  | adjustment =>
      have inside : task.low ≤ progress.source + 0 ∧ progress.source + 0 < task.high := by
        rw [start]
        exact ⟨low, high⟩
      have unfinished : progress.output.length ≠ task.targetSize := by
        rw [empty]
        exact nonempty.ne
      rw [sized_adjustment inside]
      exact ⟨⟨_, if_neg unfinished⟩, by simp [start], empty⟩

theorem Idles.zeros {task : Task} (low : task.low ≤ 0) (high : 0 < task.high)
    (nonempty : 0 < task.targetSize) (count : Nat) {progress : Progress} (idles : Idles progress) :
    Idles (feedAll task progress (List.replicate count 0)) := by
  induction count generalizing progress with
  | zero => exact idles
  | succ count inductionHypothesis =>
      rw [List.replicate_succ, feedAll_cons]
      exact inductionHypothesis (idles.feed low high nonempty)

/-- A patch of zeros behind a header, one byte longer than what fits behind the header of a
partition of one page. -/
def zerosPatch : List UInt8 := [0x04, 0x01, 0x44] ++ List.replicate (2 * 2043) 0

/-- A memory with that patch in the partition. -/
def zerosMemory : Memory :=
  placeAt 0x4000 ([0x4e, 0x45, 0x57, 0x50, 0xf9, 0x0f, 0x00, 0x00] ++ zerosPatch)

theorem zerosPatch_length : zerosPatch.length = 4089 := by
  rw [zerosPatch, List.length_append, List.length_replicate]
  rfl

theorem zerosPatch_holds : HoldsPatch onePageMap zerosMemory zerosPatch where
  marker := by decide +kernel
  length := by decide +kernel
  stores := (placeAt_stores 0x4000 _).right

/-- The last chunk of that patch ends behind the partition. -/
theorem zerosPatch_leaves :
    ¬ ∀ event ∈ (callOn (Env.flawless onePageMap) zeroStack (deltaInitFlashMem onePageMap)
      zerosMemory).2.log, event.PatchReadWithin onePageMap := by
  intro within
  have works : (Env.flawless onePageMap).Works := fun _ _ => rfl
  have apart : PatchApart onePageMap zerosPatch.length := by
    rintro - address low - ⟨-, below⟩
    simp only [onePageMap, headerSize] at low below
    omega
  have header : Header 0x04 1 (heatshrinkHeader :: List.replicate (2 * 2043) 0) zerosPatch :=
    ⟨by decide, [0x01], rfl, ⟨by decide, by decide, by decide⟩⟩
  have verdict := (bodyVerdict_some (unpackBody_zeros 2043)
    (slotTask onePageMap (engineMemory onePageMap zerosMemory) 0 1)).1
  have start : Idles startProgress := ⟨⟨.dfpatch, rfl⟩, rfl, rfl⟩
  obtain ⟨field, position⟩ := (start.zeros (le_refl 0) (by decide) Nat.one_pos 2043 :
    Idles (feedAll (slotTask onePageMap (engineMemory onePageMap zerosMemory) 0 1) startProgress
      (List.replicate 2043 0))).position
  have stored := @HoldsPatch.engine (Env.flawless onePageMap) _ _ zerosPatch_holds apart
    (by rw [zerosPatch_length]; decide)
  obtain ⟨res, self, after, call, stops⟩ := @HoldsPatch.runs (Env.flawless onePageMap) _ _
    zerosPatch_holds (List.cons_ne_nil _ _) works zeroStack (deltaInitFlashMem onePageMap)
  obtain ⟨config, runs, phase⟩ := runs_fetches header (by decide) verdict
    (by rw [position]; simp) (by rw [position]; simp) stored
    (slotTask_start onePageMap _ 1) rfl works (by decide) zeroStack
    (engineLog onePageMap []) (⟨7, rfl⟩ : 512 ∣ 3584) (by rw [zerosPatch_length]; decide)
    (by decide)
  obtain ⟨ok, issued⟩ := fetch_logged runs phase (by rw [zerosPatch_length]; decide) stops
  rw [← call] at issued
  rw [zerosPatch_length] at issued
  have bound := within _ issued _ _ ok rfl 0x5000 (by decide) (by decide)
  exact absurd bound.2 (by decide)

end DeltaUpdate.Delta
