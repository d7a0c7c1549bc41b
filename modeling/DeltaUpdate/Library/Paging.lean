import Mathlib.Tactic

/-!
Owns the pace of a writer that fills pages with blocks of irregular sizes. The writer
counts the bytes it has written since it last cleared a page, and clears the page its
cursor enters when the count reaches the page size. Whether every page is cleared in time
depends on the running totals of the block sizes only.
-/

namespace DeltaUpdate.Library

/-- The total is that of some blocks from the front. -/
def Total (sizes : List Nat) (total : Nat) : Prop := ∃ first, first <+: sizes ∧ first.sum = total

/-- The first total past the start of a page. -/
structure Entry (page : Nat) (sizes : List Nat) (index total : Nat) : Prop where
  reached : Total sizes total
  past : page * index < total
  first : ∀ other, Total sizes other → page * index < other → total ≤ other

/-- Every page behind the first is entered at least a page size after the page before it,
unless all pages before it have been filled exactly at the end of a block. -/
def InStep (page : Nat) (sizes : List Nat) : Prop :=
  ∀ index total, 1 ≤ index → Entry page sizes (index + 1) total →
    (∀ before, 1 ≤ before → before ≤ index → Total sizes (page * before)) ∨
      ∃ entered, Entry page sizes index entered ∧ entered + page ≤ total

/-! ### Totals -/

theorem total_sum (sizes : List Nat) : Total sizes sizes.sum := ⟨sizes, List.prefix_rfl, rfl⟩

theorem total_append {sizes : List Nat} {size total : Nat} :
    Total (sizes ++ [size]) total ↔ Total sizes total ∨ total = sizes.sum + size := by
  constructor
  · rintro ⟨first, cut, rfl⟩
    rcases List.prefix_concat_iff.mp cut with rfl | within
    · exact Or.inr (by simp)
    · exact Or.inl ⟨first, within, rfl⟩
  · rintro (⟨first, cut, rfl⟩ | rfl)
    · exact ⟨first, cut.trans (List.prefix_append _ _), rfl⟩
    · exact ⟨sizes ++ [size], List.prefix_rfl, by simp⟩

theorem total_le {sizes : List Nat} {total : Nat} (reached : Total sizes total) :
    total ≤ sizes.sum := by
  obtain ⟨first, ⟨rest, rfl⟩, rfl⟩ := reached
  simp

theorem Entry.unique {page : Nat} {sizes : List Nat} {index left right : Nat}
    (first : Entry page sizes index left) (second : Entry page sizes index right) :
    left = right :=
  le_antisymm (first.first right second.reached second.past)
    (second.first left first.reached first.past)

section

variable {page : Nat} {sizes : List Nat} {size : Nat} (positive : 0 < size)

include positive

/-- A block behind others enters the pages that start inside it. -/
theorem entry_append {index total : Nat} :
    Entry page (sizes ++ [size]) index total ↔
      Entry page sizes index total ∨
        total = sizes.sum + size ∧ sizes.sum ≤ page * index ∧
          page * index < sizes.sum + size := by
  constructor
  · intro entry
    rcases total_append.mp entry.reached with old | rfl
    · exact Or.inl ⟨old, entry.past, fun other reached past =>
        entry.first other (total_append.mpr (Or.inl reached)) past⟩
    · refine Or.inr ⟨rfl, ?_, entry.past⟩
      by_contra beyond
      have early := entry.first sizes.sum (total_append.mpr (Or.inl (total_sum sizes)))
        (not_le.mp beyond)
      omega
  · rintro (entry | ⟨rfl, behind, past⟩)
    · refine ⟨total_append.mpr (Or.inl entry.reached), entry.past, fun other reached past => ?_⟩
      rcases total_append.mp reached with old | rfl
      · exact entry.first other old past
      · exact le_trans (total_le entry.reached) (Nat.le_add_right _ _)
    · refine ⟨total_append.mpr (Or.inr rfl), past, fun other reached beyond => ?_⟩
      rcases total_append.mp reached with old | rfl
      · exact absurd (total_le old) (not_le.mpr (lt_of_le_of_lt behind beyond))
      · exact le_refl _

theorem total_append_old {total : Nat} (old : total ≤ sizes.sum) :
    Total (sizes ++ [size]) total ↔ Total sizes total := by
  rw [total_append, or_iff_left (by omega)]

/-- A writer that has fallen out of step does not get back into it. -/
theorem InStep.before (inStep : InStep page (sizes ++ [size])) : InStep page sizes := by
  intro index total behind entry
  have small := total_le entry.reached
  have past := entry.past
  rcases inStep index total behind ((entry_append positive).mpr (Or.inl entry)) with
    filled | ⟨entered, before, late⟩
  · apply Or.inl
    intro before low high
    have order : page * before ≤ page * (index + 1) := Nat.mul_le_mul_left page (by omega)
    exact (total_append_old positive (by omega)).mp (filled before low high)
  · rcases (entry_append positive).mp before with old | ⟨rfl, -, -⟩
    · exact Or.inr ⟨entered, old, late⟩
    · omega

end

/-! ### The writer -/

/-- The writer in step: the bytes counted since the last clearing, the total at which it
took place, and the page that was cleared. -/
structure Paced (page : Nat) (sizes : List Nat) (count cleared index : Nat) : Prop where
  counted : cleared + count = sizes.sum
  below : count < page
  low : page * index ≤ cleared
  high : cleared < page * (index + 1)
  room : sizes.sum ≤ page * (index + 1)
  /-- The pages have been filled exactly so far, or the last one was cleared on entry. -/
  reason : (cleared = page * index ∧
      ∀ before, 1 ≤ before → before ≤ index → Total sizes (page * before)) ∨
    (Entry page sizes index cleared ∧
      ∃ before, 1 ≤ before ∧ before ≤ index ∧ ¬ Total sizes (page * before))

theorem paced_start {page : Nat} (positive : 0 < page) : Paced page [] 0 0 0 where
  counted := rfl
  below := positive
  low := le_refl _
  high := by omega
  room := Nat.zero_le _
  reason := Or.inl ⟨rfl, fun before low high => absurd (le_trans low high) (by decide)⟩

/-- Blocks on two pages at most are in step. -/
theorem inStep_short {page : Nat} {sizes : List Nat} (short : sizes.sum ≤ page * 2) :
    InStep page sizes := by
  intro index total behind entry
  have past := entry.past
  have within := total_le entry.reached
  have pages : page * 2 ≤ page * (index + 1) := Nat.mul_le_mul_left page (by omega)
  omega

theorem inStep_start (page : Nat) : InStep page [] := by
  intro index total _ entry
  have small := total_le entry.reached
  have past := entry.past
  simp at small
  omega

section

variable {page : Nat} {sizes : List Nat} {size count cleared index : Nat}

/-- Not all pages are filled exactly when the last one was cleared on entry. -/
theorem Paced.exact_of_filled (paced : Paced page sizes count cleared index)
    (filled : ∀ before, 1 ≤ before → before ≤ index → Total sizes (page * before)) :
    cleared = page * index := by
  rcases paced.reason with ⟨exact, -⟩ | ⟨-, before, low, high, missing⟩
  · exact exact
  · exact absurd (filled before low high) missing

/-- The next block keeps the writer in step exactly when it makes the writer clear a page
or stays inside the page that has been cleared. -/
theorem Paced.inStep_iff (paced : Paced page sizes count cleared index)
    (inStep : InStep page sizes) (positive : 0 < size) (small : size < page) :
    InStep page (sizes ++ [size]) ↔
      page ≤ count + size ∨ sizes.sum + size ≤ page * (index + 1) := by
  have counted := paced.counted
  have low := paced.low
  have room := paced.room
  have next : page * (index + 1) = page * index + page := Nat.mul_succ page index
  constructor
  · intro stays
    by_contra neither
    push Not at neither
    obtain ⟨early, past⟩ := neither
    have inexact : cleared ≠ page * index := by omega
    obtain ⟨entry, missing⟩ := paced.reason.resolve_left fun reason => inexact reason.1
    have some : 1 ≤ index := by
      obtain ⟨before, above, below, -⟩ := missing
      omega
    have enters : Entry page (sizes ++ [size]) (index + 1) (sizes.sum + size) :=
      (entry_append positive).mpr (Or.inr ⟨rfl, room, past⟩)
    rcases stays index _ some enters with filled | ⟨entered, before, late⟩
    · refine inexact (paced.exact_of_filled fun before above below => ?_)
      have order : page * before ≤ page * index := Nat.mul_le_mul_left page below
      exact (total_append_old positive (by omega)).mp (filled before above below)
    · have same := before.unique ((entry_append positive).mpr (Or.inl entry))
      omega
  · intro kept which total some entry
    rcases (entry_append positive).mp entry with old | ⟨rfl, behind, past⟩
    · rcases inStep which total some old with filled | ⟨entered, before, late⟩
      · exact Or.inl fun before above below =>
          total_append.mpr (Or.inl (filled before above below))
      · exact Or.inr ⟨entered, (entry_append positive).mpr (Or.inl before), late⟩
    · -- The page that is entered is the one that has been cleared, or the one behind it.
      have after : page * (index + 2) = page * index + 2 * page := by
        rw [Nat.mul_add, Nat.mul_comm page 2]
      have notBefore : index ≤ which + 1 := by
        by_contra lower
        have order : page * (which + 1 + 1) ≤ page * index :=
          Nat.mul_le_mul_left page (by omega)
        rw [Nat.mul_succ] at order
        omega
      have notBehind : which + 1 < index + 2 := by
        by_contra higher
        have order : page * (index + 2) ≤ page * (which + 1) :=
          Nat.mul_le_mul_left page (by omega)
        omega
      have lift {before : Nat} (reached : Total sizes (page * before)) :
          Total (sizes ++ [size]) (page * before) := total_append.mpr (Or.inl reached)
      rcases Nat.lt_or_ge which index with lower | same
      · have current : which + 1 = index := by omega
        rw [current] at behind past
        rcases paced.reason with ⟨-, filled⟩ | ⟨entered, -⟩
        · exact Or.inl fun before above below => lift (filled before above (by omega))
        · have beyond := entered.past
          omega
      · have current : which = index := by omega
        subst current
        rcases paced.reason with ⟨-, filled⟩ | ⟨entered, -⟩
        · exact Or.inl fun before above below => lift (filled before above below)
        · exact Or.inr ⟨cleared, (entry_append positive).mpr (Or.inl entered), by omega⟩

/-- A block that makes the writer clear a page makes it clear the next one. -/
theorem Paced.clears (paced : Paced page sizes count cleared index) (positive : 0 < size)
    (small : size < page) (due : page ≤ count + size) :
    (sizes.sum + size) / page = index + 1 ∧
      Paced page (sizes ++ [size]) 0 (sizes.sum + size) (index + 1) := by
  have counted := paced.counted
  have below := paced.below
  have low := paced.low
  have room := paced.room
  have next : page * (index + 1) = page * index + page := Nat.mul_succ page index
  have after : page * (index + 1 + 1) = page * (index + 1) + page := Nat.mul_succ page (index + 1)
  have sum : (sizes ++ [size]).sum = sizes.sum + size := by simp
  refine ⟨?_, ⟨by rw [sum, Nat.add_zero], by omega, by omega, by omega, by omega, ?_⟩⟩
  · rw [Nat.div_eq_iff (by omega)]
    constructor
    · rw [Nat.mul_comm]
      omega
    · rw [Nat.mul_comm]
      omega
  · have lift {before : Nat} (reached : Total sizes (page * before)) :
        Total (sizes ++ [size]) (page * before) := total_append.mpr (Or.inl reached)
    by_cases exact : sizes.sum + size = page * (index + 1)
    · have filled := (paced.reason.resolve_right fun reason => by
        have past := reason.1.past
        omega).2
      refine Or.inl ⟨exact, fun before above below => ?_⟩
      rcases Nat.lt_or_ge index before with last | earlier
      · have current : before = index + 1 := by omega
        rw [current, ← exact]
        exact total_append.mpr (Or.inr rfl)
      · exact lift (filled before above earlier)
    · refine Or.inr ⟨(entry_append positive).mpr (Or.inr ⟨rfl, room, by omega⟩), ?_⟩
      by_contra none
      push Not at none
      have filled : ∀ before, 1 ≤ before → before ≤ index + 1 → Total sizes (page * before) := by
        intro before above below
        have order : page * before ≤ page * (index + 1) := Nat.mul_le_mul_left page below
        rcases total_append.mp (none before above below) with old | new
        · exact old
        · omega
      have cleared := paced.exact_of_filled fun before above below =>
        filled before above (by omega)
      have last := total_le (filled (index + 1) (by omega) (le_refl _))
      omega

/-- A block that stays inside the cleared page is counted. -/
theorem Paced.counts (paced : Paced page sizes count cleared index) (positive : 0 < size)
    (early : count + size < page) (fits : sizes.sum + size ≤ page * (index + 1)) :
    Paced page (sizes ++ [size]) (count + size) cleared index := by
  have counted := paced.counted
  have low := paced.low
  have sum : (sizes ++ [size]).sum = sizes.sum + size := by simp
  refine ⟨by omega, early, low, paced.high, by omega, ?_⟩
  have order {before : Nat} (below : before ≤ index) : page * before ≤ sizes.sum := by
    have scaled : page * before ≤ page * index := Nat.mul_le_mul_left page below
    omega
  rcases paced.reason with ⟨exact, filled⟩ | ⟨entered, before, above, below, missing⟩
  · exact Or.inl ⟨exact, fun before above below =>
      total_append.mpr (Or.inl (filled before above below))⟩
  · refine Or.inr ⟨(entry_append positive).mpr (Or.inl entered), before, above, below, ?_⟩
    rw [total_append_old positive (order below)]
    exact missing

end

end DeltaUpdate.Library
