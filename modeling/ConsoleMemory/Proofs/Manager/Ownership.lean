import ConsoleMemory.Proofs.Manager.Invariant
import ConsoleMemory.Proofs.Manager.Pages

/-!
# Who owns a page table

Directory entries and busy page tables belong to each other one by one, except
for the page of the directory itself. So the usage counters of the two types of
page tables count the directory entries.
-/

namespace ConsoleMemory.Machine

open PageType

variable {c : Machine} {first i last p t : Nat}

/-- Directory entries that name page tables. -/
def tableIndices (c : Machine) : Finset Nat :=
  (Finset.range 1024).filter fun i => i ≠ 0x300 ∧ (c.pde i).namesTable = true

/-- Busy pages that hold page tables. -/
def tablePages (c : Machine) : Finset Nat :=
  (Finset.range (c.parameters.highestPage + 1)).filter fun p =>
    (c.record p).isBusyPageTable = true

lemma mem_tableIndices : i ∈ c.tableIndices ↔ ∃ t, c.Table i t := by
  rw [tableIndices, Finset.mem_filter, Finset.mem_range]
  constructor
  · rintro ⟨lt, ne, names⟩
    exact ⟨_, lt, ne, names, rfl⟩
  · rintro ⟨t, table⟩
    exact ⟨table.lt, table.ne, table.names⟩

lemma mem_tablePages : p ∈ c.tablePages ↔
    p ≤ c.parameters.highestPage ∧ (c.record p).isBusyPageTable = true := by
  rw [tablePages, Finset.mem_filter, Finset.mem_range, Nat.lt_succ_iff]

/-- The two types of page tables share out the pages that hold them. -/
lemma card_tablePages (c : Machine) : c.tablePages.card =
    (c.busyPages virtualPageTable).card + (c.busyPages systemPageTable).card := by
  have apart : Disjoint (c.busyPages virtualPageTable) (c.busyPages systemPageTable) := by
    refine Finset.disjoint_left.mpr fun p virtual system => ?_
    have same := (mem_busyPages.mp virtual).2.2.symm.trans (mem_busyPages.mp system).2.2
    cases same
  rw [← Finset.card_union_of_disjoint apart]
  congr 1
  ext p
  rw [Finset.mem_union, mem_busyPages, mem_busyPages, mem_tablePages, PfnRecord.isBusyPageTable]
  cases (c.record p).pageType <;> simp [isPageTable]

namespace Ordered

variable (h : c.Ordered)
include h

/-- The pages of page tables are those that directory entries name and that of the directory. -/
lemma tablePages_eq :
    c.tablePages = insert 0xF (c.tableIndices.image fun i => (c.pde i).frame) := by
  have directory := h.fit.directory
  have inside := h.fit.inside
  ext p
  rw [mem_tablePages, Finset.mem_insert, Finset.mem_image]
  constructor
  · rintro ⟨hp, busy⟩
    by_cases own : p = 0xF
    · exact Or.inl own
    · obtain ⟨i, table⟩ := h.owned p hp own busy
      exact Or.inr ⟨i, mem_tableIndices.mpr ⟨p, table⟩, table.frame⟩
  · rintro (rfl | ⟨i, mem, rfl⟩)
    · refine ⟨by omega, ?_⟩
      rw [PfnRecord.isBusyPageTable, h.directory.1, h.directory.2]
      rfl
    · obtain ⟨t, table⟩ := mem_tableIndices.mp mem
      rw [table.frame]
      exact ⟨h.toWired.table_le table, h.tables i t table⟩

/-- Besides that of the directory there is one page table for each directory entry that names
one. -/
theorem card_tableIndices :
    c.usage.count virtualPageTable + c.usage.count systemPageTable = 1 + c.tableIndices.card := by
  have injective : Set.InjOn (fun i => (c.pde i).frame) c.tableIndices := by
    intro i hi j hj same
    obtain ⟨t, table⟩ := mem_tableIndices.mp hi
    obtain ⟨s, other⟩ := mem_tableIndices.mp hj
    cases table.frame.symm.trans (same.trans other.frame)
    exact h.distinct i j t table other
  have directory : 0xF ∉ c.tableIndices.image fun i => (c.pde i).frame := by
    rw [Finset.mem_image]
    rintro ⟨i, mem, frame⟩
    obtain ⟨t, table⟩ := mem_tableIndices.mp mem
    exact h.apart i t table (table.frame.symm.trans frame)
  rw [h.counted, h.counted, ← card_tablePages, h.tablePages_eq,
    Finset.card_insert_of_notMem directory, Finset.card_image_of_injOn injective, Nat.add_comm]

end Ordered

/-- No page is shared by two page tables or lost to all of them. -/
structure Owned (c : Machine) : Prop where
  distinct : ∀ i j t, c.Table i t → c.Table j t → i = j
  low : ∀ i t, c.Table i t → t ≤ c.parameters.contiguousLimit
  taken : ∀ i t, c.Table i t → t ∉ c.freeList
  directory : ∀ i t, c.Table i t → t ≠ 0xF
  database : ∀ i t, c.Table i t → t < c.parameters.databasePage ∨
    c.parameters.databasePage + c.parameters.databasePages ≤ t
  owner : ∀ p ≤ c.parameters.highestPage, p ≠ 0xF → (c.record p).isBusyPageTable = true →
    ∃! i, c.Table i p
  counted : c.usage.count virtualPageTable + c.usage.count systemPageTable =
    1 + c.tableIndices.card

lemma Ordered.owns (h : c.Ordered) (taken : ∀ i t, c.Table i t → t ∉ c.freeList) : c.Owned := by
  refine ⟨h.distinct, h.low, taken, h.apart, fun i t table => Or.inl (h.toMapped.lt_database table),
    fun p hp ne busy => ?_, h.card_tableIndices⟩
  obtain ⟨i, table⟩ := h.owned p hp ne busy
  exact ⟨i, table, fun j other => h.distinct j i p other table⟩

lemma Kept.owns (h : c.Kept) : c.Owned :=
  h.toOrdered.owns fun _ t table free =>
    h.not_idle_of_table table ((h.free.runs.mem t).mpr free)

lemma Lacks.owns (h : c.Lacks first last) : c.Owned :=
  h.toOrdered.owns fun _ t table free =>
    h.not_idle_of_table table (Finset.mem_sdiff.mp ((h.free.runs.mem t).mpr free)).1

end ConsoleMemory.Machine
