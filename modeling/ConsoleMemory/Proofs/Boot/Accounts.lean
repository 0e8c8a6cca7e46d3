import ConsoleMemory.Proofs.Boot.Furnished
import ConsoleMemory.Proofs.Manager.Ownership

/-!
# What is busy at first

When the manager has come up, the directory, the tables of the database and the
database itself are busy, and no other page is. The counters say as much.
-/

namespace ConsoleMemory

open Finset (Ico)

/-- The pages that stay free while those of `H` hold the tables of the database. -/
def Parameters.spare (p : Parameters) (H : Finset Nat) : Finset Nat :=
  ((Finset.range (p.highestPage + 1) \ {0xF}) \ H) \
    Ico p.databasePage (p.databasePage + p.databasePages)

namespace Machine

variable {c : Machine} {S H : Finset Nat} {p : Nat} {t : PageType}

/-- The free pages and the counters when the manager has come up, with the tables of the database in
the pages of `H`. -/
structure CameUp (c : Machine) (H : Finset Nat) : Prop where
  tables : Topmost ((Finset.range (c.parameters.contiguousLimit + 1)).erase 0xF)
    c.parameters.databaseTables H
  free : ∀ p, p ∈ c.freeList ↔ p ∈ c.parameters.spare H
  general : c.freeList.general = FreeList.below (c.parameters.spare H) c.parameters.poolBoundary
  debugger : c.freeList.debugger = FreeList.above (c.parameters.spare H) c.parameters.poolBoundary
  system : c.usage.count .systemPageTable = 1 + c.parameters.databaseTables
  unknown : c.usage.count .unknown = c.parameters.databasePages
  others : ∀ t, t ≠ .systemPageTable → t ≠ .unknown → c.usage.count t = 0

/-- Busy pages belong to the database, or else they hold page tables. -/
lemma Labelled.pageType_eq (labelled : c.Labelled) (hp : p ≤ c.parameters.highestPage)
    (busy : (c.record p).busy = true) : (c.record p).pageType = if c.parameters.databasePage ≤ p ∧
      p < c.parameters.databasePage + c.parameters.databasePages then .unknown
      else .systemPageTable := by
  split
  · next inside =>
    have type := (labelled.database (p - c.parameters.databasePage) (by omega)).2
    rwa [Nat.add_sub_cancel' inside.1] at type
  · next outside =>
    by_cases directory : p = 0xF
    · rw [directory]
      exact labelled.directory.2
    by_cases table : ∃ k, c.Table k p
    · obtain ⟨k, table⟩ := table
      rw [labelled.table k p table]
      exact Manager.pageType_tableRecord _
    · rw [labelled.idle p hp directory (fun k named => table ⟨k, named⟩) (by omega),
        PfnRecord.busy_zero] at busy
      cases busy

lemma Labelled.busyPages_other (labelled : c.Labelled) (system : t ≠ .systemPageTable)
    (unknown : t ≠ .unknown) : c.busyPages t = ∅ := by
  refine Finset.eq_empty_of_forall_notMem fun p mem => ?_
  obtain ⟨hp, busy, type⟩ := mem_busyPages.mp mem
  rw [labelled.pageType_eq hp busy] at type
  split at type
  · exact unknown type.symm
  · exact system type.symm

namespace Furnished

variable (h : c.Furnished S)
include h

lemma tableIndices_eq : c.tableIndices =
    Ico c.parameters.firstTable (c.parameters.firstTable + c.parameters.databaseTables) := by
  ext k
  rw [mem_tableIndices, h.table_iff k, Finset.mem_Ico]

variable (labelled : c.Labelled)
include labelled

lemma busyPages_unknown : c.busyPages .unknown =
    Ico c.parameters.databasePage (c.parameters.databasePage + c.parameters.databasePages) := by
  have inside := h.fit.inside
  ext p
  rw [mem_busyPages, Finset.mem_Ico]
  constructor
  · rintro ⟨hp, busy, type⟩
    by_contra outside
    rw [labelled.pageType_eq hp busy, if_neg outside] at type
    cases type
  · rintro ⟨low, high⟩
    have record := labelled.database (p - c.parameters.databasePage) (by omega)
    rw [Nat.add_sub_cancel' low] at record
    exact ⟨by omega, record⟩

end Furnished

/-- With the records written and counted, the counters tell what is busy. -/
theorem Furnished.cameUp (h : c.Furnished (c.parameters.spare H)) (labelled : c.Labelled)
    (boots : c.parameters.Boots) (counted : c.Counted)
    (tables : Topmost ((Finset.range (c.parameters.contiguousLimit + 1)).erase 0xF)
      c.parameters.databaseTables H) : c.CameUp H := by
  have others (t : PageType) (system : t ≠ .systemPageTable) (unknown : t ≠ .unknown) :
      c.usage.count t = 0 := by
    rw [counted, labelled.busyPages_other system unknown, Finset.card_empty]
  have owned := (h.kept boots counted labelled).toOrdered.card_tableIndices
  rw [others .virtualPageTable nofun nofun, h.tableIndices_eq, Nat.card_Ico,
    Nat.add_sub_cancel_left, Nat.zero_add] at owned
  have general := h.pools.general
  have debugger := h.pools.debugger
  refine ⟨tables, fun p => (h.free.runs.mem p).symm, by omega, by omega, owned, ?_, others⟩
  rw [counted, h.busyPages_unknown labelled, Nat.card_Ico, Nat.add_sub_cancel_left]

end Machine

end ConsoleMemory
