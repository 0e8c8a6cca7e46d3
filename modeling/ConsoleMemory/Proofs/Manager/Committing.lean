import ConsoleMemory.Manager.Tables
import ConsoleMemory.Proofs.Manager.TableSets

/-!
# Committing and releasing

The tables of a range come and go one by one, and each step keeps the invariant.
Where the pages run out in the midst of a range, the tables committed so far are
released again, and the machine is without tables that it did not have. So
committing gains the tables that are missing, or else it gains none
(`commitTables_yields`), and releasing takes away those that are empty
(`releaseTables_yields`).
-/

namespace ConsoleMemory

open VirtualAddress
open Finset (Ico)

namespace VirtualAddress

variable {va : VirtualAddress} {size : Nat}

/-- The 4 MiB spans that meet `[va, va + size)`. -/
def spans (va : VirtualAddress) (size : Nat) : Finset Nat :=
  (Ico va.toNat (va.toNat + size)).image fun a => a / 0x400000

/-- The directory entries of a range that ends inside the address space. -/
lemma pagesSpanned_le (fits : va.toNat + size ≤ 0x100000000) :
    va.pageNumber .large + va.pagesSpanned .large size ≤ 1024 := by
  rw [pagesSpanned, Address.offset, Address.pageNumber, PageSize.offsetMask, PageSize.bytes]
  omega

lemma spans_zero (va : VirtualAddress) : va.spans 0 = ∅ := by
  rw [spans, Nat.add_zero, Finset.Ico_self, Finset.image_empty]

lemma spans_eq (pos : 0 < size) : va.spans size =
    Ico (va.pageNumber .large) (va.pageNumber .large + va.pagesSpanned .large size) := by
  ext k
  rw [spans, Finset.mem_image, Finset.mem_Ico, pagesSpanned, Address.offset, Address.pageNumber,
    PageSize.offsetMask, PageSize.bytes]
  constructor
  · rintro ⟨a, inside, rfl⟩
    have := Finset.mem_Ico.mp inside
    omega
  · intro inside
    refine ⟨max va.toNat (k * 0x400000), Finset.mem_Ico.mpr ?_, ?_⟩ <;> omega

end VirtualAddress

namespace Machine

variable {c c' : Machine} {i t : Nat}

lemma Ico_succ (i count : Nat) :
    Ico i (i + (count + 1)) = {i} ∪ Ico (i + 1) (i + 1 + count) := by
  ext k
  simp only [Finset.mem_union, Finset.mem_singleton, Finset.mem_Ico]
  omega

/-- A range of directory entries begins with a gap or else has those of its rest. -/
lemma gaps_succ (c : Machine) (count : Nat) (hi : i < 1024) : c.gaps ∩ Ico i (i + (count + 1)) =
    if (c.pde i).valid then c.gaps ∩ Ico (i + 1) (i + 1 + count)
    else {i} ∪ c.gaps ∩ Ico (i + 1) (i + 1 + count) := by
  rw [Ico_succ, Finset.inter_union_distrib_left]
  split
  · next valid =>
    have none : c.gaps ∩ {i} = ∅ := Finset.inter_singleton_of_notMem fun mem => by
      cases valid.symm.trans (mem_gaps.mp mem).2
    rw [none, Finset.empty_union]
  · next invalid =>
    rw [Finset.inter_singleton_of_mem (mem_gaps.mpr ⟨hi, Bool.eq_false_of_not_eq_true invalid⟩)]

lemma card_gaps_succ (c : Machine) (count : Nat) (hi : i < 1024) :
    (c.gaps ∩ Ico i (i + (count + 1))).card = (if (c.pde i).valid then 0 else 1) +
      (c.gaps ∩ Ico (i + 1) (i + 1 + count)).card := by
  rw [c.gaps_succ count hi]
  split
  · rw [Nat.zero_add]
  · refine Finset.card_union_of_disjoint (Finset.disjoint_singleton_left.mpr fun mem => ?_)
    have := (Finset.mem_Ico.mp (Finset.mem_inter.mp mem).2).1
    omega

/-- A new table leaves the gaps above it. -/
lemma AddsTable.gaps_after {type : PageType} (com : AddsTable c c' type i t) (n : Nat) :
    c'.gaps ∩ Ico (i + 1) n = c.gaps ∩ Ico (i + 1) n := by
  ext k
  rw [Finset.mem_inter, Finset.mem_inter, mem_gaps, mem_gaps]
  refine and_congr_left fun mem => and_congr_right fun hk => ?_
  have later := (Finset.mem_Ico.mp mem).1
  rw [com.pde k hk, if_neg (by omega)]

/-- The directory entries of a list of page tables. -/
def indices (tables : List (Nat × Nat)) : Finset Nat := (tables.map Prod.fst).toFinset

/-- Page tables, given with their directory entries, that hold no entry and differ from each other.
-/
structure Spare (c : Machine) (tables : List (Nat × Nat)) : Prop where
  table : ∀ e ∈ tables, c.Table e.1 e.2
  blank : ∀ e ∈ tables, c.inUse e.2 = 0
  apart : tables.Pairwise fun e e' => e.1 ≠ e'.1

lemma indices_cons (e : Nat × Nat) (tables : List (Nat × Nat)) :
    indices (e :: tables) = {e.1} ∪ indices tables := by
  rw [indices, List.map_cons, List.toFinset_cons, Finset.insert_eq]
  rfl

/-- A directory entry that maps nothing is not one of them. -/
lemma Spare.notMem_indices {tables : List (Nat × Nat)} (spare : c.Spare tables)
    (invalid : (c.pde i).valid = false) : i ∉ indices tables := by
  intro mem
  obtain ⟨e, he, rfl⟩ := List.mem_map.mp (List.mem_toFinset.mp mem)
  cases (Entry.valid_of_namesTable (spare.table e he).names).symm.trans invalid

lemma AddsTable.spare {type : PageType} {tables : List (Nat × Nat)}
    (com : AddsTable c c' type i t) (h : c.Mapped) (spare : c.Spare tables) :
    c'.Spare ((i, t) :: tables) := by
  refine ⟨fun e mem => ?_, fun e mem => ?_, List.pairwise_cons.mpr ⟨fun e mem => ?_, spare.apart⟩⟩
  · rcases List.mem_cons.mp mem with rfl | mem
    · exact com.table
    · exact (com.table_iff e.1 e.2).mpr (Or.inr (spare.table e mem))
  · rcases List.mem_cons.mp mem with rfl | mem
    · exact com.inUse h
    · rw [← spare.blank e mem]
      exact inUse_congr fun j hj => com.pte_of_table h (spare.table e mem) hj
  · rintro rfl
    exact spare.notMem_indices com.hold.invalid (List.mem_toFinset.mpr (List.mem_map_of_mem mem))

lemma DropsTable.spare {tables : List (Nat × Nat)} (rel : DropsTable c c' i t) (h : c.Mapped)
    (spare : c.Spare ((i, t) :: tables)) : c'.Spare tables := by
  obtain ⟨first, rest⟩ := List.pairwise_cons.mp spare.apart
  have table (e : Nat × Nat) (mem : e ∈ tables) := spare.table e (List.mem_cons_of_mem _ mem)
  refine ⟨fun e mem => ?_, fun e mem => ?_, rest⟩
  · exact (rel.table_iff e.1 e.2).mpr ⟨table e mem, (first e mem).symm⟩
  · rw [← spare.blank e (List.mem_cons_of_mem _ mem)]
    exact inUse_congr fun j hj => rel.pte_of_table h (table e mem) hj

end Machine

namespace Manager

open Machine

variable {c c' : Machine} {W : PageMap} {i t : Nat} {l : FreeList} {o : Option Nat}
  {type : PageType}

lemma takeTablePage_leads (ok : c.freeList.remove
      { count := 1, first := 0, last := c.parameters.contiguousLimit } = .ok (o, l)) :
    Leads c W takeTablePage o (c.setFree l) W := Leads.current fun _ => take_leads ok

/-- Writing the directory entry of a page table and clearing the table, as one. -/
lemma install_yields (h : c.Mapped) (hold : c.CanHold i t) {α : Type} {a : α} {f : Unit → Step α}
    (rest : Yields (c.install i t) (f ()) a c') :
    Yields c (do
      let entry ← Entry.kernelTable t
      writeEntry (directoryEntryOf i) entry
      changeMemory fun memory => memory.clearRam (Pfn.base t) MemoryMap.pageBytes
      f ()) a c' := by
  have inside := hold.lt_pages h
  have few := c.ram.pages_le
  have place : (Pfn.base t).toNat = t * 4096 := by
    rw [Pfn.toNat_base]
    omega
  have cleared : Leads (c.setWord 0xF i (Entry.tableEntry t).bits) c.ram.walk
      (changeMemory fun memory => memory.clearRam (Pfn.base t) MemoryMap.pageBytes) ()
      (c.install i t) c.ram.walk := Leads.clearRam place (by decide) inside
  exact (Leads.lift (Entry.kernelTable_eq (by omega))).bind ((writeDirectoryEntry h hold.lt).bind
    ((cleared.mono (walk_le_install h hold)).bind rest))

/-- A page that is not busy becomes a page table. -/
theorem commitTable_adds (h : c.Wired) (counted : c.Counted) (hold : c.CanHold i t)
    (idle : (c.record t).busy = false) (type : PageType) (l : FreeList) :
    ∃ c', Yields (c.setFree l) (directory.commitTable type (directoryEntryOf i) t) () c' ∧
      c.AddsTable c' type i t ∧ c'.freeList = l ∧ c'.Wired ∧ c'.Counted := by
  have mapped := h.toMapped
  have ht : t ≤ c.parameters.highestPage := by
    have := hold.low
    have := h.fit.limit
    have := h.fit.inside
    omega
  have wired : ((c.install i t).setFree l).Wired := (h.install hold).setFree l
  have record (p : Nat) (hp : p ≤ c.parameters.highestPage) :
      ((c.install i t).setFree l).record p = c.record p := record_install mapped hold hp
  have counted : ((c.install i t).setFree l).Counted :=
    counted.congr rfl rfl fun p hp => by
      rw [record p hp]
      exact ⟨rfl, rfl⟩
  obtain ⟨c', marked, same, counted', records⟩ :=
    markBusyPage_yields (t := type) wired counted (directoryEntryOf i) ht (by
      rw [record t ht]
      exact idle)
  refine ⟨c', ?_, ⟨same.parameters, same.size, hold, fun k hk => ?_,
    fun s small outside apart j hj => ?_, fun p hp => ?_, fun k s => ?_⟩, same.freeList,
    same.wired wired, counted'⟩
  · have hold' : (c.setFree l).CanHold i t := ⟨hold.lt, hold.invalid, hold.low, hold.apart,
      fun k table => hold.fresh k (table_setFree.mp table)⟩
    refine install_yields (h.setFree l).toMapped hold' (f := fun _ => do
      markBusy t t (directoryEntryOf i) type
      note (.tableCommitted type t (spanOf (directoryEntryOf i)))) ?_
    exact marked.bind (.note _)
  · exact (same.pde wired.toMapped hk).trans (pde_install mapped hold hk)
  · exact (same.entry s small outside j hj).trans (pte_install mapped hold small apart hj)
  · rw [records p hp, record p hp]
  · rw [same.table_iff wired.toMapped, table_setFree]
    exact table_install mapped hold

/-- A page that was just taken becomes a page table. -/
theorem commitTable_yields (h : c.Kept) (hi : i < 1024) (invalid : (c.pde i).valid = false)
    (isTable : type.isPageTable = true)
    (lost : c.freeList.Loses c.idlePages c.parameters.contiguousLimit t l) :
    ∃ c', Yields (c.setFree l) (directory.commitTable type (directoryEntryOf i) t) () c' ∧
      Committed c c' type i t ∧ c'.Kept := by
  obtain ⟨c', ran, adds, free, wired, counted⟩ := commitTable_adds h.toWired h.counted
    (h.canHold hi invalid lost.mem lost.le) (mem_idlePages.mp lost.mem).2 type l
  have com : Committed c c' type i t := ⟨adds, free ▸ lost⟩
  exact ⟨c', ran, com, com.kept h isTable wired counted⟩

/-- A table that holds no entry goes, and what may be remembered through it is forgotten. -/
theorem releaseTable_drops (h : c.Wired) (counted : c.Counted) (table : c.Table i t)
    (busy : (c.record t).busy = true) (blank : c.inUse t = 0)
    (inserted : c.freeList.insert t t = .ok l) :
    ∃ c', Yields c (directory.releaseTable (directoryEntryOf i) t) () c' ∧ c.DropsTable c' i t ∧
      c'.freeList = l ∧ c'.Wired ∧ c'.Counted := by
  have hi := table.lt
  have ht := h.table_le table
  have wired := h.setFree l
  obtain ⟨d, marked, same, counted, records⟩ :=
    markIdlePage_yields wired (counted.setFree l) ht busy
  have named {k s : Nat} : d.Table k s ↔ c.Table k s :=
    (same.table_iff wired.toMapped).trans table_setFree
  have mapped' := (same.wired wired).toMapped
  have blank' : d.inUse t = 0 := by
    rw [← blank]
    exact inUse_congr fun j hj => same.pte wired.toMapped (table_setFree.mpr table) hj
  have counted' : (d.uninstall i).Counted :=
    counted.congr rfl rfl fun p hp => by
      rw [record_uninstall mapped' hi hp]
      exact ⟨rfl, rfl⟩
  refine ⟨d.uninstall i, ?_, ⟨same.parameters, same.size, table, fun k hk => ?_,
    fun s small outside apart j hj => ?_, fun p hp => ?_, fun k s => ?_⟩, same.freeList,
    (same.wired wired).uninstall (named.mpr table) blank', counted'⟩
  · have window : Leads (d.uninstall i) d.ram.walk (flush (directoryEntryOf i).mappedByEntry
        ((directoryEntryOf i).mappedByEntry + PageSize.small.offsetMask)) () (d.uninstall i)
        (.off d.ram.walk (0xC0000 + i) (0xC0000 + i)) := flushPage (by omega)
    have span := flushSpan (c := d.uninstall i)
      (W := .off d.ram.walk (0xC0000 + i) (0xC0000 + i)) hi
    refine (giveBack_leads inserted).bind (marked.bind ((writeDirectoryEntry mapped' hi).bind
      (window.bind (Leads.bind (a := ()) ?_ (.note _)))))
    rw [mappedByEntry_directoryEntryOf hi]
    exact span.mono (walk_le_uninstall mapped' hi)
  · rw [pde_uninstall mapped' hi hk, same.pde wired.toMapped hk]
    rfl
  · rw [pte_uninstall mapped' hi (same.pages ▸ small) apart hj]
    exact same.entry s small outside j hj
  · rw [record_uninstall mapped' hi (same.parameters ▸ hp)]
    exact records p hp
  · rw [table_uninstall mapped' hi, named]

/-- The page of a table that holds no entry is free again. -/
theorem releaseTable_yields (h : c.Kept) (table : c.Table i t) (blank : c.inUse t = 0) :
    ∃ c', Yields c (directory.releaseTable (directoryEntryOf i) t) () c' ∧ Released c c' i t ∧
      c'.Kept := by
  have ht := h.toWired.table_le table
  obtain ⟨l, inserted, keeps, pageCount, boundary, general⟩ := h.free.insert_page
    (h.pageCount ▸ Nat.lt_succ_of_le ht) (h.not_idle_of_table table) fun b eq =>
      Nat.lt_of_lt_of_le (h.toMapped.lt_database table) (h.fit.boundary b (h.boundary ▸ eq))
  obtain ⟨c', ran, drops, free, wired, counted⟩ := releaseTable_drops h.toWired h.counted table
    (h.busy_of_table table) blank inserted
  have rel : Released c c' i t :=
    ⟨drops, free ▸ keeps, free ▸ pageCount, free ▸ boundary, free ▸ general⟩
  exact ⟨c', ran, rel, rel.kept h wired counted⟩

/-! ### Ranges -/

variable {count : Nat} {va : VirtualAddress} {size : Nat} {tables : List (Nat × Nat)}

theorem releaseAll_yields (h : c.Kept) (spare : c.Spare tables) :
    ∃ c', Yields c (directory.releaseAll (tables.map fun e => (directoryEntryOf e.1, e.2))) () c' ∧
      c'.Kept ∧ c.Upholds c' ∧ c.Without c' (indices tables) ∅ := by
  induction tables generalizing c with
  | nil => exact ⟨c, .pure, h, .refl c, .refl c⟩
  | cons e tables ih =>
    have mem : e ∈ e :: tables := List.mem_cons_self
    have blank := spare.blank e mem
    obtain ⟨d, released, rel, kept⟩ := releaseTable_yields h (spare.table e mem) blank
    obtain ⟨c', ran, kept', upholds, w⟩ := ih kept (rel.spare h.toMapped spare)
    refine ⟨c', released.bind ran, kept', (rel.upholds h blank).trans upholds, ?_⟩
    rw [indices_cons]
    exact (rel.without h).trans w

theorem countMissing_yields (h : c.Mapped) (inside : i + count ≤ 1024) :
    Yields c (directory.countMissing count (directoryEntryOf i)) (c.gaps ∩ Ico i (i + count)).card
      c := by
  induction count generalizing i with
  | zero =>
    rw [Nat.add_zero, Finset.Ico_self, Finset.inter_empty]
    exact .pure
  | succ count ih =>
    rw [DirectoryAccess.countMissing, nextEntry_directoryEntryOf, c.card_gaps_succ count (by omega)]
    exact (readDirectoryEntry h (by omega)).bind ((ih (i := i + 1) (by omega)).bind .pure)

/-- What committing comes to at one directory entry: it names a table already, or no free page is
low enough and all that was committed is released, or the highest such page becomes a table. -/
theorem commitFrom_cases {S : Finset Nat} (h : c.Mapped) (free : c.freeList.Keeps S)
    (boundary : c.freeList.boundary = c.parameters.debuggerBoundary) (hi : i < 1024)
    (enough : (c.pde i).valid = false → 0 < c.freeList.general) (type : PageType) (count : Nat)
    (tables : List (Nat × Nat)) :
    ((c.pde i).valid = true ∧ ∀ answer c',
        Yields c (directory.commitFrom type count (directoryEntryOf (i + 1))
          (tables.map fun e => (directoryEntryOf e.1, e.2))) answer c' →
        Yields c (directory.commitFrom type (count + 1) (directoryEntryOf i)
          (tables.map fun e => (directoryEntryOf e.1, e.2))) answer c') ∨
      ((c.pde i).valid = false ∧ (∀ p ∈ S, c.parameters.contiguousLimit < p) ∧ ∀ c',
        Yields c (directory.releaseAll (tables.map fun e => (directoryEntryOf e.1, e.2))) () c' →
        Yields c (directory.commitFrom type (count + 1) (directoryEntryOf i)
          (tables.map fun e => (directoryEntryOf e.1, e.2))) (.error .noFreeBlock) c') ∨
      (c.pde i).valid = false ∧ ∃ t l, c.freeList.Loses S c.parameters.contiguousLimit t l ∧
        ∀ d answer c',
          Yields (c.setFree l) (directory.commitTable type (directoryEntryOf i) t) () d →
          Yields d (directory.commitFrom type count (directoryEntryOf (i + 1))
            (((i, t) :: tables).map fun e => (directoryEntryOf e.1, e.2))) answer c' →
          Yields c (directory.commitFrom type (count + 1) (directoryEntryOf i)
            (tables.map fun e => (directoryEntryOf e.1, e.2))) answer c' := by
  have read := readDirectoryEntry h hi
  rw [DirectoryAccess.commitFrom, nextEntry_directoryEntryOf]
  cases valid : (c.pde i).valid with
  | true =>
    refine Or.inl ⟨rfl, fun answer c' ran => read.bind ?_⟩
    rw [if_pos valid]
    exact ran
  | false =>
    rcases free.remove_page (enough valid)
      (fun b eq => Nat.lt_of_lt_of_le h.fit.limit (h.fit.boundary b (boundary ▸ eq)))
      with ⟨none, high⟩ | ⟨t, l, some, lost⟩
    · refine Or.inr (Or.inl ⟨rfl, high, fun c' ran => read.bind ?_⟩)
      rw [if_neg (by simp [valid])]
      exact (takeTablePage_leads none).bind
        (Leads.current fun _ => (Leads.note _).bind (ran.bind .pure))
    · refine Or.inr (Or.inr ⟨rfl, t, l, lost, fun d answer c' committed ran => read.bind ?_⟩)
      rw [if_neg (by simp [valid])]
      exact (takeTablePage_leads some).bind (committed.bind ran)

/-- Missing tables are committed one after the other, or all that were committed are released. -/
theorem commitFrom_yields (h : c.Kept) (isTable : type.isPageTable = true)
    (inside : i + count ≤ 1024) (enough : (c.gaps ∩ Ico i (i + count)).card ≤ c.freeList.general)
    (spare : c.Spare tables) :
    ∃ answer c', Yields c (directory.commitFrom type count (directoryEntryOf i)
        (tables.map fun e => (directoryEntryOf e.1, e.2))) answer c' ∧
      c'.Kept ∧ c.Upholds c' ∧
      (answer = .ok () ∧ c.Gains c' type (c.gaps ∩ Ico i (i + count)) ∨
        answer = .error .noFreeBlock ∧
          c.lowPages.card < (c.gaps ∩ Ico i (i + count)).card ∧
          c.Without c' (indices tables) c.idlePages) := by
  induction count generalizing c i tables with
  | zero =>
    rw [Nat.add_zero, Finset.Ico_self, Finset.inter_empty]
    exact ⟨.ok (), c, .pure, h, .refl c, Or.inl ⟨rfl, .refl c type⟩⟩
  | succ count ih =>
    have hi : i < 1024 := by omega
    have gaps := c.gaps_succ count hi
    have card := c.card_gaps_succ count hi
    have some_left (invalid : (c.pde i).valid = false) : 0 < c.freeList.general := by
      rw [invalid, if_neg Bool.false_ne_true] at card
      omega
    rcases commitFrom_cases h.toMapped h.free h.boundary hi some_left type count tables with
      ⟨valid, goes⟩ | ⟨invalid, high, goes⟩ | ⟨invalid, t, l, lost, goes⟩
    · rw [valid, if_pos rfl] at gaps
      rw [gaps] at enough ⊢
      obtain ⟨answer, c', ran, rest⟩ := ih h (i := i + 1) (by omega) enough spare
      exact ⟨answer, c', goes answer c' ran, rest⟩
    · rw [invalid, if_neg Bool.false_ne_true] at card
      obtain ⟨c', ran, kept, upholds, w⟩ := releaseAll_yields h spare
      have empty : c.lowPages = ∅ := Finset.filter_eq_empty_iff.mpr fun p idle =>
        Nat.not_le_of_lt (high p idle)
      refine ⟨.error .noFreeBlock, c', goes c' ran, kept, upholds, Or.inr ⟨rfl, ?_,
        w.mono (Finset.empty_subset _)⟩⟩
      rw [empty, Finset.card_empty]
      omega
    · rw [invalid, if_neg Bool.false_ne_true] at gaps card
      obtain ⟨d, committed, com, kept⟩ := commitTable_yields h hi invalid isTable lost
      have rest := com.gaps_after (i + 1 + count)
      have general := com.lost.general
      obtain ⟨answer, c', ran, kept', upholds, result⟩ := ih kept (i := i + 1) (by omega)
        (by
          rw [rest]
          omega) (com.spare h.toMapped spare)
      refine ⟨answer, c', goes d answer c' committed ran, kept', (com.upholds h).trans upholds, ?_⟩
      rw [rest] at result
      have w := com.without h
      rcases result with ⟨ok, gains⟩ | ⟨failed, few, w'⟩
      · rw [gaps]
        refine Or.inl ⟨ok, gains.cons com h kept kept' fun j hj => ?_⟩
        exact (Finset.mem_Ico.mp (Finset.mem_inter.mp hj).2).1
      · have low := w.card_lowPages kept.toOrdered
        rw [Finset.card_singleton] at low
        refine Or.inr ⟨failed, by omega, ?_⟩
        rw [indices_cons] at w'
        have back := w.cancel w' (Finset.disjoint_singleton_left.mpr (spare.notMem_indices invalid))
        refine back.mono (Finset.union_subset (Finset.singleton_subset_iff.mpr com.lost.mem) ?_)
        rw [w.idlePages_eq kept.toOrdered]
        exact Finset.subset_union_left

/-- The type of the tables of a range. -/
def tableType (va : VirtualAddress) : PageType :=
  if va.isUser then .virtualPageTable else .systemPageTable

lemma isPageTable_tableType (va : VirtualAddress) : (tableType va).isPageTable = true := by
  unfold tableType
  split <;> rfl

/-- What committing the tables of the directory entries in `I` comes to: all of them are there, or
the machine is as before but for the contents of free pages. -/
def Commits (c c' : Machine) (type : PageType) (I : Finset Nat) : Except CommitError Unit → Prop
  | .ok () => I.card ≤ c.freeList.general ∧ I.card ≤ c.lowPages.card ∧ c.Gains c' type I
  | .error (.outOfMemory requested available) =>
    c.freeList.general < I.card ∧ requested = I.card ∧ available = c.freeList.general ∧
      c.DiffersIn c' c.idlePages
  | .error .noFreeBlock =>
    I.card ≤ c.freeList.general ∧ c.lowPages.card < I.card ∧ c.DiffersIn c' c.idlePages

lemma Commits.nothing (c : Machine) (type : PageType) : Commits c c type ∅ (.ok ()) :=
  ⟨Nat.zero_le _, Nat.zero_le _, .refl c type⟩

/-- What committing the tables of a range comes to before a page is taken: none is missing, or the
general pool has too few pages, or the directory entries of the range are gone through. -/
theorem commitTables_cases (h : c.Mapped) (fits : va.toNat + size ≤ 0x100000000) :
    (c.gaps ∩ va.spans size = ∅ ∧ Yields c (commitTables va size) (.ok ()) c) ∨
      (c.freeList.general < (c.gaps ∩ va.spans size).card ∧
        Yields c (commitTables va size)
          (.error (.outOfMemory (c.gaps ∩ va.spans size).card c.freeList.general)) c) ∨
      ∃ i count, i + count ≤ 1024 ∧ va.spans size = Ico i (i + count) ∧
        (c.gaps ∩ Ico i (i + count)).card ≤ c.freeList.general ∧
        ∀ answer c',
          Yields c (directory.commitFrom (tableType va) count (directoryEntryOf i) []) answer c' →
          Yields c (commitTables va size) answer c' := by
  rw [commitTables, DirectoryAccess.commitTables]
  by_cases none : size = 0
  · rw [if_pos none, none, spans_zero, Finset.inter_empty]
    exact Or.inl ⟨rfl, .pure⟩
  rw [if_neg none, directoryEntryAddress_eq, spans_eq (Nat.pos_of_ne_zero none)]
  have inside := pagesSpanned_le fits
  have counted := countMissing_yields h inside
  generalize gaps : c.gaps ∩ Ico (va.pageNumber .large)
    (va.pageNumber .large + va.pagesSpanned .large size) = I at counted ⊢
  by_cases zero : I.card = 0
  · rw [Finset.card_eq_zero.mp zero] at counted ⊢
    exact Or.inl ⟨rfl, counted.bind .pure⟩
  by_cases few : c.freeList.general < I.card
  · refine Or.inr (Or.inl ⟨few, counted.bind ?_⟩)
    rw [if_neg zero]
    refine Leads.current fun t => ?_
    have short : (c.manager t).available < I.card := few
    rw [if_pos short]
    exact (Leads.note _).bind .pure
  · refine Or.inr (Or.inr ⟨_, _, inside, rfl, gaps ▸ Nat.le_of_not_lt few,
      fun answer c' ran => counted.bind ?_⟩)
    rw [if_neg zero]
    refine Leads.current fun t => ?_
    have enough : ¬ (c.manager t).available < I.card := few
    rw [if_neg enough]
    exact ran

/-- Committing the tables of a range gains those that are missing, or none where there are too few
pages. -/
theorem commitTables_yields (h : c.Kept) (fits : va.toNat + size ≤ 0x100000000) :
    ∃ answer c', Yields c (commitTables va size) answer c' ∧
      c'.Kept ∧ c.Upholds c' ∧ Commits c c' (tableType va) (c.gaps ∩ va.spans size) answer := by
  rcases commitTables_cases h.toMapped fits with
    ⟨none, ran⟩ | ⟨few, ran⟩ | ⟨i, count, inside, spans, enough, goes⟩
  · rw [none]
    exact ⟨.ok (), c, ran, h, .refl c, .nothing c _⟩
  · exact ⟨_, c, ran, h, .refl c, few, rfl, rfl, (Without.refl c).mono (Finset.empty_subset _)⟩
  · have none : c.Spare [] := ⟨nofun, nofun, .nil⟩
    obtain ⟨answer, c', ran, kept, upholds, result⟩ :=
      commitFrom_yields h (isPageTable_tableType va) inside enough none
    rw [spans]
    refine ⟨answer, c', goes answer c' ran, kept, upholds, ?_⟩
    rcases result with ⟨rfl, gains⟩ | ⟨rfl, low, same⟩
    · have low := gains.without.card_lowPages kept.toOrdered
      exact ⟨enough, by omega, gains⟩
    · exact ⟨enough, low, same⟩

lemma selfMap_eq : VirtualAddress.directoryEntryAddress (.ofNat MemoryMap.pageTablesBase) =
    directoryEntryOf 0x300 := by decide +kernel

lemma directoryEntryOf_ne (hi : i < 1024) (ne : i ≠ 0x300) :
    directoryEntryOf i ≠ directoryEntryOf 0x300 := by
  intro eq
  have same := congrArg Address.toNat eq
  rw [directoryEntryOf, directoryEntryOf, toNat_entryOf (by omega), toNat_entryOf (by omega)]
    at same
  omega

/-- What releasing comes to at one directory entry: it names no table that is empty, or its table is
released. -/
theorem releaseIfEmpty_cases (h : c.Wired) (hi : i < 1024)
    (tables : ∀ t, c.Table i t → (c.record t).isBusyPageTable = true) :
    (i ∉ c.emptyTables ∧ Yields c (directory.releaseIfEmpty (directoryEntryOf i)) () c) ∨
      ∃ t, c.Table i t ∧ (c.record t).entriesUsed = 0 ∧ ∀ c',
        Yields c (directory.releaseTable (directoryEntryOf i) t) () c' →
        Yields c (directory.releaseIfEmpty (directoryEntryOf i)) () c' := by
  have read := readDirectoryEntry h.toMapped hi
  rw [DirectoryAccess.releaseIfEmpty]
  rw [selfMap_eq]
  dsimp only
  by_cases self : i = 0x300
  · refine Or.inl ⟨fun mem => ?_, read.bind ?_⟩
    · exact (table_of_mem (mem_emptyTables.mp mem).1).ne self
    · rw [self, decide_eq_false (fun ne => ne rfl)]
      exact .pure
  simp only [decide_eq_true (directoryEntryOf_ne hi self), Bool.true_and]
  cases names : (c.pde i).namesTable with
  | false =>
    refine Or.inl ⟨fun mem => ?_, read.bind ?_⟩
    · cases names.symm.trans (table_of_mem (mem_emptyTables.mp mem).1).names
    · rw [names]
      exact .pure
  | true =>
    have table : c.Table i (c.pde i).frame := ⟨hi, self, names, rfl⟩
    have record := readRecord_yields h (h.table_le table)
    have busy := tables _ table
    by_cases used : (c.record (c.pde i).frame).entriesUsed = 0
    · refine Or.inr ⟨_, table, used, fun c' released => read.bind ?_⟩
      rw [if_pos names]
      refine record.bind ((Leads.require busy).bind ?_)
      rw [if_pos used]
      exact released
    · refine Or.inl ⟨fun mem => used (mem_emptyTables.mp mem).2, read.bind ?_⟩
      rw [if_pos names]
      refine record.bind ((Leads.require busy).bind ?_)
      rw [if_neg used]
      exact .pure

/-- A single table is released just where it is empty. -/
theorem releaseIfEmpty_yields (h : c.Kept) (hi : i < 1024) :
    ∃ c', Yields c (directory.releaseIfEmpty (directoryEntryOf i)) () c' ∧
      c'.Kept ∧ c.Upholds c' ∧ c.Without c' (c.emptyTables ∩ {i}) ∅ := by
  rcases releaseIfEmpty_cases h.toWired hi (h.tables i) with ⟨full, ran⟩ | ⟨t, table, used, goes⟩
  · refine ⟨c, ran, h, .refl c, ?_⟩
    rw [Finset.inter_singleton_of_notMem full]
    exact .refl c
  · have blank : c.inUse t = 0 := (h.used i t table).symm.trans used
    obtain ⟨c', released, rel, kept⟩ := releaseTable_yields h table blank
    refine ⟨c', goes c' released, kept, rel.upholds h blank, ?_⟩
    have empty : i ∈ c.emptyTables :=
      mem_emptyTables.mpr ⟨mem_tableIndices.mpr ⟨t, table⟩, table.frame.symm ▸ used⟩
    rw [Finset.inter_singleton_of_mem empty]
    exact rel.without h

/-- What each step through the directory keeps, releasing the tables of a range keeps. -/
theorem releaseFrom_leads {P : Nat → Machine → Prop} (inside : i + count ≤ 1024)
    (step : ∀ k c, i ≤ k → k < 1024 → P k c →
      ∃ c', Yields c (directory.releaseIfEmpty (directoryEntryOf k)) () c' ∧ P (k + 1) c')
    (start : P i c) :
    ∃ c', Yields c (directory.releaseFrom count (directoryEntryOf i)) () c' ∧ P (i + count) c' := by
  induction count generalizing c i with
  | zero => exact ⟨c, .pure, start⟩
  | succ count ih =>
    obtain ⟨d, released, at_d⟩ := step i c le_rfl (by omega) start
    obtain ⟨c', ran, at_end⟩ := ih (i := i + 1) (by omega)
      (fun k c le => step k c (by omega)) at_d
    rw [DirectoryAccess.releaseFrom, nextEntry_directoryEntryOf]
    rw [Nat.add_right_comm] at at_end
    exact ⟨c', released.bind ran, at_end⟩

theorem releaseFrom_yields (h : c.Kept) (inside : i + count ≤ 1024) :
    ∃ c', Yields c (directory.releaseFrom count (directoryEntryOf i)) () c' ∧
      c'.Kept ∧ c.Upholds c' ∧ c.Without c' (c.emptyTables ∩ Ico i (i + count)) ∅ := by
  refine releaseFrom_leads (P := fun k d => d.Kept ∧ c.Upholds d ∧
    c.Without d (c.emptyTables ∩ Ico i k) ∅) inside (fun k d le hk at_d => ?_) ⟨h, .refl c, ?_⟩
  · obtain ⟨kept, upholds, w⟩ := at_d
    obtain ⟨c', ran, kept', upholds', w'⟩ := releaseIfEmpty_yields kept hk
    refine ⟨c', ran, kept', upholds.trans upholds', ?_⟩
    rw [Nat.Ico_succ_right_eq_insert_Ico le, Finset.insert_eq, Finset.union_comm]
    exact Without.trans_empty h.toOrdered w w'
  · rw [Finset.Ico_self, Finset.inter_empty]
    exact .refl c

/-- Releasing the tables of a range goes through its directory entries. -/
lemma releaseTables_cases (fits : va.toNat + size ≤ 0x100000000) :
    va.spans size = ∅ ∧ releaseTables va size = pure () ∨
      ∃ i count, i + count ≤ 1024 ∧ va.spans size = Ico i (i + count) ∧
        releaseTables va size = directory.releaseFrom count (directoryEntryOf i) := by
  rw [releaseTables, DirectoryAccess.releaseTables]
  by_cases none : size = 0
  · rw [if_pos none, none, spans_zero]
    exact Or.inl ⟨rfl, rfl⟩
  · rw [if_neg none, directoryEntryAddress_eq, spans_eq (Nat.pos_of_ne_zero none)]
    exact Or.inr ⟨_, _, pagesSpanned_le fits, rfl, rfl⟩

/-- Releasing the tables of a range takes away those that are empty. -/
theorem releaseTables_yields (h : c.Kept) (fits : va.toNat + size ≤ 0x100000000) :
    ∃ c', Yields c (releaseTables va size) () c' ∧ c'.Kept ∧ c.Upholds c' ∧
      c.Without c' (c.emptyTables ∩ va.spans size) ∅ := by
  rcases releaseTables_cases fits with ⟨none, nothing⟩ | ⟨i, count, inside, spans, eq⟩
  · rw [nothing, none, Finset.inter_empty]
    exact ⟨c, .pure, h, .refl c, .refl c⟩
  · rw [eq, spans]
    exact releaseFrom_yields h inside

end Manager

end ConsoleMemory
