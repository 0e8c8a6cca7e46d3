import ConsoleMemory.Proofs.Manager.Ownership
import ConsoleMemory.Proofs.Manager.Tables

/-!
# Sets of page tables

What a machine is without some of its page tables is settled by the tables alone:
their directory entries and records are zero, their pages are free, and all else
is as it was. So tables may come and go one by one, in any order and on different
ways, and only the set of those that went matters.
-/

namespace ConsoleMemory.Machine

variable {c c' c'' : Machine} {I J O P : Finset Nat} {i j p s t : Nat} {type : PageType}

lemma ite_mem_union {α : Type} {x y : α} :
    (if i ∈ I ∪ J then x else y) = if i ∈ J then x else if i ∈ I then x else y := by
  by_cases left : i ∈ I
  · rw [if_pos (Finset.mem_union_left J left), if_pos left, ite_self]
  · rw [if_neg left]
    refine if_congr ?_ rfl rfl
    rw [Finset.mem_union, or_iff_right left]

/-- The pages of the tables that the directory entries in `I` name. -/
def tablesOf (c : Machine) (I : Finset Nat) : Finset Nat := I.image fun i => (c.pde i).frame

/-- Directory entries that name page tables with no entry in use. -/
def emptyTables (c : Machine) : Finset Nat :=
  c.tableIndices.filter fun i => (c.record (c.pde i).frame).entriesUsed = 0

/-- Free pages that are low enough to hold page tables. -/
def lowPages (c : Machine) : Finset Nat :=
  c.idlePages.filter fun p => p ≤ c.parameters.contiguousLimit

/-- Directory entries that map nothing. -/
def gaps (c : Machine) : Finset Nat := (Finset.range 1024).filter fun i => (c.pde i).valid = false

/-- The machine `c'` is `c` without the page tables of the directory entries in `I`; what the pages
in `O` hold is left open. -/
structure Without (c c' : Machine) (I O : Finset Nat) : Prop where
  parameters : c'.parameters = c.parameters
  size : c'.ram.size = c.ram.size
  tables : I ⊆ c.tableIndices
  debugger : c'.freeList.debugger = c.freeList.debugger
  pde : ∀ k < 1024, c'.pde k = if k ∈ I then .zero else c.pde k
  record : ∀ p ≤ c.parameters.highestPage,
    c'.record p = if p ∈ c.tablesOf I then .zero else c.record p
  pte : ∀ s < c.ram.pages, (s < c.parameters.databasePage ∨
    c.parameters.databasePage + c.parameters.databasePages ≤ s) → s ≠ 0xF → s ∉ O →
    ∀ j < 1024, c'.pte s j = c.pte s j

lemma mem_tablesOf : p ∈ c.tablesOf I ↔ ∃ i ∈ I, (c.pde i).frame = p := Finset.mem_image

lemma tablesOf_empty (c : Machine) : c.tablesOf ∅ = ∅ := Finset.image_empty _

lemma tablesOf_union (c : Machine) (I J : Finset Nat) :
    c.tablesOf (I ∪ J) = c.tablesOf I ∪ c.tablesOf J := Finset.image_union I J

lemma Table.tablesOf_eq (table : c.Table i t) : c.tablesOf {i} = {t} := by
  rw [tablesOf, Finset.image_singleton, table.frame]

lemma tablesOf_congr (same : ∀ i ∈ I, c'.pde i = c.pde i) : c'.tablesOf I = c.tablesOf I :=
  Finset.image_congr fun i mem => congrArg Entry.frame (same i mem)

lemma mem_lowPages :
    p ∈ c.lowPages ↔ p ∈ c.idlePages ∧ p ≤ c.parameters.contiguousLimit := Finset.mem_filter

lemma mem_gaps : i ∈ c.gaps ↔ i < 1024 ∧ (c.pde i).valid = false := by
  rw [gaps, Finset.mem_filter, Finset.mem_range]

lemma mem_emptyTables : i ∈ c.emptyTables ↔
    i ∈ c.tableIndices ∧ (c.record (c.pde i).frame).entriesUsed = 0 := Finset.mem_filter

lemma table_of_mem (mem : i ∈ c.tableIndices) : c.Table i (c.pde i).frame := by
  obtain ⟨t, table⟩ := mem_tableIndices.mp mem
  exact table.frame ▸ table

namespace Mapped

variable (h : c.Mapped) (sub : I ⊆ c.tableIndices)
include h sub

/-- No two directory entries name one table. -/
lemma frame_mem_tablesOf_iff (mem : i ∈ c.tableIndices) :
    (c.pde i).frame ∈ c.tablesOf I ↔ i ∈ I := by
  refine ⟨fun inside => ?_, fun inside => mem_tablesOf.mpr ⟨i, inside, rfl⟩⟩
  obtain ⟨j, hj, same⟩ := mem_tablesOf.mp inside
  have named : c.Table j (c.pde i).frame := same ▸ table_of_mem (sub hj)
  rwa [h.distinct i j _ (table_of_mem mem) named]

lemma injOn_frame : Set.InjOn (fun i => (c.pde i).frame) I := by
  intro i hi j hj same
  have named : c.Table j (c.pde i).frame := Eq.mpr (congrArg _ same) (table_of_mem (sub hj))
  exact h.distinct i j _ (table_of_mem (sub hi)) named

lemma card_tablesOf : (c.tablesOf I).card = I.card :=
  Finset.card_image_of_injOn (h.injOn_frame sub)

end Mapped

lemma Ordered.disjoint_tablesOf (h : c.Ordered) (sub : I ⊆ c.tableIndices) :
    Disjoint c.idlePages (c.tablesOf I) := by
  refine Finset.disjoint_right.mpr fun p inside => ?_
  obtain ⟨i, hi, rfl⟩ := mem_tablesOf.mp inside
  exact h.not_idle_of_table (table_of_mem (sub hi))

namespace Without

lemma refl (c : Machine) : c.Without c ∅ ∅ :=
  ⟨rfl, rfl, Finset.empty_subset _, rfl, fun _ _ => rfl, fun _ _ => by
    rw [tablesOf_empty, if_neg (Finset.notMem_empty _)], fun _ _ _ _ _ _ _ => rfl⟩

variable (w : c.Without c' I O)
include w

lemma pages : c'.ram.pages = c.ram.pages := by
  rw [Ram.pages, Ram.pages, w.size]

lemma mono (sub : O ⊆ P) : c.Without c' I P :=
  ⟨w.parameters, w.size, w.tables, w.debugger, w.pde, w.record,
    fun s small outside apart shut => w.pte s small outside apart fun mem => shut (sub mem)⟩

lemma table_iff : c'.Table i t ↔ c.Table i t ∧ i ∉ I := by
  constructor
  · rintro ⟨lt, ne, names, frame⟩
    have entry := w.pde i lt
    by_cases mem : i ∈ I
    · rw [if_pos mem] at entry
      rw [entry, Entry.namesTable_zero] at names
      cases names
    · rw [if_neg mem] at entry
      exact ⟨⟨lt, ne, entry ▸ names, entry ▸ frame⟩, mem⟩
  · rintro ⟨⟨lt, ne, names, frame⟩, out⟩
    have entry := w.pde i lt
    rw [if_neg out] at entry
    exact ⟨lt, ne, entry ▸ names, entry ▸ frame⟩

lemma tableIndices_eq : c'.tableIndices = c.tableIndices \ I := by
  ext i
  rw [mem_tableIndices, Finset.mem_sdiff, mem_tableIndices]
  constructor
  · rintro ⟨t, table⟩
    obtain ⟨table, out⟩ := w.table_iff.mp table
    exact ⟨⟨t, table⟩, out⟩
  · rintro ⟨⟨t, table⟩, out⟩
    exact ⟨t, w.table_iff.mpr ⟨table, out⟩⟩

/-- The tables that are left are where they were. -/
lemma tablesOf_eq (sub : J ⊆ c'.tableIndices) : c'.tablesOf J = c.tablesOf J := by
  refine tablesOf_congr fun j hj => ?_
  have left := sub hj
  rw [w.tableIndices_eq] at left
  obtain ⟨old, out⟩ := Finset.mem_sdiff.mp left
  rw [w.pde j (table_of_mem old).lt, if_neg out]

/-- Tables that go after others go with them. -/
theorem trans (w' : c'.Without c'' J P) : c.Without c'' (I ∪ J) (O ∪ P) := by
  have left : J ⊆ c.tableIndices := fun j hj => by
    have mem := w'.tables hj
    rw [w.tableIndices_eq] at mem
    exact (Finset.mem_sdiff.mp mem).1
  refine ⟨w'.parameters.trans w.parameters, w'.size.trans w.size,
    Finset.union_subset w.tables left, w'.debugger.trans w.debugger, fun k hk => ?_, fun p hp => ?_,
    fun s small outside apart shut j hj => ?_⟩
  · rw [w'.pde k hk, w.pde k hk, ite_mem_union]
  · rw [w'.record p (by rwa [w.parameters]), w.record p hp, w.tablesOf_eq w'.tables, tablesOf_union,
      ite_mem_union]
  · have shut : s ∉ O ∧ s ∉ P := not_or.mp fun mem => shut (Finset.mem_union.mpr mem)
    have later := w'.pte s (by rwa [w.pages]) (by rwa [w.parameters]) apart shut.2 j hj
    exact later.trans (w.pte s small outside apart shut.1 j hj)

/-- Where fewer tables went, the others are still to go. -/
theorem cancel (w' : c.Without c'' (I ∪ J) P) (apart : Disjoint I J) :
    c'.Without c'' J (O ∪ P) := by
  have left : J ⊆ c'.tableIndices := fun j hj => by
    rw [w.tableIndices_eq]
    refine Finset.mem_sdiff.mpr ⟨w'.tables (Finset.mem_union_right I hj), ?_⟩
    exact Finset.disjoint_right.mp apart hj
  refine ⟨w'.parameters.trans w.parameters.symm, w'.size.trans w.size.symm, left,
    w'.debugger.trans w.debugger.symm, fun k hk => ?_, fun p hp => ?_,
    fun s small outside ne shut j hj => ?_⟩
  · rw [w'.pde k hk, w.pde k hk, ite_mem_union]
  · rw [w.parameters] at hp
    rw [w'.record p hp, w.record p hp, w.tablesOf_eq left, tablesOf_union, ite_mem_union]
  · have shut : s ∉ O ∧ s ∉ P := not_or.mp fun mem => shut (Finset.mem_union.mpr mem)
    rw [w.pages] at small
    rw [w.parameters] at outside
    exact (w'.pte s small outside ne shut.2 j hj).trans
      (w.pte s small outside ne shut.1 j hj).symm

/-- Bytes outside of `O` stay, but for the directory and the database. -/
lemma byteAt_eq {a : Nat} (inside : a < c.ram.size) (apart : a / 4096 ≠ 0xF)
    (outside : a / 4096 < c.parameters.databasePage ∨
      c.parameters.databasePage + c.parameters.databasePages ≤ a / 4096) (out : a / 4096 ∉ O) :
    c'.ram.byteAt a = c.ram.byteAt a := by
  have size := c.ram.size_eq
  have entry := w.pte (a / 4096) (by omega) outside apart out (a % 4096 / 4) (by omega)
  exact Ram.byteAt_eq_of_word (congrArg Entry.bits entry)

/-- Pages of tables that are left are not those of tables that went. -/
lemma frame_notMem_tablesOf (h : c.Mapped) (mem : i ∈ c.tableIndices) (out : i ∉ I) :
    (c.pde i).frame ∉ c.tablesOf I :=
  fun inside => out ((h.frame_mem_tablesOf_iff w.tables mem).mp inside)

section
variable (h : c.Ordered)
include h

/-- The pages of the tables that went are free. -/
lemma idlePages_eq : c'.idlePages = c.idlePages ∪ c.tablesOf I := by
  ext p
  rw [mem_idlePages, Finset.mem_union, mem_idlePages, w.parameters]
  by_cases mem : p ∈ c.tablesOf I
  · obtain ⟨i, hi, frame⟩ := mem_tablesOf.mp mem
    have hp := h.toWired.table_le (table_of_mem (w.tables hi))
    rw [frame] at hp
    rw [w.record p hp, if_pos mem]
    exact ⟨fun _ => Or.inr mem, fun _ => ⟨hp, PfnRecord.busy_zero⟩⟩
  · rw [or_iff_left mem]
    refine and_congr_right fun hp => ?_
    rw [w.record p hp, if_neg mem]

lemma card_idlePages : c'.idlePages.card = c.idlePages.card + I.card := by
  rw [w.idlePages_eq h, Finset.card_union_of_disjoint (h.disjoint_tablesOf w.tables),
    h.toMapped.card_tablesOf w.tables]

/-- All page tables are low. -/
lemma lowPages_eq : c'.lowPages = c.lowPages ∪ c.tablesOf I := by
  have low : (c.tablesOf I).filter (fun p => p ≤ c.parameters.contiguousLimit) = c.tablesOf I := by
    refine Finset.filter_true_of_mem fun p mem => ?_
    obtain ⟨i, hi, frame⟩ := mem_tablesOf.mp mem
    exact frame ▸ h.low i _ (table_of_mem (w.tables hi))
  rw [lowPages, w.parameters, w.idlePages_eq h, Finset.filter_union, low]
  rfl

lemma card_lowPages : c'.lowPages.card = c.lowPages.card + I.card := by
  have apart : Disjoint c.lowPages (c.tablesOf I) :=
    (h.disjoint_tablesOf w.tables).mono_left (Finset.filter_subset _ _)
  rw [w.lowPages_eq h, Finset.card_union_of_disjoint apart, h.toMapped.card_tablesOf w.tables]

/-- The tables without an entry in use are those of before but those that went. -/
lemma emptyTables_eq : c'.emptyTables = c.emptyTables \ I := by
  ext i
  rw [mem_emptyTables, Finset.mem_sdiff, mem_emptyTables, w.tableIndices_eq, Finset.mem_sdiff,
    and_right_comm]
  refine and_congr_left fun out => and_congr_right fun mem => ?_
  have table := table_of_mem mem
  rw [w.pde i table.lt, if_neg out, w.record _ (h.toWired.table_le table),
    if_neg (w.frame_notMem_tablesOf h.toMapped mem out)]

omit w in
/-- Empty tables that go in two steps are the empty tables of both ranges. -/
theorem trans_empty {A B : Finset Nat} (w : c.Without c' (c.emptyTables ∩ A) O)
    (w' : c'.Without c'' (c'.emptyTables ∩ B) P) :
    c.Without c'' (c.emptyTables ∩ (A ∪ B)) (O ∪ P) := by
  have both : c.emptyTables ∩ A ∪ c'.emptyTables ∩ B = c.emptyTables ∩ (A ∪ B) := by
    rw [w.emptyTables_eq h]
    ext i
    by_cases first : i ∈ A <;> simp [first]
  rw [← both]
  exact w.trans w'

/-- Each table that went is one page less of its type. -/
lemma count_usage (h' : c'.Ordered) (type : PageType) : c.usage.count type = c'.usage.count type +
    (I.filter fun i => (c.record (c.pde i).frame).pageType = type).card := by
  have sub : (I.filter fun i => (c.record (c.pde i).frame).pageType = type) ⊆ c.tableIndices :=
    (Finset.filter_subset _ _).trans w.tables
  have left : c'.busyPages type = c.busyPages type \ c.tablesOf I := by
    ext p
    rw [mem_busyPages, Finset.mem_sdiff, mem_busyPages, w.parameters, and_assoc]
    refine and_congr_right fun hp => ?_
    rw [w.record p hp]
    by_cases mem : p ∈ c.tablesOf I
    · rw [if_pos mem, PfnRecord.busy_zero]
      simp [mem]
    · rw [if_neg mem, and_iff_left mem]
  have gone : c.busyPages type ∩ c.tablesOf I =
      c.tablesOf (I.filter fun i => (c.record (c.pde i).frame).pageType = type) := by
    ext p
    rw [Finset.mem_inter, mem_busyPages, mem_tablesOf, mem_tablesOf]
    constructor
    · rintro ⟨⟨_, _, is_type⟩, i, hi, rfl⟩
      exact ⟨i, Finset.mem_filter.mpr ⟨hi, is_type⟩, rfl⟩
    · rintro ⟨i, hi, rfl⟩
      obtain ⟨hi, is_type⟩ := Finset.mem_filter.mp hi
      have table := table_of_mem (w.tables hi)
      exact ⟨⟨h.toWired.table_le table, h.busy_of_table table, is_type⟩, i, hi, rfl⟩
  rw [h.counted, h'.counted, left, ← h.toMapped.card_tablesOf sub, ← gone,
    Finset.card_sdiff_add_card_inter]

end

section
variable (h : c.Kept) (h' : c'.Kept)
include h h'

lemma general_eq : c'.freeList.general = c.freeList.general + I.card := by
  have := h.free.balanced
  have := h'.free.balanced
  have := w.card_idlePages h.toOrdered
  have := w.debugger
  omega

/-- A page is free just where it was free before or held a table that went. -/
lemma mem_freeList : p ∈ c'.freeList ↔ p ∈ c.freeList ∨ p ∈ c.tablesOf I := by
  change (∃ b ∈ c'.freeList.blocks, p ∈ b) ↔ (∃ b ∈ c.freeList.blocks, p ∈ b) ∨ _
  rw [← h'.free.runs.mem, ← h.free.runs.mem, w.idlePages_eq h.toOrdered, Finset.mem_union]

end

end Without

/-! ### One table -/

/-- A table that is released goes, and its page still holds what it held. -/
theorem Released.without (rel : Released c c' i t) (h : c.Kept) : c.Without c' {i} ∅ := by
  have table := rel.table
  refine ⟨rel.parameters, rel.size, ?_, ?_, fun k hk => ?_, fun p hp => ?_,
    fun s small outside apart _ j hj => rel.pte s small outside apart j hj⟩
  · exact Finset.singleton_subset_iff.mpr (mem_tableIndices.mpr ⟨t, table⟩)
  · have before := h.free.balanced
    have after := rel.keeps.balanced
    rw [Nat.Ico_succ_singleton, Finset.card_union_of_disjoint
      (Finset.disjoint_singleton_right.mpr (h.not_idle_of_table table)),
      Finset.card_singleton] at after
    have := rel.general
    omega
  · rw [rel.pde k hk]
    exact if_congr Finset.mem_singleton.symm rfl rfl
  · rw [rel.record p hp, table.tablesOf_eq]
    exact if_congr Finset.mem_singleton.symm rfl rfl

/-- A table that is committed was not there before, and what its page held is lost. -/
theorem Committed.without (com : Committed c c' type i t) (h : c.Kept) :
    c'.Without c {i} {t} := by
  have table := com.table
  refine ⟨com.parameters.symm, com.size.symm, ?_, com.lost.debugger.symm, fun k hk => ?_,
    fun p hp => ?_, fun s small outside apart shut j hj => ?_⟩
  · exact Finset.singleton_subset_iff.mpr (mem_tableIndices.mpr ⟨t, table⟩)
  · rw [com.pde k hk]
    by_cases same : k = i
    · subst same
      rw [if_pos (Finset.mem_singleton_self k)]
      exact h.toMapped.zeroed hk com.hold.invalid
    · rw [if_neg (Finset.notMem_singleton.mpr same), if_neg same]
  · rw [com.parameters] at hp
    rw [com.record p hp, table.tablesOf_eq]
    by_cases same : p = t
    · subst same
      rw [if_pos (Finset.mem_singleton_self p)]
      exact h.blank p hp (mem_idlePages.mp com.lost.mem).2
    · rw [if_neg (Finset.notMem_singleton.mpr same), if_neg same]
  · have pages : c'.ram.pages = c.ram.pages := by rw [Ram.pages, Ram.pages, com.size]
    rw [com.parameters] at outside
    rw [com.pte s (pages ▸ small) outside apart j hj, if_neg (Finset.notMem_singleton.mp shut)]

/-- The tables of the directory entries in `I` lie each below the one before, and the free pages
that are low enough for a table lie below them all. -/
structure Descends (c : Machine) (I : Finset Nat) : Prop where
  order : ∀ i ∈ I, ∀ j ∈ I, i < j → (c.pde j).frame < (c.pde i).frame
  above : ∀ i ∈ I, ∀ p ∈ c.lowPages, p < (c.pde i).frame

/-- The highest page is taken. -/
lemma Committed.descends (com : Committed c c' type i t) (h : c.Kept) (h' : c'.Ordered) :
    c'.Descends {i} := by
  have table := com.table
  refine ⟨fun j hj k hk lt => ?_, fun j hj p low => ?_⟩
  · rw [Finset.mem_singleton.mp hj, Finset.mem_singleton.mp hk] at lt
    exact absurd lt (Nat.lt_irrefl i)
  · rw [Finset.mem_singleton.mp hj, table.frame]
    have idle := (mem_lowPages.mp low).1
    have before : p ∈ c.lowPages := by
      rw [(com.without h).lowPages_eq h']
      exact Finset.mem_union_left _ low
    obtain ⟨was, le⟩ := mem_lowPages.mp before
    refine Nat.lt_of_le_of_ne (com.lost.highest p was le) ?_
    rintro rfl
    exact h'.not_idle_of_table table idle

/-- Tables that come later lie below those that were there. -/
lemma Descends.union (first : c.Descends I) (rest : c'.Descends J) (w : c'.Without c J O)
    (h' : c'.Ordered) (tables : I ⊆ c.tableIndices) (after : ∀ i ∈ I, ∀ j ∈ J, i < j) :
    c'.Descends (I ∪ J) := by
  have low := w.lowPages_eq h'
  have same {i : Nat} (hi : i ∈ I) : c'.pde i = c.pde i := by
    have left := tables hi
    rw [w.tableIndices_eq] at left
    obtain ⟨old, out⟩ := Finset.mem_sdiff.mp left
    rw [w.pde i (table_of_mem old).lt, if_neg out]
  constructor
  · intro i hi j hj lt
    rcases Finset.mem_union.mp hi with hi | hi <;> rcases Finset.mem_union.mp hj with hj | hj
    · rw [same hi, same hj]
      exact first.order i hi j hj lt
    · rw [same hi]
      refine first.above i hi _ ?_
      rw [low]
      exact Finset.mem_union_right _ (mem_tablesOf.mpr ⟨j, hj, rfl⟩)
    · exact absurd (after j hj i hi) (Nat.lt_asymm lt)
    · exact rest.order i hi j hj lt
  · intro i hi p free
    rcases Finset.mem_union.mp hi with hi | hi
    · rw [same hi]
      refine first.above i hi p ?_
      rw [low]
      exact Finset.mem_union_left _ free
    · exact rest.above i hi p free

/-- The machine `c'` has an empty table of the type for each directory entry in `I`, where `c` has
none. Lower entries have higher tables. -/
structure Gains (c c' : Machine) (type : PageType) (I : Finset Nat) : Prop where
  without : c'.Without c I (c'.tablesOf I)
  entry : ∀ i ∈ I, c'.pde i = Entry.tableEntry (c'.pde i).frame
  blank : ∀ i ∈ I, ∀ j < 1024, c'.pte (c'.pde i).frame j = .zero
  record : ∀ i ∈ I,
    c'.record (c'.pde i).frame = Manager.recordFor type (VirtualAddress.directoryEntryOf i)
  descends : c'.Descends I

lemma Gains.refl (c : Machine) (type : PageType) : c.Gains c type ∅ :=
  ⟨(Without.refl c).mono (Finset.empty_subset _), nofun, nofun, nofun, nofun, nofun⟩

/-- One table comes first, and then the others. -/
theorem Gains.cons (gains : c'.Gains c'' type J) (com : Committed c c' type i t) (h : c.Kept)
    (h' : c'.Kept) (h'' : c''.Kept) (after : ∀ j ∈ J, i < j) : c.Gains c'' type ({i} ∪ J) := by
  have w := gains.without
  obtain ⟨table, out⟩ := w.table_iff.mp com.table
  have entry : c'.pde i = c''.pde i := by rw [w.pde i table.lt, if_neg out]
  have apart : t ∉ c''.tablesOf J := by
    have apart := w.frame_notMem_tablesOf h''.toMapped (mem_tableIndices.mpr ⟨t, table⟩) out
    rwa [table.frame] at apart
  have whole : J ∪ {i} = {i} ∪ J := Finset.union_comm J {i}
  have each {P : Nat → Prop} (first : P i) (rest : ∀ k ∈ J, P k) : ∀ k ∈ {i} ∪ J, P k := by
    intro k mem
    rcases Finset.mem_union.mp mem with mem | mem
    · exact Finset.mem_singleton.mp mem ▸ first
    · exact rest k mem
  have sub : {i} ⊆ c'.tableIndices :=
    Finset.singleton_subset_iff.mpr (mem_tableIndices.mpr ⟨t, com.table⟩)
  refine ⟨?_, each ?_ gains.entry, each (fun j hj => ?_) gains.blank, each ?_ gains.record,
    (com.descends h h'.toOrdered).union gains.descends w h''.toOrdered sub fun k hk j hj => ?_⟩
  · have both := w.trans (com.without h)
    rwa [← table.tablesOf_eq, ← tablesOf_union, whole] at both
  · rw [table.frame, ← entry, com.pde i table.lt, if_pos rfl]
  · have zero := com.pte_self h.toMapped hj
    rw [table.frame]
    rw [w.pte t (h''.toMapped.lt_pages table) (Or.inl (h''.toMapped.lt_database table))
      (h''.apart i t table) apart j hj] at zero
    exact zero
  · have ht := h''.toWired.table_le table
    have record := com.record t (mem_idlePages.mp com.lost.mem).1
    rw [w.record t ht, if_neg apart, if_pos rfl] at record
    rwa [table.frame]
  · cases Finset.mem_singleton.mp hk
    exact after j hj

/-- Each word of the database is a record. -/
lemma word_database (fit : c.parameters.Fit) (parameters : c'.parameters = c.parameters)
    (records : ∀ p ≤ c.parameters.highestPage, c'.record p = c.record p)
    (inside : c.parameters.databasePage ≤ s ∧
      s < c.parameters.databasePage + c.parameters.databasePages) (hj : j < 1024) :
    c'.ram.word s j = c.ram.word s j := by
  have whole := fit.records
  have place := records ((s - c.parameters.databasePage) * 1024 + j) (by omega)
  have page : c.parameters.databasePage +
      ((s - c.parameters.databasePage) * 1024 + j) / 1024 = s := by omega
  have index : ((s - c.parameters.databasePage) * 1024 + j) % 1024 = j := by omega
  have word := congrArg PfnRecord.bits place
  rw [record, record, parameters, page, index] at word
  exact word

/-! ### Machines with the same tables -/

/-- The machines have the same free blocks and counters. -/
structure SameAccounts (c c' : Machine) : Prop where
  blocks : c'.freeList.blocks = c.freeList.blocks
  general : c'.freeList.general = c.freeList.general
  debugger : c'.freeList.debugger = c.freeList.debugger
  usage : c'.usage = c.usage

/-- The machines differ at most in what the pages in `O` hold. -/
abbrev DiffersIn (c c' : Machine) (O : Finset Nat) : Prop := c.Without c' ∅ O

/-- Without the same tables, machines are the same. -/
theorem Without.differsIn (w : c.Without c' I O) (w' : c.Without c'' I P) :
    c'.DiffersIn c'' (O ∪ P) := by
  refine w.cancel ?_ (Finset.disjoint_empty_right I)
  rwa [Finset.union_empty]

namespace DiffersIn

variable (same : c.DiffersIn c' O) (h : c.Kept) (h' : c'.Kept)
include same

lemma pde_eq (hi : i < 1024) : c'.pde i = c.pde i := by
  rw [same.pde i hi, if_neg (Finset.notMem_empty i)]

lemma record_eq (hp : p ≤ c.parameters.highestPage) : c'.record p = c.record p := by
  rw [same.record p hp, tablesOf_empty, if_neg (Finset.notMem_empty p)]

include h h' in
lemma sameAccounts : c.SameAccounts c' := by
  have idle := same.idlePages_eq h.toOrdered
  rw [tablesOf_empty, Finset.union_empty] at idle
  have runs := h'.free.runs
  rw [idle] at runs
  refine ⟨runs.unique h.free.runs, same.general_eq h h', same.debugger,
    Usage.ext_count fun type => ?_⟩
  rw [same.count_usage h.toOrdered h'.toOrdered type, Finset.filter_empty, Finset.card_empty,
    Nat.add_zero]

/-- Each word of the pages outside `O` belongs to the directory, to a record or to another page. -/
lemma word_eq (fit : c.parameters.Fit) (hs : s < c.ram.pages) (out : s ∉ O) (hj : j < 1024) :
    c'.ram.word s j = c.ram.word s j := by
  by_cases directory : s = 0xF
  · subst directory
    exact congrArg Entry.bits (same.pde_eq hj)
  by_cases outside : s < c.parameters.databasePage ∨
      c.parameters.databasePage + c.parameters.databasePages ≤ s
  · exact congrArg Entry.bits (same.pte s hs outside directory out j hj)
  · exact word_database fit same.parameters (fun _ => same.record_eq) (by omega) hj

/-- The machines hold the same bytes outside of `O`. -/
lemma byteAt_eq (fit : c.parameters.Fit) {a : Nat} (inside : a < c.ram.size) (out : a / 4096 ∉ O) :
    c'.ram.byteAt a = c.ram.byteAt a := by
  have size := c.ram.size_eq
  exact Ram.byteAt_eq_of_word (same.word_eq fit (by omega) out (by omega))

end DiffersIn

end ConsoleMemory.Machine
