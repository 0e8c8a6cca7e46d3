import ConsoleMemory.Proofs.Manager.Committing

/-!
# Pages on their way

Between the free list and the records a page may be on its way: it was taken and
is not yet recorded, or its record was cleared and it is not yet free. Then the
free pages are no longer those that are not busy, and a record may name a page
table that no directory entry names. What is left of the invariant is enough for
every step of the manager to go on: free pages have blank records, and the tables
of the directory are recorded as such (`Tended`).
-/

namespace ConsoleMemory

open VirtualAddress
open Finset (Ico)

namespace Machine

variable {c c' : Machine} {F F' W W' : Finset Nat} {i p t : Nat} {l : FreeList} {type : PageType}

/-- Page `p` holds neither the directory nor a page table. -/
structure Foreign (c : Machine) (p : Nat) : Prop where
  ne_directory : p ≠ 0xF
  not_table : ∀ i, ¬ c.Table i p

/-- The pages in `F` are free and have blank records; those in `W` are busy and foreign. -/
structure Tended (c : Machine) (F W : Finset Nat) : Prop extends c.Wired where
  counted : c.Counted
  pageCount : c.freeList.pageCount = c.parameters.highestPage + 1
  boundary : c.freeList.boundary = c.parameters.debuggerBoundary
  free : c.freeList.Keeps F
  blank : ∀ p ∈ F, c.record p = .zero
  directory : (c.record 0xF).busy = true
  tables : ∀ i t, c.Table i t → (c.record t).isBusyPageTable = true
  used : ∀ i t, c.Table i t → (c.record t).entriesUsed = c.inUse t
  inside : ∀ p ∈ W, p ≤ c.parameters.highestPage
  marked : ∀ p ∈ W, (c.record p).busy = true
  foreign : ∀ p ∈ W, c.Foreign p

/-- The pages of the run `[first, last]` are not free, and their records are blank. -/
structure Unrecorded (c : Machine) (first last : Nat) : Prop where
  le : first ≤ last
  inside : last ≤ c.parameters.highestPage
  taken : ∀ p, first ≤ p → p ≤ last → p ∉ c.freeList
  blank : ∀ p, first ≤ p → p ≤ last → c.record p = .zero

/-- The machine `c'` has the parameters of `c` and is tended. -/
def Tends (c c' : Machine) (W : Finset Nat) : Prop :=
  c'.parameters = c.parameters ∧ ∃ F, c'.Tended F W

/-- At rest the free pages are those that are not busy. -/
lemma Kept.tended (h : c.Kept) : c.Tended c.idlePages ∅ := by
  refine ⟨h.toWired, h.counted, h.pageCount, h.boundary, h.free, fun p idle => ?_, h.directory.1,
    h.tables, h.used, ?_, ?_, ?_⟩
  · exact h.blank p (mem_idlePages.mp idle).1 (mem_idlePages.mp idle).2
  all_goals exact fun p none => absurd none (Finset.notMem_empty p)

namespace Tended

variable (h : c.Tended F W)
include h

lemma tends : c.Tends c W := ⟨rfl, F, h⟩

lemma le_of_free (free : p ∈ F) : p ≤ c.parameters.highestPage := by
  have := h.free.within p free
  have := h.pageCount
  omega

lemma idle_of_free (free : p ∈ F) : (c.record p).busy = false := by
  rw [h.blank p free]
  exact PfnRecord.busy_zero

lemma busy_of_table (table : c.Table i t) : (c.record t).busy = true :=
  (PfnRecord.isBusyPageTable_iff.mp (h.tables i t table)).1

/-- A page with a blank record is neither the directory nor a page table. -/
lemma foreign_of_blank (blank : c.record p = .zero) : c.Foreign p := by
  have idle : (c.record p).busy = false := blank ▸ PfnRecord.busy_zero
  constructor
  · rintro rfl
    cases h.directory.symm.trans idle
  · intro i table
    cases (h.busy_of_table table).symm.trans idle

lemma notMem_of_busy (busy : (c.record p).busy = true) : p ∉ F := by
  intro free
  cases busy.symm.trans (h.idle_of_free free)

/-- A free page that is low enough can hold a page table. -/
lemma canHold (hi : i < 1024) (invalid : (c.pde i).valid = false) (free : t ∈ F)
    (low : t ≤ c.parameters.contiguousLimit) : c.CanHold i t := by
  obtain ⟨ne, fresh⟩ := h.foreign_of_blank (h.blank t free)
  exact ⟨hi, invalid, low, ne, fresh⟩

/-- Other pages are free, all with blank records. -/
lemma setFree (keeps : l.Keeps F') (pageCount : l.pageCount = c.freeList.pageCount)
    (boundary : l.boundary = c.freeList.boundary) (blank : ∀ p ∈ F', c.record p = .zero) :
    (c.setFree l).Tended F' W :=
  ⟨h.toWired.setFree l, h.counted.setFree l, pageCount.trans h.pageCount, boundary.trans h.boundary,
    keeps, blank, h.directory, fun i t table => h.tables i t (table_setFree.mp table),
    fun i t table => h.used i t (table_setFree.mp table), h.inside, h.marked,
    fun p mem => ⟨(h.foreign p mem).ne_directory, fun i table =>
      (h.foreign p mem).not_table i (table_setFree.mp table)⟩⟩

/-- One table more, in a page that was free. -/
theorem adds (adds : c.AddsTable c' type i t) (isTable : type.isPageTable = true)
    (lost : c.freeList.Loses F c.parameters.contiguousLimit t c'.freeList) (wired : c'.Wired)
    (counted : c'.Counted) : c.Tends c' W := by
  have mapped := h.toMapped
  have free := lost.mem
  have record : c'.record t = Manager.recordFor type (directoryEntryOf i) := by
    rw [adds.record t (h.le_of_free free), if_pos rfl]
  have other {p : Nat} (hp : p ≤ c.parameters.highestPage) (ne : p ≠ t) :
      c'.record p = c.record p := by rw [adds.record p hp, if_neg ne]
  have directory := h.fit.directory
  have inside := h.fit.inside
  have not_free {p : Nat} (busy : (c.record p).busy = true) : p ≠ t := by
    rintro rfl
    exact h.notMem_of_busy busy free
  refine ⟨adds.parameters, F \ Ico t (t + 1), wired, counted, ?_, ?_, lost.keeps, fun p mem => ?_,
    ?_, fun k s table => ?_, fun k s table => ?_, fun p mem => ?_, fun p mem => ?_, fun p mem => ?_⟩
  · rw [lost.pageCount, adds.parameters]
    exact h.pageCount
  · rw [lost.boundary, adds.parameters]
    exact h.boundary
  · obtain ⟨was, ne⟩ := Finset.mem_sdiff.mp mem
    rw [other (h.le_of_free was)]
    · exact h.blank p was
    · rintro rfl
      exact ne (Finset.mem_Ico.mpr ⟨le_rfl, Nat.lt_succ_self p⟩)
  · rw [other (by omega) (not_free h.directory)]
    exact h.directory
  · rcases (adds.table_iff k s).mp table with ⟨_, rfl⟩ | table
    · rw [PfnRecord.isBusyPageTable_iff, record, Manager.busy_recordFor, Manager.pageType_recordFor]
      exact ⟨rfl, isTable⟩
    · rw [other (h.toWired.table_le table) (adds.ne_of_table table)]
      exact h.tables k s table
  · rcases (adds.table_iff k s).mp table with ⟨_, rfl⟩ | table
    · rw [record, Manager.entriesUsed_recordFor isTable, adds.inUse mapped]
    · rw [other (h.toWired.table_le table) (adds.ne_of_table table), h.used k s table]
      exact (inUse_congr fun j hj => adds.pte_of_table mapped table hj).symm
  · rw [adds.parameters]
    exact h.inside p mem
  · rw [other (h.inside p mem) (not_free (h.marked p mem))]
    exact h.marked p mem
  · refine ⟨(h.foreign p mem).ne_directory, fun k table => ?_⟩
    rcases (adds.table_iff k p).mp table with ⟨_, rfl⟩ | table
    · exact not_free (h.marked p mem) rfl
    · exact (h.foreign p mem).not_table k table

/-- One table less, whose page is free again. -/
theorem drops (drops : c.DropsTable c' i t) (keeps : c'.freeList.Keeps (F ∪ Ico t (t + 1)))
    (pageCount : c'.freeList.pageCount = c.freeList.pageCount)
    (boundary : c'.freeList.boundary = c.freeList.boundary) (wired : c'.Wired)
    (counted : c'.Counted) : c.Tends c' W := by
  have mapped := h.toMapped
  have table := drops.table
  have directory := h.fit.directory
  have inside := h.fit.inside
  have other {p : Nat} (hp : p ≤ c.parameters.highestPage) (ne : p ≠ t) :
      c'.record p = c.record p := by rw [drops.record p hp, if_neg ne]
  have left {k s : Nat} (named : c'.Table k s) : c.Table k s ∧ s ≠ t := by
    refine ⟨((drops.table_iff k s).mp named).1, ?_⟩
    rintro rfl
    exact drops.not_table mapped named
  refine ⟨drops.parameters, F ∪ Ico t (t + 1), wired, counted, ?_, ?_, keeps, fun p mem => ?_, ?_,
    fun k s named => ?_, fun k s named => ?_, fun p mem => ?_, fun p mem => ?_, fun p mem => ?_⟩
  · rw [pageCount, drops.parameters]
    exact h.pageCount
  · rw [boundary, drops.parameters]
    exact h.boundary
  · by_cases same : p = t
    · subst same
      rw [drops.record p (h.toWired.table_le table), if_pos rfl]
    · have was : p ∈ F := (Finset.mem_union.mp mem).resolve_right fun new => same (by
        have := Finset.mem_Ico.mp new
        omega)
      rw [other (h.le_of_free was) same]
      exact h.blank p was
  · rw [other (by omega) (mapped.apart i t table).symm]
    exact h.directory
  · obtain ⟨named, ne⟩ := left named
    rw [other (h.toWired.table_le named) ne]
    exact h.tables k s named
  · obtain ⟨named, ne⟩ := left named
    rw [other (h.toWired.table_le named) ne, h.used k s named]
    exact (inUse_congr fun j hj => drops.pte_of_table mapped named hj).symm
  · rw [drops.parameters]
    exact h.inside p mem
  · have ne : p ≠ t := by
      rintro rfl
      exact (h.foreign p mem).not_table i table
    rw [other (h.inside p mem) ne]
    exact h.marked p mem
  · exact ⟨(h.foreign p mem).ne_directory,
      fun k named => (h.foreign p mem).not_table k (left named).1⟩

/-- Records may change of pages in which the manager has no part. -/
theorem relabel (same : c.SameTables c') (counted : c'.Counted) {R : Nat → Prop}
    (record : ∀ p ≤ c.parameters.highestPage, ¬ R p → c'.record p = c.record p)
    (foreign : ∀ p, R p → p ∉ F ∧ c.Foreign p)
    (marked : ∀ p ∈ W', p ≤ c.parameters.highestPage ∧ (c'.record p).busy = true ∧ c.Foreign p) :
    c'.Tended F W' := by
  have mapped := h.toMapped
  have directory := h.fit.directory
  have inside := h.fit.inside
  have named {i t : Nat} (table : c'.Table i t) : c.Table i t ∧ c'.record t = c.record t := by
    have table := (same.table_iff mapped).mp table
    exact ⟨table, record t (h.toWired.table_le table)
      fun changed => (foreign t changed).2.not_table i table⟩
  refine ⟨same.wired h.toWired, counted, ?_, ?_, ?_, fun p free => ?_, ?_, fun i t table => ?_,
    fun i t table => ?_, fun p mem => ?_, fun p mem => (marked p mem).2.1, fun p mem => ?_⟩
  · rw [same.freeList, same.parameters]
    exact h.pageCount
  · rw [same.freeList, same.parameters]
    exact h.boundary
  · rw [same.freeList]
    exact h.free
  · rw [record p (h.le_of_free free) fun changed => (foreign p changed).1 free]
    exact h.blank p free
  · rw [record 0xF (by omega) fun changed => (foreign 0xF changed).2.ne_directory rfl]
    exact h.directory
  · obtain ⟨table, eq⟩ := named table
    rw [eq]
    exact h.tables i t table
  · obtain ⟨table, eq⟩ := named table
    rw [eq, h.used i t table]
    exact (inUse_congr fun j hj => same.pte mapped table hj).symm
  · rw [same.parameters]
    exact (marked p mem).1
  · obtain ⟨ne, fresh⟩ := (marked p mem).2.2
    exact ⟨ne, fun i table => fresh i (named table).1⟩

end Tended

end Machine

namespace Manager

open Machine

variable {c : Machine} {F W : Finset Nat} {count i t : Nat} {va : VirtualAddress} {size : Nat}
  {tables : List (Nat × Nat)} {type : PageType}

/-- The page of a table that holds no entry is free again. -/
theorem releaseTable_tended (h : c.Tended F W) (table : c.Table i t) (blank : c.inUse t = 0) :
    ∃ c', Yields c (directory.releaseTable (directoryEntryOf i) t) () c' ∧ c.DropsTable c' i t ∧
      c.Tends c' W := by
  have ht := h.toWired.table_le table
  have busy := h.busy_of_table table
  obtain ⟨l, inserted, keeps, pageCount, boundary, _⟩ := h.free.insert_page
    (h.pageCount ▸ Nat.lt_succ_of_le ht) (h.notMem_of_busy busy) fun b eq =>
      Nat.lt_of_lt_of_le (h.toMapped.lt_database table) (h.fit.boundary b (h.boundary ▸ eq))
  obtain ⟨c', ran, drops, rfl, wired, counted⟩ :=
    releaseTable_drops h.toWired h.counted table busy blank inserted
  exact ⟨c', ran, drops, h.drops drops keeps pageCount boundary wired counted⟩

theorem releaseAll_tended (h : c.Tended F W) (spare : c.Spare tables) :
    ∃ c', Yields c (directory.releaseAll (tables.map fun e => (directoryEntryOf e.1, e.2))) () c' ∧
      c.Tends c' W := by
  induction tables generalizing c F with
  | nil => exact ⟨c, .pure, h.tends⟩
  | cons e tables ih =>
    have mem : e ∈ e :: tables := List.mem_cons_self
    obtain ⟨d, released, drops, parameters, F', h'⟩ :=
      releaseTable_tended h (spare.table e mem) (spare.blank e mem)
    obtain ⟨c', ran, parameters', rest⟩ := ih h' (drops.spare h.toMapped spare)
    exact ⟨c', released.bind ran, parameters'.trans parameters, rest⟩

theorem commitFrom_tended (h : c.Tended F W) (isTable : type.isPageTable = true)
    (inside : i + count ≤ 1024) (enough : (c.gaps ∩ Ico i (i + count)).card ≤ c.freeList.general)
    (spare : c.Spare tables) :
    ∃ answer c', Yields c (directory.commitFrom type count (directoryEntryOf i)
        (tables.map fun e => (directoryEntryOf e.1, e.2))) answer c' ∧ c.Tends c' W := by
  induction count generalizing c F i tables with
  | zero => exact ⟨.ok (), c, .pure, h.tends⟩
  | succ count ih =>
    have hi : i < 1024 := by omega
    have card := c.card_gaps_succ count hi
    have some_left (invalid : (c.pde i).valid = false) : 0 < c.freeList.general := by
      rw [invalid, if_neg Bool.false_ne_true] at card
      omega
    rcases commitFrom_cases h.toMapped h.free h.boundary hi some_left type count tables with
      ⟨valid, goes⟩ | ⟨invalid, high, goes⟩ | ⟨invalid, t, l, lost, goes⟩
    · obtain ⟨answer, c', ran, tends⟩ := ih h (i := i + 1) (by omega) (by omega) spare
      exact ⟨answer, c', goes answer c' ran, tends⟩
    · obtain ⟨c', ran, tends⟩ := releaseAll_tended h spare
      exact ⟨.error .noFreeBlock, c', goes c' ran, tends⟩
    · obtain ⟨d, committed, adds, rfl, wired, counted⟩ := commitTable_adds h.toWired h.counted
        (h.canHold hi invalid lost.mem lost.le) (h.idle_of_free lost.mem) type l
      obtain ⟨parameters, F', h'⟩ := h.adds adds isTable lost wired counted
      have general := lost.general
      rw [invalid, if_neg Bool.false_ne_true] at card
      obtain ⟨answer, c', ran, parameters', rest⟩ := ih h' (i := i + 1) (by omega)
        (by
          rw [adds.gaps_after]
          omega) (adds.spare h.toMapped spare)
      exact ⟨answer, c', goes d answer c' committed ran, parameters'.trans parameters, rest⟩

theorem commitTables_tended (h : c.Tended F W) (fits : va.toNat + size ≤ 0x100000000) :
    ∃ answer c', Yields c (commitTables va size) answer c' ∧ c.Tends c' W := by
  rcases commitTables_cases h.toMapped fits with
    ⟨_, ran⟩ | ⟨_, ran⟩ | ⟨i, count, inside, _, enough, goes⟩
  · exact ⟨_, c, ran, h.tends⟩
  · exact ⟨_, c, ran, h.tends⟩
  · have none : c.Spare [] := ⟨nofun, nofun, .nil⟩
    obtain ⟨answer, c', ran, tends⟩ :=
      commitFrom_tended h (isPageTable_tableType va) inside enough none
    exact ⟨answer, c', goes answer c' ran, tends⟩

theorem releaseTables_tended (h : c.Tended F W) (fits : va.toNat + size ≤ 0x100000000) :
    ∃ c', Yields c (releaseTables va size) () c' ∧ c.Tends c' W := by
  rcases releaseTables_cases fits with ⟨_, nothing⟩ | ⟨i, count, inside, _, eq⟩
  · rw [nothing]
    exact ⟨c, .pure, h.tends⟩
  rw [eq]
  refine releaseFrom_leads (P := fun _ d => c.Tends d W) inside (fun k d _ hk at_d => ?_) h.tends
  obtain ⟨parameters, F', h'⟩ := at_d
  rcases releaseIfEmpty_cases h'.toWired hk (h'.tables k) with ⟨_, ran⟩ | ⟨t, table, used, goes⟩
  · exact ⟨d, ran, parameters, F', h'⟩
  · have blank : d.inUse t = 0 := (h'.used k t table).symm.trans used
    obtain ⟨c', ran, _, parameters', rest⟩ := releaseTable_tended h' table blank
    exact ⟨c', goes c' ran, parameters'.trans parameters, rest⟩

/-! ### Single pages -/

variable {first last : Nat} {r : PageRequest}

theorem take_tended (h : c.Tended F W) : (∃ e, Fails c c.ram.walk (take r) e) ∨
    ∃ o c', Yields c (take r) o c' ∧ c.Tends c' W := by
  cases removed : c.freeList.remove r with
  | error e => exact Or.inl ⟨e, take_fails removed⟩
  | ok result =>
    obtain ⟨_ | page, l⟩ := result
    · cases h.free.of_remove_none removed
      exact Or.inr ⟨none, c, take_leads removed, h.tends⟩
    · obtain ⟨_, _, keeps, chain, taken, _⟩ := h.free.of_remove_some removed
      refine Or.inr ⟨some page, c.setFree l, take_leads removed, rfl, _,
        h.setFree keeps ?_ ?_ fun p mem => h.blank p (Finset.mem_sdiff.mp mem).1⟩
      · rw [taken]
        exact FreeList.pageCount_withPool _ _
      · rw [taken]
        exact FreeList.boundary_withPool _ _

theorem giveBack_tended (h : c.Tended F W) (pages : c.Unrecorded first last) :
    (∃ e, Fails c c.ram.walk (giveBack first last) e) ∨
      ∃ c', Yields c (giveBack first last) () c' ∧ c.Tends c' W := by
  cases inserted : c.freeList.insert first last with
  | error e => exact Or.inl ⟨e, giveBack_fails inserted⟩
  | ok l =>
    obtain ⟨_, keeps, chain, returned⟩ :=
      h.free.of_insert pages.le (h.pageCount ▸ Nat.lt_succ_of_le pages.inside) inserted
    refine Or.inr ⟨c.setFree l, giveBack_leads inserted, rfl, _,
      h.setFree keeps ?_ ?_ fun p mem => ?_⟩
    · rw [returned]
      exact FreeList.pageCount_withPool _ _
    · rw [returned]
      exact FreeList.boundary_withPool _ _
    · rcases Finset.mem_union.mp mem with free | new
      · exact h.blank p free
      · obtain ⟨low, high⟩ := Finset.mem_Ico.mp new
        exact pages.blank p low (Nat.le_of_lt_succ high)

/-- Pages that are not free get records. -/
theorem markBusy_tended (h : c.Tended F W) (pages : c.Unrecorded first last)
    (entry : VirtualAddress) (type : PageType) :
    ∃ c', Yields c (markBusy first last entry type) () c' ∧ c.SameTables c' ∧
      c'.Tended F (W ∪ Finset.Icc first last) ∧ ∀ p ≤ c.parameters.highestPage, c'.record p =
        if first ≤ p ∧ p ≤ last then recordFor type (entry + (p - first) * 4) else c.record p := by
  have le := pages.le
  have inside := pages.inside
  obtain ⟨c', ran, same, counted, records⟩ := markBusyFrom_yields (t := type) h.toWired h.counted
    first (last + 1 - first) entry (by omega) fun p low high busy => by
      rw [pages.blank p low (by omega), PfnRecord.busy_zero] at busy
      cases busy
  have record (p : Nat) (hp : p ≤ c.parameters.highestPage) : c'.record p =
      if first ≤ p ∧ p ≤ last then recordFor type (entry + (p - first) * 4) else c.record p := by
    rw [records p hp]
    exact if_congr (by omega) rfl rfl
  refine ⟨c', ran, same, ?_, record⟩
  refine h.relabel (R := fun p => first ≤ p ∧ p ≤ last) same counted
    (fun p hp out => by rw [record p hp, if_neg out]) (fun p within => ⟨fun free => ?_, ?_⟩)
    fun p mem => ?_
  · exact pages.taken p within.1 within.2 ((h.free.runs.mem p).mp free)
  · exact h.foreign_of_blank (pages.blank p within.1 within.2)
  · by_cases within : first ≤ p ∧ p ≤ last
    · have hp : p ≤ c.parameters.highestPage := within.2.trans inside
      refine ⟨hp, ?_, h.foreign_of_blank (pages.blank p within.1 within.2)⟩
      rw [record p hp, if_pos within]
      exact busy_recordFor type _
    · have old : p ∈ W := (Finset.mem_union.mp mem).resolve_right fun new =>
        within (Finset.mem_Icc.mp new)
      have hp := h.inside p old
      refine ⟨hp, ?_, h.foreign p old⟩
      rw [record p hp, if_neg within]
      exact h.marked p old

/-- Pages that were marked lose their records. -/
theorem markIdle_tended (h : c.Tended F W) (le : first ≤ last)
    (pages : ∀ p, first ≤ p → p ≤ last → p ∈ W) :
    ∃ c', Yields c (markIdle first last) () c' ∧ c.SameTables c' ∧
      c'.Tended F (W \ Finset.Icc first last) ∧ ∀ p ≤ c.parameters.highestPage, c'.record p =
        if first ≤ p ∧ p ≤ last then .zero else c.record p := by
  have inside := h.inside last (pages last le le_rfl)
  obtain ⟨c', ran, same, counted, records⟩ := markIdleFrom_yields h.toWired h.counted first
    (last + 1 - first) (by omega) fun p low high => h.marked p (pages p low (by omega))
  have record (p : Nat) (hp : p ≤ c.parameters.highestPage) : c'.record p =
      if first ≤ p ∧ p ≤ last then .zero else c.record p := by
    rw [records p hp]
    exact if_congr (by omega) rfl rfl
  refine ⟨c', ran, same, ?_, record⟩
  refine h.relabel (R := fun p => first ≤ p ∧ p ≤ last) same counted
    (fun p hp out => by rw [record p hp, if_neg out]) (fun p within => ?_) fun p mem => ?_
  · have mem := pages p within.1 within.2
    exact ⟨h.notMem_of_busy (h.marked p mem), h.foreign p mem⟩
  · obtain ⟨old, out⟩ := Finset.mem_sdiff.mp mem
    have hp := h.inside p old
    refine ⟨hp, ?_, h.foreign p old⟩
    rw [record p hp, if_neg fun within => out (Finset.mem_Icc.mpr within)]
    exact h.marked p old

end Manager

end ConsoleMemory
