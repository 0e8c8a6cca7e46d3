import ConsoleMemory.Proofs.Manager.Pages

/-!
# Page tables that come and go

A page table comes into being on a free page, behind a directory entry through
which nothing was mapped; so nothing that is remembered is wrong. It goes when it
holds no entry, and what may be remembered through it is no longer so.
-/

namespace ConsoleMemory

open VirtualAddress
open Finset (Ico)

namespace Machine

variable {c c' : Machine} {i j k n p q s t : Nat}

/-- The machine with a cleared page table in page `t` for directory entry `i`. -/
def install (c : Machine) (i t : Nat) : Machine :=
  (c.setWord 0xF i (Entry.tableEntry t).bits).wipe t 1

/-- Directory entry `i` maps nothing, and page `t` can hold its page table. -/
structure CanHold (c : Machine) (i t : Nat) : Prop where
  lt : i < 1024
  invalid : (c.pde i).valid = false
  low : t ≤ c.parameters.contiguousLimit
  apart : t ≠ 0xF
  fresh : ∀ k, ¬ c.Table k t

lemma entry_install (large : 0xF < c.ram.pages) (hi : i < 1024) (hq : q < c.ram.pages)
    (hj : j < 1024) : (c.install i t).ram.entry q j =
      if q = t then .zero else if q = 0xF ∧ j = i then Entry.tableEntry t
      else c.ram.entry q j := by
  have wiped : (c.install i t).ram.entry q j = if t ≤ q ∧ q < t + 1 then .zero
      else (c.setWord 0xF i (Entry.tableEntry t).bits).ram.entry q j := entry_wipe hq hj
  rw [wiped, entry_setWord large hi hq hj]
  by_cases same : q = t
  · rw [if_pos (by omega), if_pos same]
  · rw [if_neg (by omega), if_neg same]

namespace Mapped

variable (h : c.Mapped)
include h

omit h in
lemma walk_eq_none (invalid : (c.pde (n / 1024)).valid = false) : c.ram.walk n = none := by
  unfold Ram.walk
  unfold pde at invalid
  simp [invalid]

lemma walk_window_eq_none (hi : i < 1024) (invalid : (c.pde i).valid = false) :
    c.ram.walk (0xC0000 + i) = none := by
  have index : (0xC0000 + i) / 1024 = 0x300 := by omega
  have rest : (0xC0000 + i) % 1024 = i := by omega
  have self : c.ram.entry 0xF 0x300 = .selfMap := h.selfMap
  have frame := h.page?_selfMap
  unfold Ram.walk
  unfold pde at invalid
  simp only [index, rest, self, frame, Option.bind_some, invalid]
  split
  · split
    · next large => exact absurd large (by decide +kernel)
    · rfl
  · rfl

end Mapped

section
variable (h : c.Mapped) (hold : c.CanHold i t)
include h hold

lemma CanHold.ne_selfMap : i ≠ 0x300 := by
  rintro rfl
  have invalid := hold.invalid
  rw [h.selfMap] at invalid
  exact absurd invalid (by decide +kernel)

lemma CanHold.lt_pages : t < c.ram.pages := by
  have := hold.low
  have := h.fit.limit
  have := h.fit.inside
  have := h.installed
  omega

lemma pde_install (hk : k < 1024) :
    (c.install i t).pde k = if k = i then Entry.tableEntry t else c.pde k := by
  have apart := hold.apart
  rw [pde, entry_install h.large hold.lt h.large hk, if_neg (by omega)]
  by_cases same : k = i
  · rw [if_pos ⟨rfl, same⟩, if_pos same]
  · rw [if_neg (by omega), if_neg same]
    rfl

lemma pte_install (hs : s < c.ram.pages) (ne : s ≠ 0xF) (hj : j < 1024) :
    (c.install i t).pte s j = if s = t then .zero else c.pte s j := by
  rw [pte, entry_install h.large hold.lt hs hj]
  split
  · rfl
  · rw [if_neg (by omega)]
    rfl

lemma record_install (hp : p ≤ c.parameters.highestPage) :
    (c.install i t).record p = c.record p := by
  have place := (h.record_place hp).2
  have := hold.low
  have := h.fit.limit
  have := h.fit.directory
  have same := entry_install (t := t) h.large hold.lt place (Nat.mod_lt p (by decide))
  rw [if_neg (by omega), if_neg (by omega)] at same
  exact congrArg (fun e : Entry => PfnRecord.mk e.bits) same

lemma frame_tableEntry : (Entry.tableEntry t).frame = t :=
  Entry.frame_tableEntry (by
    have := hold.lt_pages h
    have := c.ram.pages_le
    omega)

/-- The tables are those of before and the new one. -/
lemma table_install : (c.install i t).Table k s ↔ k = i ∧ s = t ∨ c.Table k s := by
  constructor
  · intro table
    by_cases same : k = i
    · subst same
      have frame := table.frame
      rw [pde_install h hold table.lt, if_pos rfl, frame_tableEntry h hold] at frame
      exact Or.inl ⟨rfl, frame.symm⟩
    · have names := table.names
      have frame := table.frame
      rw [pde_install h hold table.lt, if_neg same] at names frame
      exact Or.inr ⟨table.lt, table.ne, names, frame⟩
  · rintro (⟨rfl, rfl⟩ | table)
    · have entry := pde_install h hold hold.lt
      rw [if_pos rfl] at entry
      refine ⟨hold.lt, hold.ne_selfMap h, ?_, ?_⟩
      · rw [entry]
        exact Entry.namesTable_tableEntry
      · rw [entry]
        exact frame_tableEntry h hold
    · have other : k ≠ i := by
        rintro rfl
        have valid := Entry.valid_of_namesTable table.names
        rw [hold.invalid] at valid
        cases valid
      have entry := pde_install h hold table.lt
      rw [if_neg other] at entry
      exact ⟨table.lt, table.ne, entry ▸ table.names, entry ▸ table.frame⟩

lemma Mapped.install : (c.install i t).Mapped := by
  refine ⟨h.fit, h.installed, ?_, ?_, ?_, ?_, ?_, ?_⟩
  · rw [pde_install h hold (by decide), if_neg (hold.ne_selfMap h).symm]
    exact h.selfMap
  · intro k s table
    rcases (table_install h hold).mp table with ⟨_, rfl⟩ | table
    · exact hold.low
    · exact h.low k s table
  · intro k s table
    rcases (table_install h hold).mp table with ⟨_, rfl⟩ | table
    · exact hold.apart
    · exact h.apart k s table
  · intro k k' s table table'
    rcases (table_install h hold).mp table with ⟨rfl, rfl⟩ | old
    · rcases (table_install h hold).mp table' with ⟨rfl, _⟩ | old'
      · rfl
      · exact absurd old' (hold.fresh k')
    · rcases (table_install h hold).mp table' with ⟨_, rfl⟩ | old'
      · exact absurd old (hold.fresh k)
      · exact h.distinct k k' s old old'
  · intro k low high
    have large := h.largePages k low high
    have other : k ≠ i := by
      rintro rfl
      rw [hold.invalid] at large
      exact nomatch large.1
    rw [pde_install h hold (by omega), if_neg other]
    exact large
  · intro k hk own outside
    rw [pde_install h hold hk]
    split
    · exact Or.inl Entry.namesTable_tableEntry
    · exact h.others k hk own outside

/-- All that was mapped stays mapped. -/
lemma walk_le_install : PageMap.Le c.ram.walk (c.install i t).ram.walk := by
  intro n p mapped
  have span : n / 1024 ≠ i := by
    rintro rfl
    rw [Mapped.walk_eq_none hold.invalid] at mapped
    cases mapped
  have window : n ≠ 0xC0000 + i := by
    rintro rfl
    rw [h.walk_window_eq_none hold.lt hold.invalid] at mapped
    cases mapped
  rw [← mapped]
  refine h.walk_congr rfl (fun hn => ?_) (fun self => ?_) fun s table => ?_
  · have same := pde_install h hold (k := n / 1024) (by omega)
    rwa [if_neg span] at same
  · have same := pde_install h hold (k := n % 1024) (by omega)
    rwa [if_neg (by omega)] at same
  · have other : s ≠ t := by
      rintro rfl
      exact hold.fresh _ table
    have same := pte_install h hold (h.lt_pages table) (h.apart _ s table) (j := n % 1024)
      (by omega)
    rwa [if_neg other] at same

end

lemma Wired.install (h : c.Wired) (hold : c.CanHold i t) : (c.install i t).Wired := by
  have mapped := h.toMapped
  refine ⟨mapped.install hold, fun q hq => ?_⟩
  obtain ⟨s, table, entry⟩ := h.database q hq
  refine ⟨s, (table_install mapped hold).mpr (Or.inr table), ?_⟩
  have other : s ≠ t := by
    rintro rfl
    exact hold.fresh _ table
  have same := pte_install mapped hold (mapped.lt_pages table) (mapped.apart _ s table)
    (j := (0x80000 + c.parameters.databasePage + q) % 1024) (by omega)
  rw [if_neg other] at same
  exact same.trans entry

/-- An idle page that is low enough can hold a page table. -/
lemma Kept.canHold (h : c.Kept) (hi : i < 1024) (invalid : (c.pde i).valid = false)
    (idle : t ∈ c.idlePages) (low : t ≤ c.parameters.contiguousLimit) : c.CanHold i t :=
  ⟨hi, invalid, low, (h.apart_of_idle idle).1, fun _ table => h.not_idle_of_table table idle⟩

/-- The machine `c'` has one table more than `c`, an empty one in page `t`. The free pages are left
open. -/
structure AddsTable (c c' : Machine) (type : PageType) (i t : Nat) : Prop where
  parameters : c'.parameters = c.parameters
  size : c'.ram.size = c.ram.size
  hold : c.CanHold i t
  pde : ∀ k < 1024, c'.pde k = if k = i then Entry.tableEntry t else c.pde k
  pte : ∀ s < c.ram.pages, (s < c.parameters.databasePage ∨
    c.parameters.databasePage + c.parameters.databasePages ≤ s) → s ≠ 0xF → ∀ j < 1024,
    c'.pte s j = if s = t then .zero else c.pte s j
  record : ∀ p ≤ c.parameters.highestPage, c'.record p =
    if p = t then Manager.recordFor type (directoryEntryOf i) else c.record p
  table_iff : ∀ k s, c'.Table k s ↔ k = i ∧ s = t ∨ c.Table k s

/-- Moreover page `t` is the one that was taken from the free pages, the highest that could be. -/
structure Committed (c c' : Machine) (type : PageType) (i t : Nat) : Prop
    extends c.AddsTable c' type i t where
  lost : c.freeList.Loses c.idlePages c.parameters.contiguousLimit t c'.freeList

namespace AddsTable

variable {type : PageType} (com : AddsTable c c' type i t)
include com

lemma lt_database (h : c.Mapped) : t < c.parameters.databasePage := by
  have := com.hold.low
  have := h.fit.limit
  omega

lemma table : c'.Table i t := (com.table_iff i t).mpr (Or.inl ⟨rfl, rfl⟩)

/-- The new table is empty. -/
lemma pte_self (h : c.Mapped) (hj : j < 1024) : c'.pte t j = .zero := by
  rw [com.pte t (com.hold.lt_pages h) (Or.inl (com.lt_database h)) com.hold.apart j hj, if_pos rfl]

lemma inUse (h : c.Mapped) : c'.inUse t = 0 :=
  inUse_eq_zero_iff.mpr fun _ hj => com.pte_self h hj

lemma ne_of_table (table : c.Table k s) : s ≠ t := by
  rintro rfl
  exact com.hold.fresh k table

lemma pte_of_table (h : c.Mapped) (table : c.Table k s) (hj : j < 1024) :
    c'.pte s j = c.pte s j := by
  rw [com.pte s (h.lt_pages table) (Or.inl (h.lt_database table)) (h.apart k s table) j hj,
    if_neg (com.ne_of_table table)]

end AddsTable

namespace Committed

variable {type : PageType} (com : Committed c c' type i t)
include com

lemma reassigned (h : c.Kept) : Reassigned c c' (· = t) := by
  refine ⟨com.parameters, com.lost.pageCount, com.lost.boundary, fun p eq => ?_,
    fun p hp other => ?_, fun k s other => ?_, fun k s table other j hj => ?_⟩
  · subst eq
    exact h.apart_of_idle com.lost.mem
  · rw [com.record p hp, if_neg other]
  · rw [com.table_iff]
    exact ⟨fun | .inl new => absurd new.2 other | .inr old => old, .inr⟩
  · exact com.pte_of_table h.toMapped table hj

/-- The invariant holds with one table more. -/
theorem kept (h : c.Kept) (isTable : type.isPageTable = true) (wired : c'.Wired)
    (counted : c'.Counted) : c'.Kept := by
  have ht := (mem_idlePages.mp com.lost.mem).1
  have record : c'.record t = Manager.recordFor type (directoryEntryOf i) := by
    rw [com.record t ht, if_pos rfl]
  have busy : (c'.record t).busy = true := record ▸ Manager.busy_recordFor type _
  have busyTable : (c'.record t).isBusyPageTable = true := by
    rw [PfnRecord.isBusyPageTable, busy, record, Manager.pageType_recordFor, isTable]
    rfl
  refine ⟨(com.reassigned h).ordered h.toOrdered wired counted (fun p _ eq idle => ?_)
    (fun k s eq table => ?_) fun p eq _ => ⟨i, eq ▸ com.table⟩, ?_⟩
  · subst eq
    rw [busy] at idle
    cases idle
  · subst eq
    refine ⟨busyTable, ?_⟩
    rw [record, Manager.entriesUsed_recordFor isTable, com.inUse h.toMapped]
  · have idle : c'.idlePages = c.idlePages \ Ico t (t + 1) := by
      refine idlePages_taken com.parameters fun p hp => ?_
      rw [com.record p hp]
      by_cases same : p = t
      · rw [if_pos same, if_pos (by omega)]
        exact Manager.busy_recordFor type _
      · rw [if_neg same, if_neg (by omega)]
    rw [idle]
    exact com.lost.keeps

theorem targeted (h : c.Kept) (targeted : c.Targeted) : c'.Targeted := by
  refine (com.reassigned h).targeted targeted (fun k s eq table j hj => ?_)
    fun k s table _ j hj valid frame eq => ?_
  · subst eq
    rw [com.pte_self h.toMapped hj]
    exact Entry.valid_zero
  · exact targeted.not_idle table hj valid (eq ▸ com.lost.mem)

theorem upholds (h : c.Kept) : c.Upholds c' := by
  have other {p : Nat} (o : c.Occupied p) : p ≠ t := by
    rintro rfl
    exact o.not_idle com.lost.mem
  refine ⟨⟨com.parameters, com.size, fun p o j hj => ?_, fun n shows => ?_⟩, fun p o => ?_,
    com.targeted h⟩
  · have same := com.pte p (o.lt_pages h.toMapped) o.outside (o.ne_directory h.toOrdered) j hj
    rwa [if_neg (other o)] at same
  · obtain ⟨s, table, _⟩ := h.toWired.shown shows
    rw [com.pde _ table.lt, if_neg]
    intro same
    have valid := Entry.valid_of_namesTable table.names
    rw [same, com.hold.invalid] at valid
    cases valid
  · have same := com.record p o.le
    rw [if_neg (other o)] at same
    exact o.congr com.parameters (same ▸ o.busy) (congrArg PfnRecord.pageType same)

end Committed

/-! ### Releasing -/

/-- The machine in which directory entry `i` maps nothing. -/
def uninstall (c : Machine) (i : Nat) : Machine := c.setWord 0xF i Entry.zero.bits

section
variable (h : c.Mapped)
include h

lemma pde_uninstall (hi : i < 1024) (hk : k < 1024) :
    (c.uninstall i).pde k = if k = i then .zero else c.pde k := by
  rw [pde, uninstall, entry_setWord h.large hi h.large hk]
  by_cases same : k = i
  · rw [if_pos ⟨rfl, same⟩, if_pos same]
  · rw [if_neg (by omega), if_neg same]
    rfl

lemma pte_uninstall (hi : i < 1024) (hs : s < c.ram.pages) (ne : s ≠ 0xF) (hj : j < 1024) :
    (c.uninstall i).pte s j = c.pte s j := by
  rw [pte, uninstall, entry_setWord h.large hi hs hj, if_neg (by omega)]
  rfl

lemma record_uninstall (hi : i < 1024) (hp : p ≤ c.parameters.highestPage) :
    (c.uninstall i).record p = c.record p := by
  have place := (h.record_place hp).2
  have := h.fit.directory
  have same := entry_setWord (w := Entry.zero.bits) h.large hi place (Nat.mod_lt p (by decide))
  rw [if_neg (by omega)] at same
  exact congrArg (fun e : Entry => PfnRecord.mk e.bits) same

/-- The tables are those of before but the one that went. -/
lemma table_uninstall (hi : i < 1024) : (c.uninstall i).Table k s ↔ c.Table k s ∧ k ≠ i := by
  constructor
  · intro table
    have names := table.names
    have frame := table.frame
    rw [pde_uninstall h hi table.lt] at names frame
    by_cases same : k = i
    · rw [if_pos same, Entry.namesTable_zero] at names
      cases names
    · rw [if_neg same] at names frame
      exact ⟨⟨table.lt, table.ne, names, frame⟩, same⟩
  · rintro ⟨table, other⟩
    have entry := pde_uninstall h hi table.lt
    rw [if_neg other] at entry
    exact ⟨table.lt, table.ne, entry ▸ table.names, entry ▸ table.frame⟩

lemma Mapped.uninstall (table : c.Table i t) : (c.uninstall i).Mapped := by
  have hi := table.lt
  have old {k s : Nat} (named : (c.uninstall i).Table k s) : c.Table k s :=
    ((table_uninstall h hi).mp named).1
  refine ⟨h.fit, h.installed, ?_, fun k s named => h.low k s (old named),
    fun k s named => h.apart k s (old named),
    fun k k' s named named' => h.distinct k k' s (old named) (old named'), fun k low high => ?_,
    fun k hk own outside => ?_⟩
  · rw [pde_uninstall h hi (by decide), if_neg table.ne.symm]
    exact h.selfMap
  · have large := h.largePages k low high
    have other : k ≠ i := by
      rintro rfl
      exact (Entry.namesTable_iff.mp table.names).2 large.2.1
    rw [pde_uninstall h hi (by omega), if_neg other]
    exact large
  · rw [pde_uninstall h hi hk]
    split
    · exact Or.inr rfl
    · exact h.others k hk own outside

/-- What may be remembered after the table is gone: neither its page of entries nor what they
mapped. -/
lemma walk_le_uninstall (hi : i < 1024) :
    PageMap.Le (.off (.off c.ram.walk (0xC0000 + i) (0xC0000 + i)) (i * 1024) (i * 1024 + 1023))
      (c.uninstall i).ram.walk := by
  refine PageMap.off_le fun n p outside mapped => ?_
  unfold PageMap.off at mapped
  split at mapped
  · cases mapped
  · next window =>
    rw [uninstall, h.walk_setDirectory hi (by omega) (by omega)]
    exact mapped

end

/-- A table that maps a page of the database holds an entry. -/
lemma Wired.ne_of_blank (h : c.Wired) (table : c.Table i t) (blank : c.inUse t = 0)
    (shows : c.ShowsDatabase n) : n / 1024 ≠ i := by
  intro same
  obtain ⟨s, named, entry⟩ := h.shown shows
  cases (named.frame.symm.trans ((congrArg (fun k => (c.pde k).frame) same).trans table.frame))
  have zero := inUse_eq_zero_iff.mp blank (n % 1024) (Nat.mod_lt _ (by decide))
  have valid := Entry.valid_databaseEntry (p := n - 0x80000)
  rw [← entry, zero, Entry.valid_zero] at valid
  cases valid

lemma Wired.uninstall (h : c.Wired) (table : c.Table i t) (blank : c.inUse t = 0) :
    (c.uninstall i).Wired := by
  have mapped := h.toMapped
  refine ⟨mapped.uninstall table, fun q hq => ?_⟩
  obtain ⟨s, named, entry⟩ := h.database q hq
  have other : (0x80000 + c.parameters.databasePage + q) / 1024 ≠ i :=
    h.ne_of_blank table blank ⟨Nat.le_add_right _ _, Nat.add_lt_add_left hq _⟩
  refine ⟨s, (table_uninstall mapped table.lt).mpr ⟨named, other⟩, ?_⟩
  exact (pte_uninstall mapped table.lt (mapped.lt_pages named) (mapped.apart _ s named)
    (Nat.mod_lt _ (by decide))).trans entry

/-- The machine `c'` lacks the table of directory entry `i`, which was in page `t`. The free pages
are left open. -/
structure DropsTable (c c' : Machine) (i t : Nat) : Prop where
  parameters : c'.parameters = c.parameters
  size : c'.ram.size = c.ram.size
  table : c.Table i t
  pde : ∀ k < 1024, c'.pde k = if k = i then .zero else c.pde k
  pte : ∀ s < c.ram.pages, (s < c.parameters.databasePage ∨
    c.parameters.databasePage + c.parameters.databasePages ≤ s) → s ≠ 0xF → ∀ j < 1024,
    c'.pte s j = c.pte s j
  record : ∀ p ≤ c.parameters.highestPage, c'.record p = if p = t then .zero else c.record p
  table_iff : ∀ k s, c'.Table k s ↔ c.Table k s ∧ k ≠ i

/-- Moreover page `t` is free again. -/
structure Released (c c' : Machine) (i t : Nat) : Prop extends c.DropsTable c' i t where
  keeps : c'.freeList.Keeps (c.idlePages ∪ Ico t (t + 1))
  pageCount : c'.freeList.pageCount = c.freeList.pageCount
  boundary : c'.freeList.boundary = c.freeList.boundary
  general : c'.freeList.general = c.freeList.general + 1

namespace DropsTable

variable (rel : DropsTable c c' i t)
include rel

lemma pte_of_table (h : c.Mapped) (table : c.Table k s) (hj : j < 1024) :
    c'.pte s j = c.pte s j :=
  rel.pte s (h.lt_pages table) (Or.inl (h.lt_database table)) (h.apart k s table) j hj

lemma not_table (h : c.Mapped) (table : c'.Table k t) : False := by
  obtain ⟨table, other⟩ := (rel.table_iff k t).mp table
  exact other (h.distinct k i t table rel.table)

end DropsTable

namespace Released

variable (rel : Released c c' i t)
include rel

lemma reassigned (h : c.Kept) : Reassigned c c' (· = t) := by
  have low := h.toMapped.lt_database rel.table
  refine ⟨rel.parameters, rel.pageCount, rel.boundary, fun p eq => ?_,
    fun p hp other => ?_, fun k s other => ?_, fun k s table other j hj => ?_⟩
  · subst eq
    exact ⟨h.apart i p rel.table, Or.inl low⟩
  · rw [rel.record p hp, if_neg other]
  · rw [rel.table_iff]
    refine ⟨And.left, fun table => ⟨table, ?_⟩⟩
    rintro rfl
    exact other (table.frame.symm.trans rel.table.frame)
  · exact rel.pte_of_table h.toMapped table hj

/-- The invariant holds with one table less. -/
theorem kept (h : c.Kept) (wired : c'.Wired) (counted : c'.Counted) : c'.Kept := by
  have ht := h.toWired.table_le rel.table
  have record : c'.record t = .zero := by
    rw [rel.record t ht, if_pos rfl]
  refine ⟨(rel.reassigned h).ordered h.toOrdered wired counted (fun p _ eq _ => eq ▸ record)
    (fun k s eq table => ?_) fun p eq busy => ?_, ?_⟩
  · subst eq
    exact (rel.not_table h.toMapped table).elim
  · rw [eq, record, PfnRecord.isBusyPageTable_zero] at busy
    cases busy
  · have idle : c'.idlePages = c.idlePages ∪ Ico t (t + 1) := by
      refine idlePages_returned rel.parameters (Nat.succ_le_succ ht) fun p hp => ?_
      rw [rel.record p hp]
      by_cases same : p = t
      · rw [if_pos same, if_pos (by omega)]
        exact PfnRecord.busy_zero
      · rw [if_neg same, if_neg (by omega)]
    rw [idle]
    exact rel.keeps

theorem targeted (h : c.Kept) (targeted : c.Targeted) : c'.Targeted := by
  refine (rel.reassigned h).targeted targeted (fun k s eq table => ?_)
    fun k s table _ j hj valid frame eq => ?_
  · subst eq
    exact (rel.not_table h.toMapped table).elim
  · have nontable := (targeted k s table j hj valid frame).2
    rw [eq, h.isPageTable_of_table rel.table] at nontable
    cases nontable

theorem upholds (h : c.Kept) (blank : c.inUse t = 0) : c.Upholds c' := by
  refine ⟨⟨rel.parameters, rel.size, fun p o j hj => ?_, fun n shows => ?_⟩, fun p o => ?_,
    rel.targeted h⟩
  · exact rel.pte p (o.lt_pages h.toMapped) o.outside (o.ne_directory h.toOrdered) j hj
  · rw [rel.pde _ (shows.lt h.toMapped), if_neg (h.toWired.ne_of_blank rel.table blank shows)]
  · have other : p ≠ t := by
      rintro rfl
      exact o.not_table h.toOrdered rel.table
    have same := rel.record p o.le
    rw [if_neg other] at same
    exact o.congr rel.parameters (same ▸ o.busy) (congrArg PfnRecord.pageType same)

end Released

end Machine

end ConsoleMemory
