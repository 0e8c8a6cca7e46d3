import ConsoleMemory.Proofs.FreeList.Charging
import ConsoleMemory.Proofs.Manager.Records

/-!
# What the manager keeps

The free list, the usage counters, the records and the page tables tell one
story: a page is free just when its record is not busy, and a busy page table is
the table of one directory entry, with its entries in use counted.
-/

namespace ConsoleMemory

namespace Machine

variable {c c' : Machine} {i j n p q t : Nat} {e : Entry}

/-- Entries in use of the page table in page `t`. -/
def inUse (c : Machine) (t : Nat) : Nat :=
  ((Finset.range 1024).filter fun j => (!(c.pte t j).isZero) = true).card

/-- Pages that are not busy. -/
def idlePages (c : Machine) : Finset Nat :=
  (Finset.range (c.parameters.highestPage + 1)).filter fun p => (c.record p).busy = false

/-- Virtual page `n` shows a page of the PFN database. -/
def ShowsDatabase (c : Machine) (n : Nat) : Prop :=
  0x80000 + c.parameters.databasePage ≤ n ∧
    n < 0x80000 + c.parameters.databasePage + c.parameters.databasePages

/-- The counters, the records and the page tables agree. -/
structure Ordered (c : Machine) : Prop extends c.Wired where
  counted : c.Counted
  pageCount : c.freeList.pageCount = c.parameters.highestPage + 1
  boundary : c.freeList.boundary = c.parameters.debuggerBoundary
  blank : ∀ p ≤ c.parameters.highestPage, (c.record p).busy = false → c.record p = .zero
  directory : (c.record 0xF).busy = true ∧ (c.record 0xF).pageType = .systemPageTable
  databasePages : ∀ q < c.parameters.databasePages,
    (c.record (c.parameters.databasePage + q)).busy = true ∧
      (c.record (c.parameters.databasePage + q)).pageType = .unknown
  tables : ∀ i t, c.Table i t → (c.record t).isBusyPageTable = true
  used : ∀ i t, c.Table i t → (c.record t).entriesUsed = c.inUse t
  owned : ∀ p ≤ c.parameters.highestPage, p ≠ 0xF → (c.record p).isBusyPageTable = true →
    ∃ i, c.Table i p

/-- The invariant of the manager at rest: the free pages are those that are not busy. -/
structure Kept (c : Machine) : Prop extends c.Ordered where
  free : c.freeList.Keeps c.idlePages

/-- Valid entries that map pages of memory map busy pages that hold no page table. -/
def Targeted (c : Machine) : Prop :=
  ∀ i t, c.Table i t → ∀ j < 1024, (c.pte t j).valid = true →
    (c.pte t j).frame ≤ c.parameters.highestPage →
    (c.record (c.pte t j).frame).busy = true ∧
      (c.record (c.pte t j).frame).pageType.isPageTable = false

lemma mem_idlePages :
    p ∈ c.idlePages ↔ p ≤ c.parameters.highestPage ∧ (c.record p).busy = false := by
  rw [idlePages, Finset.mem_filter, Finset.mem_range, Nat.lt_succ_iff]

namespace Ordered

variable (h : c.Ordered) (table : c.Table i t)
include h table

lemma busy_of_table : (c.record t).busy = true :=
  (PfnRecord.isBusyPageTable_iff.mp (h.tables i t table)).1

lemma isPageTable_of_table : (c.record t).pageType.isPageTable = true :=
  (PfnRecord.isBusyPageTable_iff.mp (h.tables i t table)).2

lemma record_ne_zero : c.record t ≠ .zero := by
  intro zero
  have busy := h.busy_of_table table
  rw [zero, PfnRecord.busy_zero] at busy
  cases busy

/-- A page table is not idle. -/
lemma not_idle_of_table : t ∉ c.idlePages := by
  intro idle
  cases (h.busy_of_table table).symm.trans (mem_idlePages.mp idle).2

end Ordered

lemma inUse_le (c : Machine) (t : Nat) : c.inUse t ≤ 1024 :=
  (Finset.card_filter_le _ _).trans_eq (Finset.card_range 1024)

lemma inUse_eq_zero_iff : c.inUse t = 0 ↔ ∀ j < 1024, c.pte t j = .zero := by
  rw [inUse, Finset.card_eq_zero, Finset.filter_eq_empty_iff]
  refine forall_congr' fun j => ?_
  rw [Finset.mem_range, Bool.not_eq_true', Bool.not_eq_false, Entry.isZero_iff]

lemma inUse_congr (pte : ∀ j < 1024, c'.pte t j = c.pte t j) : c'.inUse t = c.inUse t := by
  refine congrArg Finset.card (Finset.filter_congr fun j hj => ?_)
  rw [pte j (Finset.mem_range.mp hj)]

lemma idlePages_congr (parameters : c'.parameters = c.parameters)
    (busy : ∀ p ≤ c.parameters.highestPage, (c'.record p).busy = (c.record p).busy) :
    c'.idlePages = c.idlePages := by
  unfold idlePages
  rw [parameters]
  refine Finset.filter_congr fun p hp => ?_
  rw [busy p (Nat.lt_succ_iff.mp (Finset.mem_range.mp hp))]

lemma Counted.congr (h : c.Counted) (parameters : c'.parameters = c.parameters)
    (usage : c'.usage = c.usage)
    (busy : ∀ p ≤ c.parameters.highestPage, (c'.record p).busy = (c.record p).busy ∧
      (c'.record p).pageType = (c.record p).pageType) : c'.Counted := by
  intro t
  have pages : c'.busyPages t = c.busyPages t := by
    unfold busyPages
    rw [parameters]
    refine Finset.filter_congr fun p hp => ?_
    obtain ⟨busy, type⟩ := busy p (Nat.lt_succ_iff.mp (Finset.mem_range.mp hp))
    rw [busy, type]
  rw [usage, pages]
  exact h t

namespace Mapped

variable (h : c.Mapped) (table : c.Table i t) (hj : j < 1024)
include h table hj

lemma pte_setTable {s k : Nat} (hs : s < c.ram.pages) (hk : k < 1024) :
    (c.setWord t j e.bits).pte s k = if s = t ∧ k = j then e else c.pte s k :=
  entry_setWord (h.lt_pages table) hj hs hk

lemma pde_setTable {k : Nat} (hk : k < 1024) : (c.setWord t j e.bits).pde k = c.pde k := by
  have apart := h.apart i t table
  have same := h.pte_setTable (e := e) table hj h.large hk
  rwa [if_neg (by omega)] at same

lemma record_setTable (hp : p ≤ c.parameters.highestPage) :
    (c.setWord t j e.bits).record p = c.record p := by
  have place := (h.record_place hp).2
  have low := h.lt_database table
  have few := c.ram.pages_le
  rw [record, parameters_setWord, setWord,
    Ram.word_setWord (by omega) hj (by omega) (by omega), if_neg (by omega)]
  rfl

lemma setTable : (c.setWord t j e.bits).Mapped :=
  h.congr rfl rfl fun _ hk => h.pde_setTable table hj hk

lemma inUse_setTable :
    (c.setWord t j e.bits).inUse t + (!(c.pte t j).isZero).toNat =
      c.inUse t + (!e.isZero).toNat := by
  have inside := h.lt_pages table
  have entry (k : Nat) (hk : k < 1024) := h.pte_setTable (e := e) table hj inside hk
  have change := card_filter_change (s := Finset.range 1024)
    (f := fun k => !((c.setWord t j e.bits).pte t k).isZero) (g := fun k => !(c.pte t k).isZero)
    (Finset.mem_range.mpr hj) fun k hk ne => by
      rw [entry k (Finset.mem_range.mp hk), if_neg (by omega)]
  rw [entry j hj, if_pos ⟨rfl, rfl⟩] at change
  exact change

lemma inUse_setTable_of_ne {s : Nat} (hs : s < c.ram.pages) (ne : s ≠ t) :
    (c.setWord t j e.bits).inUse s = c.inUse s :=
  inUse_congr fun k hk => by rw [h.pte_setTable table hj hs hk, if_neg (by omega)]

end Mapped

/-- A page of the database has its entry in a page table. -/
lemma Wired.shown (h : c.Wired) (shows : c.ShowsDatabase n) :
    ∃ t, c.Table (n / 1024) t ∧ c.pte t (n % 1024) = .databaseEntry (n - 0x80000) := by
  obtain ⟨low, high⟩ := shows
  obtain ⟨t, table, entry⟩ := h.database (n - (0x80000 + c.parameters.databasePage)) (by omega)
  rw [Nat.add_sub_cancel' low] at table entry
  have place : c.parameters.databasePage + (n - (0x80000 + c.parameters.databasePage)) =
      n - 0x80000 := by omega
  rw [place] at entry
  exact ⟨t, table, entry⟩

lemma Wired.setTable (h : c.Wired) (table : c.Table i t) (hj : j < 1024)
    (other : ¬ c.ShowsDatabase (i * 1024 + j)) : (c.setWord t j e.bits).Wired := by
  refine ⟨h.toMapped.setTable table hj, fun q hq => ?_⟩
  obtain ⟨s, named, entry⟩ := h.database q hq
  refine ⟨s, named.congr fun k hk => h.toMapped.pde_setTable table hj hk, ?_⟩
  rw [parameters_setWord, h.toMapped.pte_setTable table hj (h.toMapped.lt_pages named) (by omega),
    if_neg]
  · exact entry
  rintro ⟨rfl, rest⟩
  have same := h.distinct _ _ _ named table
  refine other ⟨?_, ?_⟩
  · omega
  · rw [parameters_setWord] at hq
    omega

/-- The machine with entry `j` of the page table in page `t` changed and its entries in use counted
anew. -/
def setEntry (c : Machine) (t j : Nat) (e : Entry) : Machine :=
  (c.setWord t j e.bits).setRecord t ((c.record t).described ((c.setWord t j e.bits).inUse t))

/-- The machines differ at most in entries of page tables and in what records say of those. -/
structure SameRoles (c c' : Machine) : Prop where
  parameters : c'.parameters = c.parameters
  layout : c'.layout = c.layout
  freeList : c'.freeList = c.freeList
  usage : c'.usage = c.usage
  size : c'.ram.size = c.ram.size
  pde : ∀ i < 1024, c'.pde i = c.pde i
  record : ∀ p ≤ c.parameters.highestPage,
    (c'.record p).busy = (c.record p).busy ∧ (c'.record p).pageType = (c.record p).pageType
  entry : ∀ p < c.ram.pages, (∀ i, ¬ c.Table i p) → (p < c.parameters.databasePage ∨
    c.parameters.databasePage + c.parameters.databasePages ≤ p) →
    ∀ i < 1024, c'.ram.entry p i = c.ram.entry p i

namespace SameRoles

lemma refl (c : Machine) : c.SameRoles c :=
  ⟨rfl, rfl, rfl, rfl, rfl, fun _ _ => rfl, fun _ _ => ⟨rfl, rfl⟩, fun _ _ _ _ _ _ => rfl⟩

lemma pages (h : c.SameRoles c') : c'.ram.pages = c.ram.pages := by
  rw [Ram.pages, Ram.pages, h.size]

lemma table_iff (h : c.SameRoles c') : c'.Table i t ↔ c.Table i t :=
  ⟨fun table => table.congr fun i hi => (h.pde i hi).symm, fun table => table.congr h.pde⟩

lemma trans {c'' : Machine} (h : c.SameRoles c') (h' : c'.SameRoles c'') : c.SameRoles c'' := by
  refine ⟨h'.parameters.trans h.parameters, h'.layout.trans h.layout,
    h'.freeList.trans h.freeList, h'.usage.trans h.usage, h'.size.trans h.size,
    fun i hi => (h'.pde i hi).trans (h.pde i hi), fun p hp => ?_, fun p hp none outside i hi => ?_⟩
  · have second := h'.record p (by rwa [h.parameters])
    exact ⟨second.1.trans (h.record p hp).1, second.2.trans (h.record p hp).2⟩
  · have second := h'.entry p (by rwa [h.pages]) (fun i table => none i (h.table_iff.mp table))
      (by rwa [h.parameters]) i hi
    exact second.trans (h.entry p hp none outside i hi)

lemma isBusyPageTable (h : c.SameRoles c') (hp : p ≤ c.parameters.highestPage) :
    (c'.record p).isBusyPageTable = (c.record p).isBusyPageTable := by
  rw [PfnRecord.isBusyPageTable, PfnRecord.isBusyPageTable, (h.record p hp).1, (h.record p hp).2]

end SameRoles

section
variable (h : c.Wired) (table : c.Table i t) (hj : j < 1024)
  (other : ¬ c.ShowsDatabase (i * 1024 + j))
include h table

lemma Wired.table_le : t ≤ c.parameters.highestPage := by
  have := h.toMapped.lt_database table
  have := h.fit.inside
  omega

include hj other

/-- A new description of a table's record, after a change of an entry. -/
lemma Wired.describe (m : Nat) :
    ((c.setWord t j e.bits).setRecord t ((c.record t).described m)).Wired :=
  (h.setTable table hj other).setRecord (h.table_le table)

lemma Wired.record_describe (m : Nat) (hp : p ≤ c.parameters.highestPage) :
    ((c.setWord t j e.bits).setRecord t ((c.record t).described m)).record p =
      if p = t then (c.record t).described m else c.record p := by
  have wired := h.setTable (e := e) table hj other
  rw [wired.toMapped.record_setRecord (h.table_le table) hp,
    h.toMapped.record_setTable table hj hp]

lemma Wired.pte_describe (m : Nat) {s k : Nat} (hs : s < c.parameters.databasePage)
    (hk : k < 1024) : ((c.setWord t j e.bits).setRecord t ((c.record t).described m)).pte s k =
      if s = t ∧ k = j then e else c.pte s k := by
  have wired := h.setTable (e := e) table hj other
  have := h.installed
  have := h.fit.inside
  rw [wired.toMapped.pte_setRecord (h.table_le table) hs hk,
    h.toMapped.pte_setTable table hj (by omega) hk]

lemma Wired.sameRoles_describe (m : Nat) :
    c.SameRoles ((c.setWord t j e.bits).setRecord t ((c.record t).described m)) := by
  have mapped := h.toMapped
  have wired := h.setTable (e := e) table hj other
  refine ⟨rfl, rfl, rfl, rfl, rfl, fun k hk => ?_, fun p hp => ?_, fun p hp none outside k hk => ?_⟩
  · rw [wired.toMapped.pde_setRecord (h.table_le table) hk, mapped.pde_setTable table hj hk]
  · rw [h.record_describe table hj other m hp]
    split
    · next eq =>
      subst eq
      exact ⟨PfnRecord.busy_described, PfnRecord.pageType_described⟩
    · exact ⟨rfl, rfl⟩
  · have place := (mapped.record_place (h.table_le table)).1
    rw [wired.toMapped.entry_setRecord (h.table_le table) hp hk, if_neg (by
      rw [parameters_setWord]
      omega), entry_setWord (mapped.lt_pages table) hj hp hk, if_neg]
    rintro ⟨rfl, _⟩
    exact none i table

end

/-- Where roles stay, the invariant is a matter of the entries in use. -/
lemma SameRoles.kept (roles : c.SameRoles c') (h : c.Kept) (wired : c'.Wired)
    (blank : ∀ p ≤ c.parameters.highestPage, c.record p = .zero → c'.record p = .zero)
    (used : ∀ i t, c.Table i t → (c'.record t).entriesUsed = c'.inUse t) : c'.Kept := by
  have directory := h.fit.directory
  have inside := h.fit.inside
  refine ⟨⟨wired, h.counted.congr roles.parameters roles.usage roles.record, ?_, ?_, ?_, ?_, ?_,
    ?_, ?_, ?_⟩, ?_⟩
  · rw [roles.freeList, roles.parameters]
    exact h.pageCount
  · rw [roles.freeList, roles.parameters]
    exact h.boundary
  · intro p hp idle
    rw [roles.parameters] at hp
    rw [(roles.record p hp).1] at idle
    exact blank p hp (h.blank p hp idle)
  · rw [(roles.record 0xF (by omega)).1, (roles.record 0xF (by omega)).2]
    exact h.directory
  · intro q hq
    rw [roles.parameters] at hq ⊢
    rw [(roles.record _ (by omega)).1, (roles.record _ (by omega)).2]
    exact h.databasePages q hq
  · intro i t table
    have table := roles.table_iff.mp table
    rw [roles.isBusyPageTable (h.toWired.table_le table)]
    exact h.tables i t table
  · exact fun i t table => used i t (roles.table_iff.mp table)
  · intro p hp ne busy
    rw [roles.parameters] at hp
    rw [roles.isBusyPageTable hp] at busy
    obtain ⟨i, table⟩ := h.owned p hp ne busy
    exact ⟨i, roles.table_iff.mpr table⟩
  · rw [roles.freeList, idlePages_congr roles.parameters fun p hp => (roles.record p hp).1]
    exact h.free

/-- A changed entry of a page table, with the entries in use counted anew, keeps the invariant. -/
theorem Kept.setEntry (h : c.Kept) (table : c.Table i t) (hj : j < 1024)
    (other : ¬ c.ShowsDatabase (i * 1024 + j)) : (c.setEntry t j e).Kept := by
  have record {p : Nat} (hp : p ≤ c.parameters.highestPage) : (c.setEntry t j e).record p =
      if p = t then (c.record t).described ((c.setWord t j e.bits).inUse t) else c.record p :=
    h.toWired.record_describe table hj other _ hp
  have pte {s k : Nat} (hs : s < c.parameters.databasePage) (hk : k < 1024) :
      (c.setEntry t j e).pte s k = (c.setWord t j e.bits).pte s k := by
    have := h.installed
    have := h.fit.inside
    rw [h.toMapped.pte_setTable table hj (by omega) hk]
    exact h.toWired.pte_describe table hj other _ hs hk
  refine (h.toWired.sameRoles_describe table hj other _).kept h
    (h.toWired.describe table hj other _) (fun p hp zero => ?_) fun k s named => ?_
  · change (c.setEntry t j e).record p = .zero
    rw [record hp, if_neg]
    · exact zero
    rintro rfl
    exact h.record_ne_zero table zero
  · change ((c.setEntry t j e).record s).entriesUsed = (c.setEntry t j e).inUse s
    have low := h.toMapped.lt_database named
    rw [record (h.toWired.table_le named), inUse_congr fun k hk => pte low hk]
    split
    · next eq =>
      subst eq
      have := (c.setWord s j e.bits).inUse_le s
      exact PfnRecord.entriesUsed_described (by omega)
    · next ne =>
      rw [h.used k s named,
        h.toMapped.inUse_setTable_of_ne table hj (h.toMapped.lt_pages named) ne]

end Machine

end ConsoleMemory
