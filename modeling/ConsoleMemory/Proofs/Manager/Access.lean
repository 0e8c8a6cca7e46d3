import ConsoleMemory.Proofs.Manager.Wiring

/-!
# Entries and records as the manager reaches them

Each goes through the tables to its own place in memory, and no access faults.
What a changed entry mapped may still be remembered (`writeDirectoryEntry`,
`writeTableEntry`); a record maps nothing.
-/

namespace ConsoleMemory

open VirtualAddress

namespace Parameters

variable {p : Parameters}

/-- Where the database appears in the contiguous window. -/
def databaseStart (p : Parameters) : VirtualAddress :=
  .ofNat (0x80000000 + p.databasePage * 4096)

lemma Fit.toNat_databaseStart (h : p.Fit) :
    p.databaseStart.toNat = 0x80000000 + p.databasePage * 4096 := by
  have := h.inside
  have := h.window
  rw [databaseStart, Address.toNat_ofNat]
  omega

lemma Fit.databaseAddress_eq (h : p.Fit) : p.databaseAddress = .ok p.databaseStart := by
  have := h.inside
  have := h.window
  have base : (Pfn.base p.databasePage).toNat = p.databasePage * 4096 := by
    rw [Pfn.toNat_base]
    omega
  rw [databaseAddress, base, checkedAdd, if_pos (by
    rw [MemoryMap.contiguousBase]
    omega)]
  rfl

end Parameters

namespace Machine

variable {c c' : Machine} {i j n p q t : Nat} {w : UInt32} {r : PfnRecord}

/-- The machine with another record for page `p`. -/
def setRecord (c : Machine) (p : Nat) (r : PfnRecord) : Machine :=
  c.setWord (c.parameters.databasePage + p / 1024) (p % 1024) r.bits

@[simp] lemma parameters_setWord : (c.setWord p i w).parameters = c.parameters := rfl

@[simp] lemma pages_setWord : (c.setWord p i w).ram.pages = c.ram.pages := rfl

@[simp] lemma parameters_wipe {count : Nat} : (c.wipe p count).parameters = c.parameters := rfl

@[simp] lemma parameters_setRecord : (c.setRecord p r).parameters = c.parameters := rfl

namespace Mapped

variable (h : c.Mapped)
include h

/-- The place of a record lies in the database and in memory. -/
lemma record_place (hp : p ≤ c.parameters.highestPage) :
    p / 1024 < c.parameters.databasePages ∧
      c.parameters.databasePage + p / 1024 < c.ram.pages := by
  have := h.fit.records
  have := h.fit.inside
  have := h.installed
  omega

lemma recordAddress_eq (hp : p ≤ c.parameters.highestPage) :
    c.parameters.recordAddress p =
      .ok (.ofNat (0x80000000 + c.parameters.databasePage * 4096 + p * 4)) := by
  have := h.fit.records
  have := h.fit.inside
  have := h.fit.window
  have place := h.fit.toNat_databaseStart
  rw [Parameters.recordAddress, h.fit.databaseAddress_eq]
  simp only [bind, Except.bind, checkedMul, checkedAdd, place]
  rw [MemoryMap.recordBytes, if_pos (by omega)]
  dsimp only
  rw [if_pos (by omega)]
  rfl

lemma entry_setRecord (hp : p ≤ c.parameters.highestPage) (hq : q < c.ram.pages) (hj : j < 1024) :
    (c.setRecord p r).ram.entry q j =
      if q = c.parameters.databasePage + p / 1024 ∧ j = p % 1024 then ⟨r.bits⟩
      else c.ram.entry q j :=
  entry_setWord (h.record_place hp).2 (by omega) hq hj

lemma pde_setRecord (hp : p ≤ c.parameters.highestPage) (hi : i < 1024) :
    (c.setRecord p r).pde i = c.pde i := by
  have := h.fit.directory
  rw [pde, h.entry_setRecord hp h.large hi, if_neg (by omega)]
  rfl

lemma pte_setRecord (hp : p ≤ c.parameters.highestPage) (ht : t < c.parameters.databasePage)
    (hj : j < 1024) : (c.setRecord p r).pte t j = c.pte t j := by
  have := (h.record_place hp).2
  rw [pte, h.entry_setRecord hp (by omega) hj, if_neg (by omega)]
  rfl

lemma record_setRecord (hp : p ≤ c.parameters.highestPage) (hq : q ≤ c.parameters.highestPage) :
    (c.setRecord p r).record q = if q = p then r else c.record q := by
  have place := (h.record_place hp).2
  have place' := (h.record_place hq).2
  have few := c.ram.pages_le
  rw [record, parameters_setRecord, setRecord, setWord,
    Ram.word_setWord (by omega) (by omega) (by omega) (by omega)]
  by_cases same : q = p
  · subst same
    rw [if_pos ⟨rfl, rfl⟩, if_pos rfl]
  · rw [if_neg (by omega), if_neg same]
    rfl

lemma walk_setRecord (hp : p ≤ c.parameters.highestPage) :
    (c.setRecord p r).ram.walk = c.ram.walk :=
  h.walk_setWord (h.record_place hp).2 (by omega) (h.not_wires_database (by omega))

end Mapped

namespace Wired

variable (h : c.Wired)
include h

lemma setRecord (hp : p ≤ c.parameters.highestPage) : (c.setRecord p r).Wired :=
  h.congr rfl rfl (fun _ hi => h.toMapped.pde_setRecord hp hi) fun _ _ table _ hj =>
    h.toMapped.pte_setRecord hp (h.toMapped.lt_database table) hj

lemma walk_database (hq : q < c.parameters.databasePages) :
    c.ram.walk (0x80000 + c.parameters.databasePage + q) =
      some (c.parameters.databasePage + q) := by
  have := h.fit.inside
  have := h.fit.window
  have := h.installed
  obtain ⟨t, table, entry⟩ := h.database q hq
  refine h.toMapped.walk_page table ?_ ?_
  · rw [entry]
    exact Entry.valid_databaseEntry
  · rw [entry, Entry.frame_databaseEntry (by omega)]
    exact Ram.page?_of_lt (by omega) (by omega)

end Wired

end Machine

namespace Manager

variable {c : Machine} {W : PageMap} {i n p t : Nat} {e : Entry} {r : PfnRecord}

lemma readDirectoryEntry (h : c.Mapped) (hi : i < 1024) :
    Yields c (readEntry (directoryEntryOf i)) (c.pde i) c := by
  have small : 0xC0000 + i < 0x100000 := by omega
  have word : Yields c (readWord (directoryEntryOf i)) (c.ram.word 0xF i) c := by
    refine Leads.readWord h.large (PageMap.Le.refl _) ?_ ?_ hi
    · rw [directoryEntryOf, pageNumber_entryOf small]
      have : 0xC0000 + (0xC0000 + i) / 1024 = 0xC0300 := by omega
      rw [this]
      exact h.walk_directory
    · rw [directoryEntryOf, offset_entryOf small]
      omega
  exact word.bind .pure

/-- The walks before the change are those that may be remembered after it. -/
lemma writeDirectoryEntry (h : c.Mapped) (hi : i < 1024) :
    Leads c c.ram.walk (writeEntry (directoryEntryOf i) e) () (c.setWord 0xF i e.bits)
      c.ram.walk := by
  have small : 0xC0000 + i < 0x100000 := by omega
  refine (Leads.note _).bind (Leads.writeWord h.large (PageMap.Le.refl _) ?_ ?_ hi)
  · rw [directoryEntryOf, pageNumber_entryOf small]
    have : 0xC0000 + (0xC0000 + i) / 1024 = 0xC0300 := by omega
    rw [this]
    exact h.walk_directory
  · rw [directoryEntryOf, offset_entryOf small]
    omega

lemma readTableEntry (h : c.Mapped) (table : c.Table (n / 1024) t) :
    Yields c (readEntry (entryOf n)) (c.pte t (n % 1024)) c := by
  have := table.lt
  have word : Yields c (readWord (entryOf n)) (c.ram.word t (n % 1024)) c := by
    refine Leads.readWord h.large (PageMap.Le.refl _) ?_ (offset_entryOf (by omega)) (by omega)
    rw [pageNumber_entryOf (by omega)]
    exact h.walk_table table
  exact word.bind .pure

/-- The walks before the change are those that may be remembered after it. -/
lemma writeTableEntry (h : c.Mapped) (table : c.Table (n / 1024) t) :
    Leads c c.ram.walk (writeEntry (entryOf n) e) () (c.setWord t (n % 1024) e.bits)
      c.ram.walk := by
  have := table.lt
  refine (Leads.note _).bind (Leads.writeWord h.large (PageMap.Le.refl _) ?_
    (offset_entryOf (by omega)) (by omega))
  rw [pageNumber_entryOf (by omega)]
  exact h.walk_table table

lemma recordAddress_yields (h : c.Mapped) (hp : p ≤ c.parameters.highestPage) :
    Yields c (recordAddress p)
      (.ofNat (0x80000000 + c.parameters.databasePage * 4096 + p * 4)) c :=
  Leads.current fun _ => Leads.lift (h.recordAddress_eq hp)

lemma record_page (h : c.Wired) (hp : p ≤ c.parameters.highestPage) :
    c.ram.walk ((Address.ofNat (0x80000000 + c.parameters.databasePage * 4096 + p * 4) :
        VirtualAddress).pageNumber .small) = some (c.parameters.databasePage + p / 1024) ∧
      (Address.ofNat (0x80000000 + c.parameters.databasePage * 4096 + p * 4) :
        VirtualAddress).offset .small = p % 1024 * 4 := by
  have := h.fit.inside
  have := h.fit.window
  have place : (Address.ofNat (0x80000000 + c.parameters.databasePage * 4096 + p * 4) :
      VirtualAddress).toNat = 0x80000000 + c.parameters.databasePage * 4096 + p * 4 := by
    rw [Address.toNat_ofNat]
    omega
  constructor
  · have page : (0x80000000 + c.parameters.databasePage * 4096 + p * 4) / 4096 =
        0x80000 + c.parameters.databasePage + p / 1024 := by omega
    rw [Address.pageNumber, place, PageSize.bytes, page]
    exact h.walk_database (h.toMapped.record_place hp).1
  · rw [Address.offset, place, PageSize.bytes]
    omega

theorem readRecord_yields (h : c.Wired) (hp : p ≤ c.parameters.highestPage) :
    Yields c (readRecord p) (c.record p) c := by
  obtain ⟨page, offset⟩ := record_page h hp
  refine (recordAddress_yields h.toMapped hp).bind (Leads.bind ?_ .pure)
  exact Leads.readWord h.large (PageMap.Le.refl _) page offset (by omega)

theorem writeRecord_yields (h : c.Wired) (hp : p ≤ c.parameters.highestPage) :
    Yields c (writeRecord p r) () (c.setRecord p r) := by
  obtain ⟨page, offset⟩ := record_page h hp
  rw [Yields, h.toMapped.walk_setRecord hp]
  refine (Leads.note _).bind ((recordAddress_yields h.toMapped hp).bind ?_)
  exact Leads.writeWord h.large (PageMap.Le.refl _) page offset (by omega)

/-- Forgetting the page that an entry maps. -/
lemma flushPage (hn : n < 0x100000) :
    Leads c W (flush (entryOf n).mappedByEntry
      ((entryOf n).mappedByEntry + PageSize.small.offsetMask)) () c (W.off n n) := by
  have first : ((entryOf n).mappedByEntry).pageNumber .small = n := by
    rw [mappedByEntry_entryOf hn, Address.pageNumber, Address.toNat_ofNat, PageSize.bytes]
    omega
  have last : ((entryOf n).mappedByEntry + PageSize.small.offsetMask).pageNumber .small = n := by
    rw [mappedByEntry_entryOf hn, Address.pageNumber, Address.toNat_add, Address.toNat_ofNat,
      PageSize.offsetMask, PageSize.bytes]
    omega
  have flushed := Leads.flush (c := c) (W := W) (entryOf n).mappedByEntry
    ((entryOf n).mappedByEntry + PageSize.small.offsetMask)
  rwa [first, last] at flushed

/-- Forgetting all the pages that a page table maps. -/
lemma flushSpan (hi : i < 1024) :
    Leads c W (flush (entryOf (i * 1024)).mappedByEntry
      ((entryOf (i * 1024)).mappedByEntry + PageSize.large.offsetMask)) () c
      (W.off (i * 1024) (i * 1024 + 1023)) := by
  have hn : i * 1024 < 0x100000 := by omega
  have first : ((entryOf (i * 1024)).mappedByEntry).pageNumber .small = i * 1024 := by
    rw [mappedByEntry_entryOf hn, Address.pageNumber, Address.toNat_ofNat, PageSize.bytes]
    omega
  have last : ((entryOf (i * 1024)).mappedByEntry + PageSize.large.offsetMask).pageNumber .small =
      i * 1024 + 1023 := by
    rw [mappedByEntry_entryOf hn, Address.pageNumber, Address.toNat_add, Address.toNat_ofNat,
      PageSize.offsetMask, PageSize.bytes, PageSize.bytes]
    omega
  have flushed := Leads.flush (c := c) (W := W) (entryOf (i * 1024)).mappedByEntry
    ((entryOf (i * 1024)).mappedByEntry + PageSize.large.offsetMask)
  rwa [first, last] at flushed

end Manager

end ConsoleMemory
