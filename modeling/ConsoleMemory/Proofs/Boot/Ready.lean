import ConsoleMemory.Proofs.Boot.Accounts
import ConsoleMemory.Proofs.Boot.Directory

/-!
# Ready

From any contents of memory the manager comes up with the invariant in place. The
numbers of a layout need only leave room for the tables of the database.
-/

namespace ConsoleMemory

open VirtualAddress
open Finset (Ico)

namespace Manager

open Machine

variable {c c' : Machine} {W : PageMap} {S : Finset Nat}

/-- The part of the database that lies in the debugger's pool is charged to the general one. -/
lemma chargeDatabase_leads (boots : c.parameters.Boots) (free : c.freeList.Keeps S)
    (debugger : c.freeList.debugger = c.parameters.highestPage + 1 - c.parameters.poolBoundary) :
    ∃ l, Leads c W (chargeDatabase (c.parameters.databasePage + c.parameters.databasePages - 1)) ()
        (c.setFree l) W ∧ l.Keeps S ∧ l.pageCount = c.freeList.pageCount ∧
      l.boundary = c.freeList.boundary ∧
      l.debugger + (c.parameters.databasePage + c.parameters.databasePages -
        c.parameters.poolBoundary) = c.freeList.debugger := by
  have inside := boots.inside
  have window := boots.window
  have nonempty := boots.nonempty
  cases boundary : c.parameters.debuggerBoundary with
  | none =>
    rw [Parameters.poolBoundary, boundary, Option.getD_none]
    refine ⟨c.freeList, Leads.current fun t => ?_, free, rfl, rfl, by omega⟩
    have none : (c.manager t).parameters.debuggerBoundary = none := boundary
    rw [none]
    exact .pure
  | some b =>
    have some (t : Tlb) : (c.manager t).parameters.debuggerBoundary = some b := boundary
    rw [Parameters.poolBoundary, boundary, Option.getD_some] at debugger ⊢
    by_cases beyond : b ≤ c.parameters.databasePage + c.parameters.databasePages - 1
    · obtain ⟨l, moved, keeps, pageCount, boundary', spent⟩ := free.movePages
        (c.parameters.databasePage + c.parameters.databasePages - 1 - b + 1) (by omega)
      refine ⟨l, Leads.current fun t => ?_, keeps, pageCount, boundary', by omega⟩
      rw [some]
      dsimp only
      rw [if_pos beyond]
      refine (Leads.lift (checkedAdd_of_lt (by omega))).bind (Leads.change fun t => ?_)
      change (do
        let freeList ← c.freeList.movePages _
        _) = _
      rw [moved]
      rfl
    · refine ⟨c.freeList, Leads.current fun t => ?_, free, rfl, rfl, by omega⟩
      rw [some]
      dsimp only
      rw [if_neg beyond]
      exact .pure

/-- The template of the database's entries, which is made from its first page. -/
def databaseTemplate (p : Nat) : Entry :=
  (Entry.framed ⟨.ofNat Entry.kernelPageBits⟩ p).withFlag .persist true

lemma framed_databaseTemplate (p q : Nat) :
    (databaseTemplate p).framed q = .databaseEntry q :=
  congrArg Entry.mk (BitField.write_put_write _ p q true)

/-- The pages taken for the database are mapped and cleared. -/
theorem furnish_yields (h : Laying c c.parameters.firstTable c.parameters.databaseTables S)
    (boots : c.parameters.Boots) {l : FreeList}
    (keeps : l.Keeps (S \ Ico c.parameters.databasePage
      (c.parameters.databasePage + c.parameters.databasePages)))
    (pageCount : l.pageCount = c.parameters.highestPage + 1)
    (boundary : l.boundary = c.parameters.debuggerBoundary)
    (debugger : l.debugger = c.parameters.highestPage + 1 - c.parameters.poolBoundary) :
    ∃ d, d.parameters = c.parameters ∧ d.ram.pages = c.ram.pages ∧ d.usage = c.usage ∧
      d.Furnished (S \ Ico c.parameters.databasePage
        (c.parameters.databasePage + c.parameters.databasePages)) ∧
      (∀ p ≤ c.parameters.highestPage, d.record p = .zero) ∧
      ∀ (f : Unit → Step Unit) c', Yields d (f ()) () c' → Yields (c.setFree l) (do
        mapDatabaseFrom (databaseTemplate c.parameters.databasePage) c.parameters.databasePages
          (entryOf (0x80000 + c.parameters.databasePage)) c.parameters.databasePage
        let size ← checkedSub (c.parameters.databasePages * 4096) 1
        flush c.parameters.databaseStart (c.parameters.databaseStart + size)
        chargeDatabase (c.parameters.databasePage + c.parameters.databasePages - 1)
        changeMemory fun memory => memory.clearRam (Pfn.base c.parameters.databasePage)
          (c.parameters.databasePages * 4096)
        f ()) () c' := by
  have inside := boots.inside
  have window := boots.window
  have nonempty := boots.nonempty
  have mapped : (c.setFree l).Mapped := h.toMapped.congr rfl rfl fun _ _ => rfl
  obtain ⟨r, ran, mapped₁, pages, pde, pte⟩ :=
    mapDatabaseFrom_yields mapped (databaseTemplate c.parameters.databasePage)
      c.parameters.databasePages (0x80000 + c.parameters.databasePage) c.parameters.databasePage
      (fun m low high => by
        obtain ⟨t, table⟩ := h.exists_table boots low high
        have blank : (c.setFree l).pte t (m % 1024) = .zero :=
          h.blank _ t table _ (Nat.mod_lt m (by decide))
        refine ⟨t, table.congr fun _ _ => rfl, ?_⟩
        rw [blank]
        decide +kernel)
      (by omega)
  obtain ⟨l', charged, keeps', pageCount', boundary', debugger'⟩ :=
    chargeDatabase_leads (c := (c.setFree l).withRam r) (W := r.walk) boots keeps debugger
  have mapped₂ : (((c.setFree l).withRam r).setFree l').Mapped :=
    mapped₁.congr rfl rfl fun _ _ => rfl
  have fits : c.parameters.databasePage + c.parameters.databasePages ≤ r.pages := by
    have installed := h.installed
    have same : r.pages = c.ram.pages := pages
    omega
  have few := r.pages_le
  have place : (Pfn.base c.parameters.databasePage).toNat = c.parameters.databasePage * 4096 := by
    rw [Pfn.toNat_base]
    omega
  refine ⟨(((c.setFree l).withRam r).setFree l').wipe c.parameters.databasePage
    c.parameters.databasePages, rfl, pages, rfl, ?_, fun p hp => ?_, fun f c' rest => ?_⟩
  · refine h.furnished boots mapped₂ rfl pde (fun k t table j hj => ?_) keeps'
      (pageCount'.trans pageCount) (boundary'.trans boundary) (debugger'.trans debugger)
    have entry := pte k t (table.congr fun _ _ => rfl) j hj
    rw [framed_databaseTemplate] at entry
    exact entry
  · have place : p / 1024 < c.parameters.databasePages := by
      have := boots.records
      omega
    have word : (r.wipe c.parameters.databasePage c.parameters.databasePages).word
        (c.parameters.databasePage + p / 1024) (p % 1024) = 0 := by
      rw [Ram.word_wipe (by omega) (Nat.mod_lt p (by decide)), if_pos (by omega)]
    exact congrArg PfnRecord.mk word
  · have cleared : Yields (((c.setFree l).withRam r).setFree l')
        (changeMemory fun memory => memory.clearRam (Pfn.base c.parameters.databasePage)
          (c.parameters.databasePages * 4096)) ()
        ((((c.setFree l).withRam r).setFree l').wipe c.parameters.databasePage
          c.parameters.databasePages) := by
      have walk : ((((c.setFree l).withRam r).setFree l').wipe c.parameters.databasePage
          c.parameters.databasePages).ram.walk = r.walk :=
        mapped₂.walk_wipe fun q low _ => mapped₂.not_wires_database low
      rw [Yields, walk]
      exact Leads.clearRam place rfl fits
    have forgotten (size : Nat) : Yields ((c.setFree l).withRam r)
        (flush c.parameters.databaseStart (c.parameters.databaseStart + size)) ()
        ((c.setFree l).withRam r) :=
      (Leads.flush _ _).mono (PageMap.off_le fun _ _ _ mapped => mapped)
    exact ran.bind ((Leads.lift (checkedSub_of_le (by omega))).bind ((forgotten _).bind
      (Leads.bind (a := ()) charged (cleared.bind rest))))

/-- With all records blank, the pages of the tables and of the database get theirs. -/
lemma describe_yields (h : c.Furnished S) (boots : c.parameters.Boots) (counted : c.Counted)
    (blank : ∀ p ≤ c.parameters.highestPage, c.record p = .zero) :
    ∃ c₁ c', Yields c (markDatabaseTables c.parameters.databaseTableEntries
        c.parameters.databaseTables (directoryEntryOf c.parameters.firstTable)) () c₁ ∧
      Yields c₁ (markBusy c.parameters.databasePage
        (c.parameters.databasePage + c.parameters.databasePages - 1)
        (entryOf (0x80000 + c.parameters.databasePage)) .unknown) () c' ∧
      c.SameTables c' ∧ c'.Counted ∧ c'.Described ∧ c'.record 0xF = .zero := by
  have inside := boots.inside
  have nonempty := boots.nonempty
  have window := boots.window
  have directory := boots.directory
  have few := boots.entries_le
  have spans := boots.spans
  have first : c.parameters.firstTable = (0x80000 + c.parameters.databasePage) / 1024 := rfl
  obtain ⟨c₁, marked, same, counted₁, marks, others⟩ :=
    markDatabaseTables_yields h.toWired counted c.parameters.databaseTableEntries
      c.parameters.databaseTables c.parameters.firstTable (by omega)
      (fun k low high => (h.table_iff k).mpr ⟨low, high⟩) fun k t _ table => by
        rw [blank t (h.toWired.table_le table), PfnRecord.busy_zero]
        exact Bool.false_ne_true
  have apart {p k : Nat} (low : c.parameters.databasePage ≤ p) : ¬ c.Table k p := fun table => by
    have := h.toMapped.lt_database table
    omega
  obtain ⟨c', busied, same', counted', records⟩ :=
    markBusyFrom_yields (t := .unknown) (same.wired h.toWired) counted₁
      c.parameters.databasePage c.parameters.databasePages
      (entryOf (0x80000 + c.parameters.databasePage)) (same.parameters ▸ inside)
      fun q low high => by
        rw [others q (by omega) fun k _ _ => apart low, blank q (by omega), PfnRecord.busy_zero]
        exact Bool.false_ne_true
  rw [same.parameters] at records
  have parameters : c'.parameters = c.parameters := same'.parameters.trans same.parameters
  have named {k t : Nat} : c'.Table k t ↔ c.Table k t := (same.trans same').table_iff h.toMapped
  have unmarked (p : Nat) (hp : p ≤ c.parameters.highestPage) (none : ∀ k, ¬ c.Table k p)
      (outside : p < c.parameters.databasePage ∨
        c.parameters.databasePage + c.parameters.databasePages ≤ p) : c'.record p = .zero := by
    rw [records p hp, if_neg (by omega), others p hp fun k _ _ => none k, blank p hp]
  refine ⟨c₁, c', marked, ?_, same.trans same', counted',
    ⟨fun q hq => ?_, fun k t table => ?_, fun p hp _ none outside => ?_⟩, ?_⟩
  · have length : c.parameters.databasePage + c.parameters.databasePages - 1 + 1 -
        c.parameters.databasePage = c.parameters.databasePages := by omega
    rw [markBusy, length]
    exact busied
  · rw [parameters] at hq ⊢
    rw [records _ (by omega), if_pos (by omega)]
    exact ⟨busy_recordFor _ _, pageType_recordFor _ _⟩
  · have table := named.mp table
    have low := h.toMapped.lt_database table
    obtain ⟨start, stop⟩ := (h.table_iff k).mp ⟨t, table⟩
    rw [parameters, records t (h.toWired.table_le table), if_neg (by omega),
      marks k t start stop table]
  · rw [parameters] at hp outside
    exact unmarked p hp (fun k table => none k (named.mpr table)) outside
  · exact unmarked 0xF (by omega) (fun k table => h.apart k 0xF table rfl) (Or.inl directory)

/-- The tables of the database are laid, and its pages can be taken. -/
lemma reserve_yields (h : Laying c c.parameters.firstTable 0 S) (boots : c.parameters.Boots)
    (pageCount : c.freeList.pageCount = c.parameters.highestPage + 1)
    (boundary : c.freeList.boundary = c.parameters.debuggerBoundary)
    (general : c.parameters.databaseTables + c.parameters.databasePages ≤ c.freeList.general)
    (room : c.parameters.databaseTables ≤ (low S c.parameters.contiguousLimit).card)
    (debugger : c.freeList.debugger = c.parameters.highestPage + 1 - c.parameters.poolBoundary) :
    ∃ d H l, Yields c (installDatabaseTables c.parameters.databaseTables
        (directoryEntryOf c.parameters.firstTable)) () d ∧ d.parameters = c.parameters ∧
      d.ram.pages = c.ram.pages ∧ d.usage = c.usage ∧
      Laying d c.parameters.firstTable c.parameters.databaseTables (S \ H) ∧
      Topmost (low S c.parameters.contiguousLimit) c.parameters.databaseTables H ∧
      d.freeList.remove
          { count := c.parameters.databasePages, first := c.parameters.databasePage
            last := c.parameters.databasePage + c.parameters.databasePages - 1 } =
        .ok (some c.parameters.databasePage, l) ∧
      l.Keeps ((S \ H) \ Ico c.parameters.databasePage
        (c.parameters.databasePage + c.parameters.databasePages)) ∧
      l.pageCount = c.parameters.highestPage + 1 ∧ l.boundary = c.parameters.debuggerBoundary ∧
      l.debugger = c.parameters.highestPage + 1 - c.parameters.poolBoundary := by
  have inside := boots.inside
  have window := boots.window
  have nonempty := boots.nonempty
  have spans := boots.spans
  have directory := boots.directory
  have own (b : Nat) (eq : c.freeList.boundary = some b) : c.parameters.databasePage < b :=
    (boots.beyond b (boundary ▸ eq)).1
  have small : c.parameters.firstTable < 0x220 := by
    rw [Parameters.firstTable]
    omega
  obtain ⟨d, H, laid, h', topmost, parameters, pages, usage, pageCount₁, boundary₁, general₁,
    debugger₁⟩ :=
    installDatabaseTables_yields h c.parameters.databaseTables (by omega) (by omega) room
      fun b eq => Nat.lt_trans boots.limit (own b eq)
  rw [Nat.add_zero] at laid
  rw [Nat.zero_add] at h'
  have run (p : Nat) (low : c.parameters.databasePage ≤ p)
      (high : p < c.parameters.databasePage + c.parameters.databasePages) : p ∈ S \ H := by
    refine (h'.mem p).mpr ⟨by rw [parameters]; omega, by omega, fun k table => ?_⟩
    have := h'.toMapped.lt_database table
    rw [parameters] at this
    omega
  obtain ⟨l, taken, keeps, pageCount₂, boundary₂, _, debugger₂⟩ :=
    h'.free.remove_run _ _ nonempty run (fun b eq => own b (boundary₁ ▸ eq)) (by omega)
  exact ⟨d, H, l, laid, parameters, pages, usage, h', topmost, taken, keeps,
    pageCount₂.trans (pageCount₁.trans pageCount), boundary₂.trans (boundary₁.trans boundary),
    debugger₂.trans (debugger₁.trans debugger)⟩

/-- The parts of the installation, with their numbers worked out. -/
lemma installDatabase_of_parts (boots : c.parameters.Boots) {d : Machine} {l : FreeList}
    (laid : Yields c (installDatabaseTables c.parameters.databaseTables
      (directoryEntryOf c.parameters.firstTable)) () d)
    (taken : d.freeList.remove
        { count := c.parameters.databasePages, first := c.parameters.databasePage
          last := c.parameters.databasePage + c.parameters.databasePages - 1 } =
      .ok (some c.parameters.databasePage, l))
    (rest : Yields (d.setFree l) (do
      mapDatabaseFrom (databaseTemplate c.parameters.databasePage) c.parameters.databasePages
        (entryOf (0x80000 + c.parameters.databasePage)) c.parameters.databasePage
      let size ← checkedSub (c.parameters.databasePages * 4096) 1
      flush c.parameters.databaseStart (c.parameters.databaseStart + size)
      chargeDatabase (c.parameters.databasePage + c.parameters.databasePages - 1)
      changeMemory fun memory => memory.clearRam (Pfn.base c.parameters.databasePage)
        (c.parameters.databasePages * 4096)
      markDatabaseTables c.parameters.databaseTableEntries c.parameters.databaseTables
        (directoryEntryOf c.parameters.firstTable)
      markBusy c.parameters.databasePage
        (c.parameters.databasePage + c.parameters.databasePages - 1)
        (entryOf (0x80000 + c.parameters.databasePage)) .unknown
      note (.databaseMapped c.parameters.databaseStart c.parameters.databasePage
        (c.parameters.databasePage + c.parameters.databasePages - 1)
        c.parameters.databaseTables)) () c') :
    Yields c installDatabase () c' := by
  have inside := boots.inside
  have window := boots.window
  have nonempty := boots.nonempty
  have few := boots.entries_le
  have bytes : checkedMul c.parameters.databasePages MemoryMap.pageBytes =
      .ok (c.parameters.databasePages * 4096) := if_pos (by
    rw [MemoryMap.pageBytes]
    omega)
  have length : c.parameters.databasePage + c.parameters.databasePages - 1 + 1 -
      c.parameters.databasePage = c.parameters.databasePages := by omega
  have entries : c.parameters.databaseTableEntries % 0x10000 =
      c.parameters.databaseTableEntries := by omega
  rw [installDatabase]
  refine Leads.current fun b => (Leads.lift boots.databaseAddress_eq).bind
    ((Leads.lift bytes).bind ?_)
  have parameters : (c.manager b).parameters = c.parameters := rfl
  rw [parameters, boots.pagesSpanned_databaseStart, boots.directoryEntryAddress_databaseStart,
    boots.entryAddress_databaseStart]
  refine (Leads.require (beq_self_eq_true _)).bind (laid.bind
    ((Leads.lift boots.databaseEnd_eq).bind ((take_leads taken).bind ?_)))
  rw [if_pos (beq_self_eq_true _)]
  refine (Leads.lift (Entry.kernelPage_eq (by omega))).bind ?_
  rw [length, entries]
  exact rest

/-- The database comes to describe the pages that there are tables for. -/
theorem installDatabase_yields (h : Laying c c.parameters.firstTable 0 S)
    (boots : c.parameters.Boots) (usage : c.usage = .zero)
    (pageCount : c.freeList.pageCount = c.parameters.highestPage + 1)
    (boundary : c.freeList.boundary = c.parameters.debuggerBoundary)
    (general : c.parameters.databaseTables + c.parameters.databasePages ≤ c.freeList.general)
    (room : c.parameters.databaseTables ≤ (low S c.parameters.contiguousLimit).card)
    (debugger : c.freeList.debugger = c.parameters.highestPage + 1 - c.parameters.poolBoundary) :
    ∃ c' H, Yields c installDatabase () c' ∧ c'.parameters = c.parameters ∧
      c'.ram.pages = c.ram.pages ∧
      Topmost (low S c.parameters.contiguousLimit) c.parameters.databaseTables H ∧
      c'.Furnished ((S \ H) \ Ico c.parameters.databasePage
        (c.parameters.databasePage + c.parameters.databasePages)) ∧
      c'.Counted ∧ c'.Described ∧ c'.record 0xF = .zero := by
  obtain ⟨d, H, l, laid, parameters, pages₁, usage₁, laying, topmost, taken, keeps, pageCount',
    boundary', debugger'⟩ := reserve_yields h boots pageCount boundary general room debugger
  rw [← parameters] at laying keeps pageCount' boundary' debugger'
  have boots₁ : d.parameters.Boots := parameters ▸ boots
  obtain ⟨e, parameters₁, pages₂, usage₂, furnished, blank, continued⟩ :=
    furnish_yields laying boots₁ keeps pageCount' boundary' debugger'
  have parameters₂ : e.parameters = c.parameters := parameters₁.trans parameters
  have boots₂ : e.parameters.Boots := parameters₂ ▸ boots
  rw [← parameters₁] at blank
  have counted : e.Counted := .of_blank (usage₂.trans (usage₁.trans usage)) blank
  obtain ⟨f, c', marked, busied, same, counted', described, vacant⟩ :=
    describe_yields furnished boots₂ counted blank
  rw [parameters₂] at marked busied
  rw [parameters] at continued furnished
  refine ⟨c', H, ?_, same.parameters.trans parameters₂,
    same.pages.trans (pages₂.trans pages₁), topmost, same.furnished furnished, counted',
    described, vacant⟩
  refine installDatabase_of_parts boots laid taken (continued (fun _ => do
    markDatabaseTables c.parameters.databaseTableEntries c.parameters.databaseTables
      (directoryEntryOf c.parameters.firstTable)
    markBusy c.parameters.databasePage
      (c.parameters.databasePage + c.parameters.databasePages - 1)
      (entryOf (0x80000 + c.parameters.databasePage)) .unknown
    note (.databaseMapped c.parameters.databaseStart c.parameters.databasePage
      (c.parameters.databasePage + c.parameters.databasePages - 1)
      c.parameters.databaseTables)) c' ?_)
  exact marked.bind (busied.bind (.note _))

/-- With nothing but a page directory, the laying of tables can begin. -/
lemma Directory.laying {r : Ram} (h : Directory c.ram r) (fit : c.parameters.Fit)
    (installed : c.parameters.highestPage < c.ram.pages) {l : FreeList}
    (keeps : l.Keeps (Finset.range (c.parameters.highestPage + 1) \ Ico 0xF 0x10)) (first : Nat) :
    Laying ((c.setFree l).withRam r) first 0
      (Finset.range (c.parameters.highestPage + 1) \ Ico 0xF 0x10) := by
  have none (k t : Nat) : ¬ ((c.setFree l).withRam r).Table k t := by
    intro table
    have lt := table.lt
    have names : (r.entry 0xF k).namesTable = true := table.names
    by_cases window : 0x3C0 ≤ k ∧ k < 0x3FF
    · exact (Entry.namesTable_iff.mp names).2 (h.largePages k window.1 window.2).2.1
    · rw [h.vacant k lt table.ne (by omega), Entry.namesTable_zero] at names
      cases names
  have installed' : c.parameters.highestPage < r.pages := h.pages ▸ installed
  refine ⟨⟨fit, installed', h.selfMap, fun k t table => absurd table (none k t),
    fun k t table => absurd table (none k t), fun k _ t table => absurd table (none k t),
    h.largePages, fun k hk own outside => Or.inr (h.vacant k hk own outside)⟩, fun k => ?_,
    fun k t table => absurd table (none k t), fun k _ below => ?_, keeps, fun p => ?_⟩
  · exact ⟨fun ⟨t, table⟩ => absurd table (none k t), fun inside => by omega⟩
  · have zero : ((c.setFree l).withRam r).pde k = .zero :=
      h.vacant k (by omega) (by omega) (by omega)
    rw [zero]
    exact Entry.valid_zero
  · rw [Finset.mem_sdiff, Finset.mem_range, Finset.mem_Ico]
    constructor
    · rintro ⟨inside, other⟩
      exact ⟨Nat.le_of_lt_succ inside, by omega, fun k => none k p⟩
    · rintro ⟨inside, other, _⟩
      exact ⟨Nat.lt_succ_of_le inside, by omega⟩

/-- The last page to get its record is that of the directory. -/
lemma label_yields (h : c.Furnished S) (counted : c.Counted) (described : c.Described)
    (vacant : c.record 0xF = .zero) (entry : VirtualAddress) :
    ∃ c', Yields c (markBusy 0xF 0xF entry .systemPageTable) () c' ∧ c.SameTables c' ∧
      c'.Counted ∧ c'.Labelled := by
  have directory := h.fit.directory
  have inside := h.fit.inside
  obtain ⟨c', ran, same, counted', records⟩ :=
    markBusyPage_yields (t := .systemPageTable) h.toWired counted entry (p := 0xF) (by omega)
      (vacant ▸ PfnRecord.busy_zero)
  have elsewhere (p : Nat) (hp : p ≤ c.parameters.highestPage) (ne : p ≠ 0xF) :
      c'.record p = c.record p := by
    rw [records p hp, if_neg ne]
  have named {k t : Nat} : c'.Table k t ↔ c.Table k t := same.table_iff h.toMapped
  refine ⟨c', ran, same, counted', ⟨fun q hq => ?_, fun k t table => ?_,
    fun p hp ne none outside => ?_⟩, ?_⟩
  · rw [same.parameters] at hq ⊢
    rw [elsewhere _ (by omega) (by omega)]
    exact described.database q hq
  · have table := named.mp table
    rw [same.parameters, elsewhere t (h.toWired.table_le table) (h.apart k t table)]
    exact described.table k t table
  · rw [same.parameters] at hp outside
    rw [elsewhere p hp ne]
    exact described.idle p hp ne (fun k table => none k (named.mpr table)) outside
  · rw [records 0xF (by omega), if_pos rfl]
    exact ⟨busy_recordFor _ _, pageType_recordFor _ _⟩

/-- With all pages free, the pools have what the database takes. -/
lemma pools_of_full {l : FreeList} (boots : c.parameters.Boots)
    (full : FreeList.full c.parameters.highestPage c.parameters.debuggerBoundary = .ok l) :
    c.parameters.databaseTables + c.parameters.databasePages + 1 ≤ l.general ∧
      l.debugger = c.parameters.highestPage + 1 - c.parameters.poolBoundary := by
  have window := boots.window
  have inside := boots.inside
  have spent := boots.general
  have bounds := boots.poolBoundary_bounds
  rw [FreeList.full_eq (by omega)] at full
  rw [← Except.ok.inj full]
  change _ ≤ min (c.parameters.highestPage + 1) c.parameters.poolBoundary ∧
    c.parameters.highestPage + 1 - min (c.parameters.highestPage + 1) c.parameters.poolBoundary = _
  omega

/-- With all pages free but that of the directory, all pages up to the limit are there for tables.
-/
lemma low_full (boots : c.parameters.Boots) :
    low (Finset.range (c.parameters.highestPage + 1) \ Ico 0xF 0x10)
        c.parameters.contiguousLimit =
      (Finset.range (c.parameters.contiguousLimit + 1)).erase 0xF := by
  have limit := boots.limit
  have inside := boots.inside
  ext p
  simp only [low, Finset.mem_filter, Finset.mem_sdiff, Finset.mem_range, Finset.mem_Ico,
    Finset.mem_erase]
  omega

/-- From any contents of memory, with all pages free and nothing remembered, the manager comes up
with the invariant in place. -/
theorem boot_leads (boots : c.parameters.Boots) (size : c.parameters.ramSize ≤ c.ram.size)
    (full : FreeList.full c.parameters.highestPage c.parameters.debuggerBoundary = .ok c.freeList)
    (usage : c.usage = .zero) :
    ∃ c', Leads c (fun _ => none) boot () c' c'.ram.walk ∧ c'.Kept ∧ c'.Targeted ∧
      c'.parameters = c.parameters ∧ c'.ram.size = c.ram.size ∧
      ∃ H, c'.CameUp H ∧ c'.Furnished (c'.parameters.spare H) := by
  have window := boots.window
  have inside := boots.inside
  have directory := boots.directory
  have installed : c.parameters.highestPage < c.ram.pages := by
    have := boots.installed
    have := c.ram.size_eq
    omega
  obtain ⟨keeps, pageCount, boundary⟩ := FreeList.IsNew.keeps (Or.inr ⟨full, rfl⟩) (by omega)
  obtain ⟨general, debugger⟩ := pools_of_full boots full
  obtain ⟨l, taken, keeps₁, pageCount₁, boundary₁, general₁, debugger₁⟩ :=
    keeps.remove_run 0xF 1 Nat.one_pos
      (fun p low high => Finset.mem_range.mpr (by omega))
      (fun b eq => by
        have := (boots.beyond b (boundary ▸ eq)).1
        omega) (by omega)
  have enough : c.parameters.databaseTables + c.parameters.databasePages ≤ l.general := by omega
  have large : 0xF < c.ram.pages := by omega
  obtain ⟨r, written, installs⟩ := installDirectory_leads (c := c.setFree l) (W := fun _ => none)
    large
  have laying := Directory.laying (c := c) installs boots.toFit installed keeps₁
    c.parameters.firstTable
  have lowest := low_full boots
  obtain ⟨d, H, database, parameters, pages, topmost, furnished, counted, described, vacant⟩ :=
    installDatabase_yields laying boots usage (pageCount₁.trans pageCount)
      (boundary₁.trans boundary) enough (lowest ▸ boots.room) (debugger₁.trans debugger)
  obtain ⟨c', marked, same, counted', labelled⟩ := label_yields furnished counted described vacant
    (VirtualAddress.entryAddress (.ofNat MemoryMap.pageDirectoryBase))
  have parameters' : c'.parameters = c.parameters := same.parameters.trans parameters
  have size' : c'.ram.size = c.ram.size := by
    have pages' : c'.ram.pages = c.ram.pages := (same.pages.trans pages).trans installs.pages
    rw [c'.ram.size_eq, c.ram.size_eq, pages']
  have boots' : c'.parameters.Boots := parameters' ▸ boots
  have furnished' : c'.Furnished (c'.parameters.spare H) := parameters' ▸ same.furnished furnished
  have tables : Topmost ((Finset.range (c'.parameters.contiguousLimit + 1)).erase 0xF)
      c'.parameters.databaseTables H := by
    rw [parameters']
    exact lowest ▸ topmost
  refine ⟨c', ?_, furnished'.kept boots' counted' labelled, furnished'.targeted labelled,
    parameters', size', H, furnished'.cameUp labelled boots' counted' tables, furnished'⟩
  have found : (some 0xF == some MemoryMap.pageDirectoryPage) = true := by decide
  have rested : Leads (c.setFree l) (fun _ => none) installDirectory () ((c.setFree l).withRam r)
      r.walk := written.mono nofun
  unfold boot
  refine Leads.current fun b => (Leads.note _).bind ((take_leads taken).bind ?_)
  rw [if_pos found]
  refine rested.bind (database.bind (Leads.bind (a := ()) marked ?_))
  exact Leads.current fun b => .note _

end Manager

end ConsoleMemory
