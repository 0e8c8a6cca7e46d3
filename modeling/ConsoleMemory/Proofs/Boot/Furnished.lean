import ConsoleMemory.Proofs.Boot.Database
import ConsoleMemory.Proofs.FreeList.Pools

/-!
# A furnished machine

The tables of the PFN database are there and map it, and no other table is. Once
the records of these pages are written, the invariant holds.
-/

namespace ConsoleMemory

open VirtualAddress
open Finset (Ico)

namespace Parameters

/-- Directory entry of the first table of the database. -/
def firstTable (p : Parameters) : Nat := (0x80000 + p.databasePage) / 1024

/-- First page past the general pool. -/
def poolBoundary (p : Parameters) : Nat := p.debuggerBoundary.getD (p.highestPage + 1)

/-- What the numbers of a layout must be for the manager to come up. -/
structure Boots (p : Parameters) : Prop extends p.Fit where
  installed : (p.highestPage + 1) * 4096 ≤ p.ramSize
  nonempty : 0 < p.databasePages
  /-- The database begins in the general pool. -/
  beyond : ∀ b, p.debuggerBoundary = some b → p.databasePage < b ∧ b ≤ p.highestPage + 1
  spans : (0x80000 + p.databasePage + p.databasePages - 1) / 1024 + 1 =
    p.firstTable + p.databaseTables
  /-- All tables of the database have the same number of entries in use. -/
  entries : ∀ k < p.databaseTables,
    min (0x80000 + p.databasePage + p.databasePages) ((p.firstTable + k + 1) * 1024) -
      max (0x80000 + p.databasePage) ((p.firstTable + k) * 1024) = p.databaseTableEntries
  room : p.databaseTables ≤ ((Finset.range (p.contiguousLimit + 1)).erase 0xF).card
  general : p.databaseTables + p.databasePages < p.databasePage

variable {p : Parameters}

lemma Boots.poolBoundary_bounds (h : p.Boots) :
    p.databasePage < p.poolBoundary ∧ p.poolBoundary ≤ p.highestPage + 1 := by
  have inside := h.inside
  have nonempty := h.nonempty
  unfold poolBoundary
  cases boundary : p.debuggerBoundary with
  | none =>
    rw [Option.getD_none]
    omega
  | some b => exact h.beyond b boundary

lemma Boots.pagesSpanned_databaseStart (h : p.Boots) :
    p.databaseStart.pagesSpanned .large (p.databasePages * 4096) = p.databaseTables := by
  have start := h.toFit.toNat_databaseStart
  have spans := h.spans
  have nonempty := h.nonempty
  rw [firstTable] at spans
  rw [pagesSpanned, Address.offset, start, PageSize.offsetMask, PageSize.bytes]
  omega

lemma Boots.entries_le (h : p.Boots) : p.databaseTableEntries ≤ 1024 := by
  have spans := h.spans
  have nonempty := h.nonempty
  rw [firstTable] at spans
  have first := h.entries 0 (by omega)
  omega

lemma Boots.databaseEnd_eq (h : p.Boots) :
    p.databaseEnd = .ok (p.databasePage + p.databasePages - 1) := by
  have inside := h.inside
  have window := h.window
  have nonempty := h.nonempty
  rw [databaseEnd, checkedAdd_of_lt (by omega)]
  exact checkedSub_of_le (by omega)

lemma Fit.directoryEntryAddress_databaseStart (h : p.Fit) :
    p.databaseStart.directoryEntryAddress = directoryEntryOf p.firstTable := by
  have start := h.toNat_databaseStart
  have number : p.databaseStart.pageNumber .large = p.firstTable := by
    rw [Address.pageNumber, start, PageSize.bytes, firstTable]
    omega
  rw [directoryEntryAddress_eq, number]

lemma Fit.entryAddress_databaseStart (h : p.Fit) :
    p.databaseStart.entryAddress = entryOf (0x80000 + p.databasePage) := by
  have start := h.toNat_databaseStart
  have number : p.databaseStart.pageNumber .small = 0x80000 + p.databasePage := by
    rw [Address.pageNumber, start, PageSize.bytes]
    omega
  rw [entryAddress_eq, number]

end Parameters

namespace Layout

theorem boots (l : Layout) : l.parameters.Boots := by
  have room {tables limit : Nat} (low : 0xF ≤ limit) (few : tables ≤ limit) :
      tables ≤ ((Finset.range (limit + 1)).erase 0xF).card := by
    rw [Finset.card_erase_of_mem (Finset.mem_range.mpr (by omega)), Finset.card_range]
    omega
  cases l with
  | retail =>
    exact ⟨⟨by decide, by decide, by decide, by decide, by decide, nofun⟩, by decide, by decide,
      nofun, by decide, by decide, room (by decide) (by decide), by decide⟩
  | debug =>
    refine ⟨⟨by decide, by decide, by decide, by decide, by decide, fun b eq => ?_⟩, by decide,
      by decide, fun b eq => ?_, by decide, by decide, room (by decide) (by decide), by decide⟩
    · cases eq
      decide
    · cases eq
      decide
  | arcade =>
    exact ⟨⟨by decide, by decide, by decide, by decide, by decide, nofun⟩, by decide, by decide,
      nofun, by decide, by decide, room (by decide) (by decide), by decide⟩

/-- A layout also comes up with a lower limit for page tables, if the tables of the database find
room below it. -/
theorem boots_lowered (l : Layout) {limit : Nat} (low : limit < l.parameters.databasePage)
    (room : l.parameters.databaseTables ≤ ((Finset.range (limit + 1)).erase 0xF).card) :
    Parameters.Boots { l.parameters with contiguousLimit := limit } := by
  obtain ⟨fit, installed, nonempty, beyond, spans, entries, _, general⟩ := l.boots
  exact ⟨⟨fit.records, fit.inside, fit.window, low, fit.directory, fit.boundary⟩, installed,
    nonempty, beyond, spans, entries, room, general⟩

end Layout

namespace Machine

variable {c c' : Machine} {S : Finset Nat}

/-- The tables of the database are the only ones, and they map the database and nothing else. -/
structure Furnished (c : Machine) (S : Finset Nat) : Prop extends c.Wired where
  table_iff : ∀ k, (∃ t, c.Table k t) ↔ c.parameters.firstTable ≤ k ∧
    k < c.parameters.firstTable + c.parameters.databaseTables
  shown : ∀ k t, c.Table k t → ∀ j < 1024, c.ShowsDatabase (k * 1024 + j) →
    c.pte t j = .databaseEntry (k * 1024 + j - 0x80000)
  blank : ∀ k t, c.Table k t → ∀ j < 1024, ¬ c.ShowsDatabase (k * 1024 + j) → c.pte t j = .zero
  free : c.freeList.Keeps S
  mem : ∀ p, p ∈ S ↔ p ≤ c.parameters.highestPage ∧ p ≠ 0xF ∧ (∀ k, ¬ c.Table k p) ∧
    (p < c.parameters.databasePage ∨ c.parameters.databasePage + c.parameters.databasePages ≤ p)
  pageCount : c.freeList.pageCount = c.parameters.highestPage + 1
  boundary : c.freeList.boundary = c.parameters.debuggerBoundary
  pools : c.freeList.Shifted S c.parameters.poolBoundary 0

/-- What the records must say of a furnished machine, except of the page of its directory. -/
structure Described (c : Machine) : Prop where
  database : ∀ q < c.parameters.databasePages,
    (c.record (c.parameters.databasePage + q)).busy = true ∧
      (c.record (c.parameters.databasePage + q)).pageType = .unknown
  table : ∀ k t, c.Table k t →
    c.record t = Manager.tableRecord c.parameters.databaseTableEntries
  idle : ∀ p ≤ c.parameters.highestPage, p ≠ 0xF → (∀ k, ¬ c.Table k p) →
    (p < c.parameters.databasePage ∨ c.parameters.databasePage + c.parameters.databasePages ≤ p) →
    c.record p = .zero

/-- What the records must say of a furnished machine. -/
structure Labelled (c : Machine) : Prop extends c.Described where
  directory : (c.record 0xF).busy = true ∧ (c.record 0xF).pageType = .systemPageTable

namespace Furnished

variable (h : c.Furnished S)
include h

lemma isZero_pte {j k t : Nat} (table : c.Table k t) (hj : j < 1024) :
    (!(c.pte t j).isZero) = true ↔ c.ShowsDatabase (k * 1024 + j) := by
  by_cases shows : c.ShowsDatabase (k * 1024 + j)
  · rw [h.shown k t table j hj shows, Entry.not_isZero_of_valid Entry.valid_databaseEntry]
    exact ⟨fun _ => shows, fun _ => rfl⟩
  · rw [h.blank k t table j hj shows]
    exact ⟨fun zero => absurd zero (by decide), fun shown => absurd shown shows⟩

lemma inUse_eq (boots : c.parameters.Boots) {k t : Nat} (table : c.Table k t) :
    c.inUse t = c.parameters.databaseTableEntries := by
  obtain ⟨low, high⟩ := (h.table_iff k).mp ⟨t, table⟩
  have entries := boots.entries (k - c.parameters.firstTable) (by omega)
  have inside := h.fit.inside
  have window := h.fit.window
  have places : (Finset.range 1024).filter (fun j => (!(c.pte t j).isZero) = true) =
      Ico (max (0x80000 + c.parameters.databasePage) (k * 1024) - k * 1024)
        (min (0x80000 + c.parameters.databasePage + c.parameters.databasePages)
          ((k + 1) * 1024) - k * 1024) := by
    ext j
    rw [Finset.mem_filter, Finset.mem_range, Finset.mem_Ico]
    constructor
    · rintro ⟨hj, used⟩
      obtain ⟨start, stop⟩ := (h.isZero_pte table hj).mp used
      omega
    · rintro ⟨start, stop⟩
      have hj : j < 1024 := by omega
      exact ⟨hj, (h.isZero_pte table hj).mpr ⟨by omega, by omega⟩⟩
  rw [inUse, places, Nat.card_Ico]
  rw [Nat.add_sub_cancel' low] at entries
  omega

/-- The pages that are not busy are those of `S`. -/
lemma busy_eq (labelled : c.Labelled) {p : Nat} (hp : p ≤ c.parameters.highestPage) :
    p ∈ S ∧ c.record p = .zero ∨ p ∉ S ∧ (c.record p).busy = true := by
  rw [h.mem p]
  by_cases directory : p = 0xF
  · exact Or.inr ⟨fun free => free.2.1 directory, directory ▸ labelled.directory.1⟩
  by_cases table : ∃ k, c.Table k p
  · obtain ⟨k, table⟩ := table
    refine Or.inr ⟨fun free => free.2.2.1 k table, ?_⟩
    rw [labelled.table k p table]
    exact Manager.busy_tableRecord _
  have none : ∀ k, ¬ c.Table k p := fun k named => table ⟨k, named⟩
  by_cases outside : p < c.parameters.databasePage ∨
      c.parameters.databasePage + c.parameters.databasePages ≤ p
  · exact Or.inl ⟨⟨hp, directory, none, outside⟩, labelled.idle p hp directory none outside⟩
  · have busy := (labelled.database (p - c.parameters.databasePage) (by omega)).1
    rw [Nat.add_sub_cancel' (by omega)] at busy
    exact Or.inr ⟨fun free => outside free.2.2.2, busy⟩

lemma idlePages_eq (labelled : c.Labelled) : c.idlePages = S := by
  ext p
  rw [mem_idlePages]
  constructor
  · rintro ⟨hp, idle⟩
    rcases h.busy_eq labelled hp with ⟨free, _⟩ | ⟨_, busy⟩
    · exact free
    · rw [busy] at idle
      cases idle
  · intro free
    have hp := ((h.mem p).mp free).1
    rcases h.busy_eq labelled hp with ⟨_, zero⟩ | ⟨taken, _⟩
    · exact ⟨hp, zero ▸ PfnRecord.busy_zero⟩
    · exact absurd free taken

/-- With the right records, the invariant holds. -/
theorem kept (boots : c.parameters.Boots) (counted : c.Counted) (labelled : c.Labelled) :
    c.Kept := by
  refine ⟨⟨h.toWired, counted, h.pageCount, h.boundary, fun p hp idle => ?_, labelled.directory,
    labelled.database, fun k t table => ?_, fun k t table => ?_, fun p hp ne busy => ?_⟩,
    (h.idlePages_eq labelled).symm ▸ h.free⟩
  · rcases h.busy_eq labelled hp with ⟨_, zero⟩ | ⟨_, busy⟩
    · exact zero
    · rw [busy] at idle
      cases idle
  · rw [labelled.table k t table, PfnRecord.isBusyPageTable, Manager.busy_tableRecord,
      Manager.pageType_tableRecord]
    rfl
  · have le := boots.entries_le
    rw [labelled.table k t table, h.inUse_eq boots table]
    exact PfnRecord.entriesUsed_described (by omega)
  · by_contra none
    have none : ∀ k, ¬ c.Table k p := fun k table => none ⟨k, table⟩
    by_cases outside : p < c.parameters.databasePage ∨
        c.parameters.databasePage + c.parameters.databasePages ≤ p
    · rw [labelled.idle p hp ne none outside, PfnRecord.isBusyPageTable_zero] at busy
      cases busy
    · have type := (labelled.database (p - c.parameters.databasePage) (by omega)).2
      rw [Nat.add_sub_cancel' (by omega)] at type
      have apart : PageType.unknown.isPageTable = false := rfl
      rw [PfnRecord.isBusyPageTable, type, apart, Bool.and_false] at busy
      cases busy

/-- All that is mapped through tables are the pages of the database. -/
theorem targeted (labelled : c.Labelled) : c.Targeted := by
  intro k t table j hj valid _
  have inside := h.fit.inside
  have window := h.fit.window
  by_cases shows : c.ShowsDatabase (k * 1024 + j)
  · have start := shows.1
    have stop := shows.2
    have frame : (c.pte t j).frame = k * 1024 + j - 0x80000 := by
      rw [h.shown k t table j hj shows, Entry.frame_databaseEntry (by omega)]
    obtain ⟨busy, type⟩ :=
      labelled.database (k * 1024 + j - 0x80000 - c.parameters.databasePage) (by omega)
    rw [Nat.add_sub_cancel' (by omega), ← frame] at busy type
    rw [type]
    exact ⟨busy, rfl⟩
  · rw [h.blank k t table j hj shows, Entry.valid_zero] at valid
    cases valid

end Furnished

lemma SameTables.furnished (same : c.SameTables c') (h : c.Furnished S) : c'.Furnished S := by
  have mapped := h.toMapped
  have table {k t : Nat} : c'.Table k t ↔ c.Table k t := same.table_iff mapped
  refine ⟨same.wired h.toWired, ?_, ?_, ?_, ?_, ?_, ?_, ?_, ?_⟩
  · simp only [table, same.parameters]
    exact h.table_iff
  · intro k t named j hj
    rw [ShowsDatabase, same.parameters, same.pte mapped (table.mp named) hj]
    exact h.shown k t (table.mp named) j hj
  · intro k t named j hj
    rw [ShowsDatabase, same.parameters, same.pte mapped (table.mp named) hj]
    exact h.blank k t (table.mp named) j hj
  · rw [same.freeList]
    exact h.free
  · simp only [table, same.parameters]
    exact h.mem
  · rw [same.freeList, same.parameters]
    exact h.pageCount
  · rw [same.freeList, same.parameters]
    exact h.boundary
  · rw [same.freeList, same.parameters]
    exact h.pools

/-- With no record written and no page counted, the counts are right. -/
lemma Counted.of_blank (usage : c.usage = .zero)
    (blank : ∀ p ≤ c.parameters.highestPage, c.record p = .zero) : c.Counted := by
  intro s
  have none : c.busyPages s = ∅ := by
    refine Finset.eq_empty_of_forall_notMem fun p mem => ?_
    obtain ⟨hp, busy, _⟩ := mem_busyPages.mp mem
    rw [blank p hp, PfnRecord.busy_zero] at busy
    cases busy
  rw [usage, none, Usage.count_zero, Finset.card_empty]

section
variable (h : Laying c c.parameters.firstTable c.parameters.databaseTables S)
  (boots : c.parameters.Boots)
include h boots

/-- Every page of the database has its entry in one of the tables. -/
lemma Laying.exists_table {m : Nat} (start : 0x80000 + c.parameters.databasePage ≤ m)
    (stop : m < 0x80000 + c.parameters.databasePage + c.parameters.databasePages) :
    ∃ t, c.Table (m / 1024) t := by
  have spans := boots.spans
  have first : c.parameters.firstTable = (0x80000 + c.parameters.databasePage) / 1024 := rfl
  exact (h.table_iff (m / 1024)).mpr ⟨by omega, by omega⟩

/-- What is free past the general pool are the pages after the database. -/
lemma Laying.above_free : FreeList.above (S \ Ico c.parameters.databasePage
      (c.parameters.databasePage + c.parameters.databasePages)) c.parameters.poolBoundary +
    (c.parameters.databasePage + c.parameters.databasePages - c.parameters.poolBoundary) =
      c.parameters.highestPage + 1 - c.parameters.poolBoundary := by
  have directory := h.fit.directory
  have inside := h.fit.inside
  have bounds := boots.poolBoundary_bounds
  have rest : (S \ Ico c.parameters.databasePage (c.parameters.databasePage +
      c.parameters.databasePages)).filter (c.parameters.poolBoundary ≤ ·) =
      Ico (max c.parameters.poolBoundary (c.parameters.databasePage + c.parameters.databasePages))
        (c.parameters.highestPage + 1) := by
    ext p
    rw [Finset.mem_filter, Finset.mem_sdiff, Finset.mem_Ico, Finset.mem_Ico, h.mem p]
    constructor
    · rintro ⟨⟨⟨hp, _⟩, outside⟩, high⟩
      omega
    · rintro ⟨low, high⟩
      refine ⟨⟨⟨by omega, by omega, fun k table => ?_⟩, by omega⟩, by omega⟩
      have := h.toMapped.lt_database table
      omega
  rw [FreeList.above, rest, Nat.card_Ico]
  omega

/-- With the database mapped and cleared, the machine is furnished. -/
lemma Laying.furnished (mapped : c'.Mapped) (parameters : c'.parameters = c.parameters)
    (pde : ∀ k < 1024, c'.pde k = c.pde k)
    (pte : ∀ k t, c.Table k t → ∀ j < 1024, c'.pte t j =
      if 0x80000 + c.parameters.databasePage ≤ k * 1024 + j ∧
          k * 1024 + j < 0x80000 + c.parameters.databasePage + c.parameters.databasePages then
        .databaseEntry (c.parameters.databasePage +
          (k * 1024 + j - (0x80000 + c.parameters.databasePage)))
      else c.pte t j)
    (free : c'.freeList.Keeps (S \ Ico c.parameters.databasePage
      (c.parameters.databasePage + c.parameters.databasePages)))
    (pageCount : c'.freeList.pageCount = c.parameters.highestPage + 1)
    (boundary : c'.freeList.boundary = c.parameters.debuggerBoundary)
    (debugger : c'.freeList.debugger + (c.parameters.databasePage + c.parameters.databasePages -
      c.parameters.poolBoundary) = c.parameters.highestPage + 1 - c.parameters.poolBoundary) :
    (c'.wipe c.parameters.databasePage c.parameters.databasePages).Furnished
      (S \ Ico c.parameters.databasePage
        (c.parameters.databasePage + c.parameters.databasePages)) := by
  have directory := h.fit.directory
  have inside := h.fit.inside
  have window := h.fit.window
  have first : c.parameters.firstTable = (0x80000 + c.parameters.databasePage) / 1024 := rfl
  have entry {q j : Nat} (hq : q < c'.ram.pages) (low : q < c.parameters.databasePage)
      (hj : j < 1024) :
      (c'.wipe c.parameters.databasePage c.parameters.databasePages).ram.entry q j =
        c'.ram.entry q j := by
    rw [entry_wipe hq hj, if_neg (by omega)]
  have pde' (k : Nat) (hk : k < 1024) :
      (c'.wipe c.parameters.databasePage c.parameters.databasePages).pde k = c.pde k :=
    (entry mapped.large directory hk).trans (pde k hk)
  have table {k t : Nat} :
      (c'.wipe c.parameters.databasePage c.parameters.databasePages).Table k t ↔ c.Table k t :=
    ⟨fun named => named.congr fun k hk => (pde' k hk).symm, fun named => named.congr pde'⟩
  have pte' {k t j : Nat} (named : c.Table k t) (hj : j < 1024) :
      (c'.wipe c.parameters.databasePage c.parameters.databasePages).pte t j = c'.pte t j :=
    entry (mapped.lt_pages (named.congr pde)) (h.toMapped.lt_database named) hj
  have mapped' : (c'.wipe c.parameters.databasePage c.parameters.databasePages).Mapped :=
    mapped.congr rfl rfl fun k hk => (pde' k hk).trans (pde k hk).symm
  refine ⟨⟨mapped', fun q hq => ?_⟩, fun k => ?_, fun k t named j hj shows => ?_,
    fun k t named j hj hidden => ?_, free, fun p => ?_, ?_, ?_, ?_⟩
  · rw [parameters_wipe, parameters] at hq ⊢
    obtain ⟨t, named⟩ := h.exists_table boots
      (m := 0x80000 + c.parameters.databasePage + q) (by omega) (by omega)
    have hj : (0x80000 + c.parameters.databasePage + q) % 1024 < 1024 := Nat.mod_lt _ (by decide)
    refine ⟨t, table.mpr named, ?_⟩
    rw [pte' named hj, pte _ t named _ hj, Nat.div_add_mod', if_pos (by omega),
      Nat.add_sub_cancel_left]
  · simp only [table, parameters_wipe, parameters]
    exact h.table_iff k
  · rw [ShowsDatabase, parameters_wipe, parameters] at shows
    have named := table.mp named
    have frame : c.parameters.databasePage +
        (k * 1024 + j - (0x80000 + c.parameters.databasePage)) = k * 1024 + j - 0x80000 := by omega
    rw [pte' named hj, pte k t named j hj, if_pos shows, frame]
  · rw [ShowsDatabase, parameters_wipe, parameters] at hidden
    have named := table.mp named
    rw [pte' named hj, pte k t named j hj, if_neg hidden]
    exact h.blank k t named j hj
  · simp only [table, parameters_wipe, parameters]
    rw [Finset.mem_sdiff, Finset.mem_Ico, h.mem p]
    constructor
    · rintro ⟨⟨hp, ne, none⟩, outside⟩
      exact ⟨hp, ne, none, by omega⟩
    · rintro ⟨hp, ne, none, outside⟩
      exact ⟨⟨hp, ne, none⟩, by omega⟩
  · rw [parameters_wipe, parameters]
    exact pageCount
  · rw [parameters_wipe, parameters]
    exact boundary
  · rw [parameters_wipe, parameters]
    have above := h.above_free boots
    exact free.shifted (by omega)

end

end Machine

end ConsoleMemory
