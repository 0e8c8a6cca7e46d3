import ConsoleMemory.Paging.SelfMap
import ConsoleMemory.Proofs.Guest.Walk
import ConsoleMemory.Proofs.Manager.Fields

/-!
# The tables as the program sees them

The directory's entry for itself makes the directory the page table of a window
of its own. A walk of the window so reads the directory twice, and comes to the
very entries that the walks of all other addresses read.
-/

namespace ConsoleMemory

namespace VirtualAddress

variable {n : Nat}

/-- Where the entry of virtual page `n` appears. -/
def entryOf (n : Nat) : VirtualAddress := .ofNat (0xC0000000 + 4 * n)

/-- Where entry `i` of the page directory appears. -/
def directoryEntryOf (i : Nat) : VirtualAddress := entryOf (0xC0000 + i)

lemma toNat_entryOf (h : n < 0x100000) : (entryOf n).toNat = 0xC0000000 + 4 * n := by
  rw [entryOf, Address.toNat_ofNat]
  omega

lemma pageNumber_entryOf (h : n < 0x100000) :
    (entryOf n).pageNumber .small = 0xC0000 + n / 1024 := by
  rw [Address.pageNumber, toNat_entryOf h, PageSize.bytes]
  omega

lemma offset_entryOf (h : n < 0x100000) : (entryOf n).offset .small = n % 1024 * 4 := by
  rw [Address.offset, toNat_entryOf h, PageSize.bytes]
  omega

lemma entryOf_add (n k : Nat) : entryOf n + k * 4 = entryOf (n + k) := by
  apply Address.ext
  rw [Address.toNat_add, entryOf, entryOf, Address.toNat_ofNat, Address.toNat_ofNat]
  omega

lemma nextEntry_entryOf (n : Nat) : (entryOf n).nextEntry = entryOf (n + 1) := entryOf_add n 1

lemma nextEntry_directoryEntryOf (i : Nat) :
    (directoryEntryOf i).nextEntry = directoryEntryOf (i + 1) := nextEntry_entryOf _

lemma entryAddress_eq (va : VirtualAddress) : va.entryAddress = entryOf (va.pageNumber .small) := by
  apply Address.ext
  have := va.toNat_lt
  rw [toNat_entryAddress, entryOf, Address.toNat_ofNat, MemoryMap.pageTablesBase,
    Address.pageNumber, PageSize.bytes]
  omega

lemma directoryEntryAddress_eq (va : VirtualAddress) :
    va.directoryEntryAddress = directoryEntryOf (va.pageNumber .large) := by
  apply Address.ext
  have := va.toNat_lt
  rw [toNat_directoryEntryAddress, directoryEntryOf, entryOf, Address.toNat_ofNat,
    MemoryMap.pageDirectoryBase, Address.pageNumber, PageSize.bytes]
  omega

lemma entryAddress_entryOf (h : n < 0x100000) :
    (entryOf n).entryAddress = directoryEntryOf (n / 1024) := by
  rw [entryAddress_eq, pageNumber_entryOf h, directoryEntryOf]

lemma mappedByEntry_entryOf (h : n < 0x100000) : (entryOf n).mappedByEntry = .ofNat (n * 4096) := by
  apply Address.ext
  simp only [mappedByEntry, Address.toNat_ofNat, Address.toNat_sub, toNat_entryOf h,
    MemoryMap.pageTablesBase]
  omega

/-- The page of entries of a table begins with the entry of the first page that the table maps. -/
lemma mappedByEntry_directoryEntryOf {i : Nat} (h : i < 1024) :
    (directoryEntryOf i).mappedByEntry = entryOf (i * 1024) := by
  apply Address.ext
  rw [directoryEntryOf, mappedByEntry_entryOf (by omega), entryOf, Address.toNat_ofNat,
    Address.toNat_ofNat]
  omega

lemma startsTable_entryOf (h : n < 0x100000) :
    (entryOf n).startsTable = decide (n % 1024 = 0) := by
  rw [startsTable, Address.isAligned, offset_entryOf h]
  by_cases zero : n % 1024 = 0
  · simp [zero]
  · have : ¬ n % 1024 * 4 = 0 := by omega
    rw [decide_eq_false zero]
    exact beq_eq_false_iff_ne.mpr this

end VirtualAddress

namespace Ram

open VirtualAddress

variable {r : Ram} {i n t : Nat} {a : PhysicalAddress} {e : Entry} {va : VirtualAddress}

/-! ### Frames and their bases -/

lemma resolve_base_add (e : Entry) {o : Nat} (inside : o < 4096) :
    r.resolve (Pfn.base e.frame + o) = (r.page? e.frame).map fun p => .ofNat (p * 4096 + o) := by
  have few := frame_lt e
  have place : (Pfn.base e.frame + o).toNat = e.frame * 4096 + o := by
    rw [Address.toNat_add, toNat_base_frame]
    omega
  have page : (e.frame * 4096 + o) / 4096 = e.frame := by omega
  have rest : (e.frame * 4096 + o) % 4096 = o := by omega
  rw [resolve_eq, place, page, rest]

/-- What a walk that reads the entry `e` comes to. -/
lemma outcome_entry (e : Entry) (va : VirtualAddress) :
    (if e.valid then Mapping.mapped e.frame else .absent).outcome r va =
      if e.valid then match r.resolve (Pfn.base e.frame + va.offset .small) with
        | some place => .ok place
        | none => .error (.outsideRam va (Pfn.base e.frame + va.offset .small))
      else .error (.notPresent va) := by
  cases e.valid with
  | false => rfl
  | true =>
    simp only [if_true, resolve_base_add e va.offset_lt, Mapping.outcome]
    cases r.page? e.frame <;> rfl

/-! ### Through the window -/

/-- A page whose directory entry names a table in memory is mapped by an entry of it. -/
lemma mapping_table (names : (r.entry 0xF (n / 1024)).namesTable = true)
    (resolved : r.page? (r.entry 0xF (n / 1024)).frame = some t) :
    r.mapping n = if (r.entry t (n % 1024)).valid then .mapped (r.entry t (n % 1024)).frame
      else .absent := by
  obtain ⟨valid, small⟩ := Entry.namesTable_iff.mp names
  simp only [mapping, valid, small, resolved, if_true, Bool.false_eq_true, if_false]

section
variable (large : 0xF < r.pages) (selfMap : r.entry 0xF 0x300 = .selfMap)
include large selfMap

/-- Page `i` of the window is mapped by entry `i` of the directory, as if that were an entry of a
page table: whether it names a large page makes no difference. -/
lemma mapping_window (hi : i < 1024) : r.mapping (0xC0000 + i) =
    if (r.entry 0xF i).valid then .mapped (r.entry 0xF i).frame else .absent := by
  have index : (0xC0000 + i) / 1024 = 0x300 := by omega
  have rest : (0xC0000 + i) % 1024 = i := by omega
  have own : r.page? Entry.selfMap.frame = some 0xF := by
    rw [Entry.frame_selfMap]
    exact page?_of_lt large (by decide)
  have mapped := mapping_table (r := r) (n := 0xC0000 + i) (t := 0xF)
    (by rw [index, selfMap]; exact Entry.namesTable_selfMap) (by rw [index, selfMap, own])
  rwa [rest] at mapped

/-- Where the entry that maps page `n` is found. -/
lemma translate_entryOf (hn : n < 0x100000) : r.translate (entryOf n) =
    .ok ((if (r.entry 0xF (n / 1024)).valid then Mapping.mapped (r.entry 0xF (n / 1024)).frame
      else .absent).outcome r (entryOf n)) := by
  have run := translate_run large (entryOf n)
  rwa [pageNumber_entryOf hn, mapping_window large selfMap (by omega)] at run

/-- A page of entries that is in memory is found there. -/
lemma translate_entryOf_resolved (hn : n < 0x100000) (valid : (r.entry 0xF (n / 1024)).valid = true)
    (resolved : r.page? (r.entry 0xF (n / 1024)).frame = some t) :
    r.translate (entryOf n) = .ok (.ok (.ofNat (t * 4096 + n % 1024 * 4))) := by
  rw [translate_entryOf large selfMap hn, if_pos valid]
  simp only [Mapping.outcome, resolved, offset_entryOf hn]

/-- The directory is found through its own entry. -/
lemma translate_directoryEntryOf (hi : i < 1024) :
    r.translate (directoryEntryOf i) = .ok (.ok (.ofNat (0xF * 4096 + i * 4))) := by
  have index : (0xC0000 + i) / 1024 = 0x300 := by omega
  have rest : (0xC0000 + i) % 1024 = i := by omega
  have valid : Entry.selfMap.valid = true := by decide
  have own : r.page? Entry.selfMap.frame = some 0xF := by
    rw [Entry.frame_selfMap]
    exact page?_of_lt large (by decide)
  have place := translate_entryOf_resolved (n := 0xC0000 + i) (t := 0xF) large selfMap (by omega)
    (by rwa [index, selfMap]) (by rwa [index, selfMap])
  rwa [rest] at place

end

/-- The entry that boot installs is the directory's entry for itself. -/
lemma entry_selfMap (large : 0xF < r.pages)
    (selfMap : ∃ e, Entry.kernelPage MemoryMap.pageDirectoryPage = .ok e ∧
      r.readWord (directory + MemoryMap.selfMapOffset) = .ok e.bits) :
    r.entry 0xF 0x300 = .selfMap := by
  obtain ⟨e, made, stored⟩ := selfMap
  have place : (directory + MemoryMap.selfMapOffset).toNat = 0xF * 4096 + 0x300 * 4 := by decide
  have word := readWord_eq place large (by decide)
  cases made.symm.trans Entry.kernelPage_selfMap
  exact congrArg Entry.mk (Except.ok.inj (word.symm.trans stored))

/-- Entry `i` of the table in page `t` is the word at its place. -/
lemma readWord_entry (ht : t < r.pages) (hi : i < 1024) :
    r.readWord (.ofNat (t * 4096 + i * 4)) = .ok (r.entry t i).bits := by
  have few := r.pages_le
  refine readWord_eq ?_ ht hi
  rw [Address.toNat_ofNat]
  omega

/-- The window of page tables shows just the entries that walks read. The directory lies at its own
place in the window. The entry that maps an address is found wherever the directory's entry leads
to, and what it says of the address is what a walk of the address comes to. -/
theorem selfMap_shows_walk (large : 0x10000 ≤ r.size)
    (selfMap : ∃ e, Entry.kernelPage MemoryMap.pageDirectoryPage = .ok e ∧
      r.readWord (directory + MemoryMap.selfMapOffset) = .ok e.bits) (va : VirtualAddress) :
    r.translate va.directoryEntryAddress = .ok (.ok (directory + 4 * va.directoryIndex)) ∧
      ∃ d : Entry, r.readWord (directory + 4 * va.directoryIndex) = .ok d.bits ∧
        (d.valid = false →
          r.translate va.entryAddress = .ok (.error (.notPresent va.entryAddress))) ∧
        (d.valid = true → r.resolve (Pfn.base d.frame) = none →
          r.translate va.entryAddress =
            .ok (.error (.outsideRam va.entryAddress (Pfn.base d.frame + 4 * va.entryIndex)))) ∧
        ∀ table, d.valid = true → r.resolve (Pfn.base d.frame) = some table →
          r.translate va.entryAddress = .ok (.ok (table + 4 * va.entryIndex)) ∧
          (d.isLarge = false → ∃ e : Entry, r.readWord (table + 4 * va.entryIndex) = .ok e.bits ∧
            (e.valid = false → r.translate va = .ok (.error (.notPresent va))) ∧
            (e.valid = true → r.translate va =
              .ok (match r.resolve (Pfn.base e.frame + va.offset .small) with
                | some place => .ok place
                | none => .error (.outsideRam va (Pfn.base e.frame + va.offset .small))))) := by
  have lots := large_of_size large
  have own := entry_selfMap lots selfMap
  have hn := pageNumber_lt va
  have hi : va.pageNumber .small / 1024 < 1024 := by omega
  have hj : va.pageNumber .small % 1024 < 1024 := Nat.mod_lt _ (by decide)
  have index : va.pageNumber .large = va.pageNumber .small / 1024 := directoryIndex_eq va
  have offset : (entryOf (va.pageNumber .small)).offset .small = 4 * va.entryIndex :=
    (offset_entryOf hn).trans (Nat.mul_comm _ 4)
  have start : directory + 4 * va.directoryIndex =
      .ofNat (0xF * 4096 + va.pageNumber .small / 1024 * 4) := by
    rw [directoryIndex_eq, Nat.mul_comm 4]
    rfl
  rw [directoryEntryAddress_eq, entryAddress_eq, start, index]
  refine ⟨translate_directoryEntryOf lots own hi, r.entry 0xF (va.pageNumber .small / 1024),
    readWord_entry lots hi, ?_, ?_, ?_⟩
  · intro vacant
    rw [translate_entryOf lots own hn, vacant]
    rfl
  · intro valid outside
    have missing : r.page? (r.entry 0xF (va.pageNumber .small / 1024)).frame = none := by
      rwa [resolve_base, Option.map_eq_none_iff] at outside
    rw [translate_entryOf lots own hn, if_pos valid, ← offset]
    simp only [Mapping.outcome, missing]
  · intro table valid resolved
    rw [resolve_base] at resolved
    obtain ⟨t, found, rfl⟩ := Option.map_eq_some_iff.mp resolved
    have place : (.ofNat (t * 4096) : PhysicalAddress) + 4 * va.entryIndex =
        .ofNat (t * 4096 + va.pageNumber .small % 1024 * 4) := by
      apply Address.ext
      rw [Address.toNat_add, Address.toNat_ofNat, Address.toNat_ofNat, ← offset, offset_entryOf hn]
      omega
    rw [place]
    refine ⟨translate_entryOf_resolved lots own hn valid found, fun small => ?_⟩
    have names : (r.entry 0xF (va.pageNumber .small / 1024)).namesTable = true :=
      Entry.namesTable_iff.mpr ⟨valid, by simp [small]⟩
    have walked : r.translate va = _ := translate_run lots va
    rw [mapping_table names found, outcome_entry] at walked
    refine ⟨r.entry t (va.pageNumber .small % 1024), readWord_entry (page?_lt found) hj, ?_, ?_⟩
    · intro absent
      rw [walked, absent]
      rfl
    · intro present
      rw [walked, if_pos present]

/-- Four megabytes in which one address is mapped, by a page table that the directory names through
the write-combined window and an entry that names its frame through the contiguous one. -/
def oblique : Ram :=
  let start : Ram := ⟨0x400000, .uniform 0, by decide, by decide, by decide⟩
  ((start.setWord 0xF 0x300 0xF063).setWord 0xF 0x200 0xF0020067).setWord 0x20 0x12 0x80030063

theorem selfMap_shows_walk_oblique :
    0x10000 ≤ oblique.size ∧
      (∃ e, Entry.kernelPage MemoryMap.pageDirectoryPage = .ok e ∧
        oblique.readWord (directory + MemoryMap.selfMapOffset) = .ok e.bits) ∧
      oblique.translate (directoryEntryAddress (.ofNat 0x80012345)) = .ok (.ok (.ofNat 0xF800)) ∧
      oblique.translate (entryAddress (.ofNat 0x80012345)) = .ok (.ok (.ofNat 0x20048)) ∧
      oblique.translate (.ofNat 0x80012345) = .ok (.ok (.ofNat 0x30345)) := by
  have large : 0x10000 ≤ oblique.size := by decide
  have selfMap : ∃ e, Entry.kernelPage MemoryMap.pageDirectoryPage = .ok e ∧
      oblique.readWord (directory + MemoryMap.selfMapOffset) = .ok e.bits :=
    ⟨.selfMap, Entry.kernelPage_selfMap, rfl⟩
  obtain ⟨own, ⟨d⟩, stored, _, _, table⟩ := selfMap_shows_walk large selfMap (.ofNat 0x80012345)
  cases stored.symm.trans (show _ = .ok 0xF0020067 from rfl)
  obtain ⟨place, walked⟩ := table (.ofNat 0x20000) (by decide) (by decide +kernel)
  obtain ⟨⟨e⟩, stored, _, walked⟩ := walked (by decide)
  cases stored.symm.trans (show _ = .ok 0x80030063 from rfl)
  exact ⟨large, selfMap, own, place, walked (by decide)⟩

end Ram

end ConsoleMemory
