import ConsoleMemory.Abort
import ConsoleMemory.Proofs.Guest.SelfMap

/-!
# The algebra of the window

The window of page tables holds one word for every page of the address space, in
the order of the pages. So the place of an entry and the page that it maps determine
each other, the entry of an entry belongs to the directory, and the next entry maps
the next page until the space ends.
-/

namespace ConsoleMemory.VirtualAddress

open MemoryMap

variable {va e : VirtualAddress} {s : PageSize} {base first number n m : Nat}

/-- The number of an entry's place, counted from the start of the entries with arithmetic on words
that must not overflow. -/
def checkedPlace (base number : Nat) : Except Abort Nat := do
  checkedAdd base (← checkedMul number entryBytes)

/-- A place at which the window shows an entry. -/
structure IsPlace (e : VirtualAddress) : Prop where
  low : pageTablesBase ≤ e.toNat
  high : e.toNat ≤ 0xC03FFFFF
  aligned : e.toNat % entryBytes = 0

lemma checkedPlace_eq (fits : base + number * 4 < 0x100000000) :
    checkedPlace base number = .ok (base + number * 4) := by
  have product : number * 4 < 0x100000000 := by omega
  rw [checkedPlace, checkedMul, entryBytes, if_pos product]
  exact if_pos fits

lemma checkedPlace_entryAddress :
    checkedPlace pageTablesBase (va.pageNumber .small) = .ok va.entryAddress.toNat := by
  have := va.toNat_lt
  rw [toNat_entryAddress, Address.pageNumber, PageSize.bytes, pageTablesBase]
  exact checkedPlace_eq (by omega)

lemma checkedPlace_directoryEntryAddress :
    checkedPlace pageDirectoryBase (va.pageNumber .large) = .ok va.directoryEntryAddress.toNat := by
  have := va.toNat_lt
  rw [toNat_directoryEntryAddress, Address.pageNumber, PageSize.bytes, pageDirectoryBase]
  exact checkedPlace_eq (by omega)

lemma pageNumber_large_lt (va : VirtualAddress) : va.pageNumber .large < 1024 := by
  have := va.toNat_lt
  rw [Address.pageNumber, PageSize.bytes]
  omega

/-- A directory entry maps the table's entries, the first of which maps the first page of the
span. -/
lemma mappedByEntry_mappedByEntry_directoryEntryAddress :
    va.directoryEntryAddress.mappedByEntry.mappedByEntry = va.alignDown .large := by
  have few := pageNumber_large_lt va
  rw [directoryEntryAddress_eq, mappedByEntry_directoryEntryOf few,
    mappedByEntry_entryOf (by omega), Address.alignDown, Address.ofPageNumber, Nat.mul_assoc]
  rfl

/-! ### Places -/

lemma isPlace_entryAddress (va : VirtualAddress) : va.entryAddress.IsPlace := by
  have := va.toNat_lt
  constructor <;> simp only [toNat_entryAddress, pageTablesBase, entryBytes] <;> omega

lemma IsPlace.exists_entryOf (h : e.IsPlace) : ∃ n < 0x100000, e = entryOf n := by
  obtain ⟨low, high, aligned⟩ := h
  simp only [pageTablesBase, entryBytes] at low aligned
  refine ⟨(e.toNat - 0xC0000000) / 4, by omega, Address.ext ?_⟩
  rw [toNat_entryOf (by omega)]
  omega

lemma entryAddress_mappedByEntry_entryOf (h : n < 0x100000) :
    (entryOf n).mappedByEntry.entryAddress = entryOf n := by
  have page : (Address.ofNat (n * 4096) : VirtualAddress).pageNumber .small = n := by
    rw [Address.pageNumber, Address.toNat_ofNat, PageSize.bytes]
    omega
  rw [mappedByEntry_entryOf h, entryAddress_eq, page]

/-- What an entry maps leads back to the entry just where the window shows one. -/
lemma entryAddress_mappedByEntry_iff : e.mappedByEntry.entryAddress = e ↔ e.IsPlace := by
  constructor
  · intro back
    rw [← back]
    exact isPlace_entryAddress _
  · intro place
    obtain ⟨n, small, rfl⟩ := place.exists_entryOf
    exact entryAddress_mappedByEntry_entryOf small

/-! ### Neighbours -/

/-- Places do not repeat, the one behind the window included. -/
lemma entryOf_inj (hn : n ≤ 0x100000) (hm : m ≤ 0x100000) : entryOf n = entryOf m ↔ n = m := by
  constructor
  · intro same
    have := congrArg Address.toNat same
    simp only [entryOf, Address.toNat_ofNat] at this
    omega
  · rintro rfl
    rfl

/-- The page behind a page, counted around the end of the space. -/
lemma pageNumber_add_bytes :
    (va + s.bytes).pageNumber s =
      if va.toNat + s.bytes < 0x100000000 then va.pageNumber s + 1 else 0 := by
  have := va.toNat_lt
  have pos := s.bytes_pos
  rw [Address.pageNumber, Address.toNat_add]
  split
  · next fits => rw [Nat.mod_eq_of_lt fits, Nat.add_div_right _ pos, Address.pageNumber]
  · next wraps =>
    cases s <;> simp only [PageSize.bytes] at wraps ⊢ <;> omega

/-- Where the entries of one size of page follow each other from number `first` on, the next entry
is that of the next page unless the space ends. -/
lemma nextEntry_entryOf_iff (inside : first + va.pageNumber s < 0x100000) :
    (entryOf (first + va.pageNumber s)).nextEntry = entryOf (first + (va + s.bytes).pageNumber s) ↔
      va.toNat + s.bytes < 0x100000000 := by
  rw [nextEntry_entryOf, pageNumber_add_bytes]
  split
  · next fits => simp only [fits, Nat.add_assoc]
  · next wraps =>
    -- The next place lies behind that of the last page, and the page is the first.
    rw [entryOf_inj (by omega) (by omega)]
    omega

lemma nextEntry_entryAddress_iff :
    va.entryAddress.nextEntry = entryAddress (va + PageSize.small.bytes) ↔
      va.toNat + PageSize.small.bytes < 0x100000000 := by
  have inside : 0 + va.pageNumber .small < 0x100000 := by
    rw [Nat.zero_add]
    exact Ram.pageNumber_lt va
  have next := nextEntry_entryOf_iff inside
  rwa [Nat.zero_add, Nat.zero_add, ← entryAddress_eq, ← entryAddress_eq] at next

lemma nextEntry_directoryEntryAddress_iff :
    va.directoryEntryAddress.nextEntry = directoryEntryAddress (va + PageSize.large.bytes) ↔
      va.toNat + PageSize.large.bytes < 0x100000000 := by
  have inside : 0xC0000 + va.pageNumber .large < 0x100000 := by
    have := pageNumber_large_lt va
    omega
  have next := nextEntry_entryOf_iff inside
  rwa [← directoryEntryOf, ← directoryEntryOf, ← directoryEntryAddress_eq,
    ← directoryEntryAddress_eq] at next

/-! ### Tables and spans -/

lemma startsTable_entryAddress_iff : va.entryAddress.startsTable = true ↔ va.entryIndex = 0 := by
  rw [entryAddress_eq, startsTable_entryOf (Ram.pageNumber_lt va), decide_eq_true_iff, entryIndex,
    entriesPerPage]

/-- The first entry of a table maps the first page of the span. -/
lemma entryIndex_eq_zero_iff : va.entryIndex = 0 ↔ va.offset .large < PageSize.small.bytes := by
  simp only [entryIndex, Address.pageNumber, Address.offset, PageSize.bytes, entriesPerPage]
  omega

/-- The places of entries are computed without overflow. The entry of an entry is that of the
directory; an entry leads back to its page, and a directory entry, followed twice, to its span.
Every place in the window and no other is found again from what it maps. The next entry maps the
next page exactly where the space does not end, and an entry is the first of its table exactly for
the first page of a span. -/
theorem selfMap_algebra (va : VirtualAddress) :
    (checkedPlace pageTablesBase (va.pageNumber .small) = .ok va.entryAddress.toNat ∧
      checkedPlace pageDirectoryBase (va.pageNumber .large) =
        .ok va.directoryEntryAddress.toNat) ∧
    va.entryAddress.entryAddress = va.directoryEntryAddress ∧
    va.entryAddress.mappedByEntry = va.alignDown .small ∧
    va.directoryEntryAddress.mappedByEntry.mappedByEntry = va.alignDown .large ∧
    (∀ e : VirtualAddress, e.mappedByEntry.entryAddress = e ↔ e.IsPlace) ∧
    (va.entryAddress.nextEntry = entryAddress (va + PageSize.small.bytes) ↔
      va.toNat + PageSize.small.bytes < 0x100000000) ∧
    (va.directoryEntryAddress.nextEntry = directoryEntryAddress (va + PageSize.large.bytes) ↔
      va.toNat + PageSize.large.bytes < 0x100000000) ∧
    (va.entryAddress.startsTable = true ↔ va.offset .large < PageSize.small.bytes) ∧
    (va.entryAddress.startsTable = true ↔ va.entryIndex = 0) :=
  ⟨⟨checkedPlace_entryAddress, checkedPlace_directoryEntryAddress⟩,
    entryAddress_entryAddress va, mappedByEntry_entryAddress va,
    mappedByEntry_mappedByEntry_directoryEntryAddress, fun _ => entryAddress_mappedByEntry_iff,
    nextEntry_entryAddress_iff, nextEntry_directoryEntryAddress_iff,
    startsTable_entryAddress_iff.trans entryIndex_eq_zero_iff, startsTable_entryAddress_iff⟩

end ConsoleMemory.VirtualAddress
