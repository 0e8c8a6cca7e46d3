import ConsoleMemory.Address.Basic
import ConsoleMemory.Layout.MemoryMap

/-!
Where the entries that map an address appear in the address space. The page directory serves as one
of its own page tables, so the entry of page `n` lies four times `n` bytes into the window of page
tables, and the entry of that entry is the directory entry (`entryAddress_entryAddress`).
-/

namespace ConsoleMemory.VirtualAddress

open MemoryMap

/-- Address of the directory entry that maps `va`. -/
def directoryEntryAddress (va : VirtualAddress) : VirtualAddress :=
  .ofNat (pageDirectoryBase + va.pageNumber .large * entryBytes)

/-- Address of the page table entry that maps `va`. -/
def entryAddress (va : VirtualAddress) : VirtualAddress :=
  .ofNat (pageTablesBase + va.pageNumber .small * entryBytes)

/-- First address of the page that the entry at `e` maps. -/
def mappedByEntry (e : VirtualAddress) : VirtualAddress :=
  .ofNat ((e - pageTablesBase).toNat * 1024)

/-- Index of the directory entry that maps `va`. -/
def directoryIndex (va : VirtualAddress) : Nat := va.pageNumber .large

/-- Index, within its page table, of the entry that maps `va`. -/
def entryIndex (va : VirtualAddress) : Nat := va.pageNumber .small % entriesPerPage

/-- Whether the entry at `e` is the first of its page table. -/
def startsTable (e : VirtualAddress) : Bool := e.isAligned .small

/-- How many pages of size `s` hold an address of `[va, va + size)`. -/
def pagesSpanned (s : PageSize) (va : VirtualAddress) (size : Nat) : Nat :=
  (va.offset s + size + s.offsetMask) / s.bytes

/-- Address of the entry after the one at `e`. -/
def nextEntry (e : VirtualAddress) : VirtualAddress := e + entryBytes

/-- Whether `va` lies in the part of the address space that belongs to user code. -/
def isUser (va : VirtualAddress) : Bool := va.toNat ≤ highestUserAddress

theorem toNat_entryAddress (va : VirtualAddress) :
    va.entryAddress.toNat = pageTablesBase + va.toNat / 4096 * 4 := by
  have := va.toNat_lt
  simp only [entryAddress, Address.toNat_ofNat, Address.pageNumber, PageSize.bytes,
    pageTablesBase, entryBytes]
  omega

theorem toNat_directoryEntryAddress (va : VirtualAddress) :
    va.directoryEntryAddress.toNat = pageDirectoryBase + va.toNat / 4194304 * 4 := by
  have := va.toNat_lt
  simp only [directoryEntryAddress, Address.toNat_ofNat, Address.pageNumber, PageSize.bytes,
    pageDirectoryBase, entryBytes]
  omega

theorem entryAddress_entryAddress (va : VirtualAddress) :
    va.entryAddress.entryAddress = va.directoryEntryAddress := by
  apply Address.ext
  have := va.toNat_lt
  simp only [toNat_entryAddress, toNat_directoryEntryAddress, pageTablesBase, pageDirectoryBase]
  omega

theorem mappedByEntry_entryAddress (va : VirtualAddress) :
    va.entryAddress.mappedByEntry = va.alignDown .small := by
  apply Address.ext
  have := va.toNat_lt
  simp only [mappedByEntry, Address.toNat_ofNat, Address.toNat_sub, toNat_entryAddress,
    Address.toNat_alignDown, Address.pageNumber, PageSize.bytes, pageTablesBase]
  omega

end ConsoleMemory.VirtualAddress
