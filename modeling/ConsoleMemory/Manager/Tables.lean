import ConsoleMemory.Manager.Entries

/-!
Committing and releasing page tables. A range of addresses needs one page table for every 4 MiB span
that it touches. Committing takes pages for the tables that are missing and undoes itself where no
page is left; releasing returns the tables that hold no entry. Both are defined for any access to
directory entries; the manager has one of its own.
-/

namespace ConsoleMemory

/-- Why page tables cannot be committed. -/
inductive CommitError where
  | outOfMemory (requested available : Nat)
  /-- No free page lies low enough to hold a page table. -/
  | noFreeBlock
deriving DecidableEq, Repr

def CommitError.message : CommitError → String
  | outOfMemory requested available =>
    s!"{requested} page tables needed but only {available} pages are available"
  | noFreeBlock => "no free block satisfies the request"

/-- First address of the span that the directory entry at `entry` maps. -/
def Manager.spanOf (entry : VirtualAddress) : VirtualAddress := entry.mappedByEntry.mappedByEntry

/-- An access to directory entries. -/
structure DirectoryAccess where
  read : VirtualAddress → Step Entry
  write : VirtualAddress → Entry → Step Unit

namespace DirectoryAccess

open Manager

variable (d : DirectoryAccess)

/-- Directory entries that are not valid among `count` of them from `entry` on. -/
def countMissing : Nat → VirtualAddress → Step Nat
  | 0, _ => return 0
  | count + 1, entry => do
    let missing := if (← d.read entry).valid then 0 else 1
    return missing + (← countMissing count entry.nextEntry)

/-- Returns the page of an empty page table and forgets what its directory entry mapped: the page of
entries itself and all that they mapped. -/
def releaseTable (entry : VirtualAddress) (table : Nat) : Step Unit := do
  giveBack table table
  markIdle table table
  d.write entry .zero
  let window := entry.mappedByEntry
  flush window (window + PageSize.small.offsetMask)
  let span := window.mappedByEntry
  flush span (span + PageSize.large.offsetMask)
  note (.tableReleased table span)

/-- Releases page tables, given with their directory entries. -/
def releaseAll : List (VirtualAddress × Nat) → Step Unit
  | [] => return
  | (entry, table) :: rest => do
    d.releaseTable entry table
    releaseAll rest

/-- Makes `table` the page table of a directory entry, with no entry in use. -/
def commitTable (t : PageType) (entry : VirtualAddress) (table : Nat) : Step Unit := do
  d.write entry (← Entry.kernelTable table)
  changeMemory fun memory => memory.clearRam (Pfn.base table) MemoryMap.pageBytes
  markBusy table table entry t
  note (.tableCommitted t table (spanOf entry))

/-- Commits the tables that are missing among `count` directory entries from `entry` on; `committed`
are the tables committed so far, the latest first, which are released where no page is left. -/
def commitFrom (t : PageType) :
    Nat → VirtualAddress → List (VirtualAddress × Nat) → Step (Except CommitError Unit)
  | 0, _, _ => return .ok ()
  | count + 1, entry, committed => do
    if (← d.read entry).valid then
      commitFrom t count entry.nextEntry committed
    else
      match ← takeTablePage with
      | none =>
        note (.noTablePage (← current).parameters.contiguousLimit)
        d.releaseAll committed
        return .error .noFreeBlock
      | some table =>
        d.commitTable t entry table
        commitFrom t count entry.nextEntry ((entry, table) :: committed)

/-- Commits the page tables that `[va, va + size)` needs. Tables that are there already stay as they
are; the new ones are of one type, which depends on where `va` lies. -/
def commitTables (va : VirtualAddress) (size : Nat) : Step (Except CommitError Unit) := do
  if size = 0 then
    return .ok ()
  let spans := va.pagesSpanned .large size
  let first := va.directoryEntryAddress
  let missing ← d.countMissing spans first
  if missing = 0 then
    return .ok ()
  let available := (← current).available
  if available < missing then
    note (.tooFewPages missing va available)
    return .error (.outOfMemory missing available)
  d.commitFrom (if va.isUser then .virtualPageTable else .systemPageTable) spans first []

/-- Releases the page table of a directory entry if it holds no entry. The directory's entry for
itself and large pages are left alone. -/
def releaseIfEmpty (address : VirtualAddress) : Step Unit := do
  let entry ← d.read address
  let selfMap := VirtualAddress.directoryEntryAddress (.ofNat MemoryMap.pageTablesBase)
  if address ≠ selfMap && entry.namesTable then
    let record ← readRecord entry.frame
    require record.isBusyPageTable (.fatal (.directoryEntryStray address entry.frame))
    if record.entriesUsed = 0 then
      d.releaseTable address entry.frame

def releaseFrom : Nat → VirtualAddress → Step Unit
  | 0, _ => return
  | count + 1, entry => do
    d.releaseIfEmpty entry
    releaseFrom count entry.nextEntry

/-- Releases the page tables of `[va, va + size)` that hold no entry. -/
def releaseTables (va : VirtualAddress) (size : Nat) : Step Unit :=
  if size = 0 then return
  else d.releaseFrom (va.pagesSpanned .large size) va.directoryEntryAddress

end DirectoryAccess

namespace Manager

/-- The manager's own access: directory entries are read and written as all entries are. -/
abbrev directory : DirectoryAccess := ⟨readEntry, writeEntry⟩

/-- Commits the page tables that `[va, va + size)` needs. -/
def commitTables (va : VirtualAddress) (size : Nat) : Step (Except CommitError Unit) :=
  directory.commitTables va size

/-- Releases the page tables of `[va, va + size)` that hold no entry. -/
def releaseTables (va : VirtualAddress) (size : Nat) : Step Unit := directory.releaseTables va size

end Manager

end ConsoleMemory
