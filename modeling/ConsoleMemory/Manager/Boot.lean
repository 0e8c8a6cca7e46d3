import ConsoleMemory.Manager.Tables

/-!
Bringing up memory. The page directory comes first: it maps itself as the window of page tables, and
all of memory twice more through large pages, write-combined and uncached. Then the PFN database is
carved out of memory. It must describe the pages of its own tables and itself, so those are written
before the general ways of marking pages can be used; the page directory's own record comes last.
-/

namespace ConsoleMemory.Manager

/-- Writes `count` large-page entries from directory entry `index` on, the first for frame `page`.
-/
def mapLargeFrom (template : Entry) : Nat → Nat → Nat → Step Unit
  | 0, _, _ => return
  | count + 1, index, page => do
    let entry ← template.withFrame page
    changeMemory fun memory =>
      memory.writeRamWord (Ram.directory + index * MemoryMap.entryBytes) entry.bits
    mapLargeFrom template count (index + 1) (page + MemoryMap.entriesPerPage)

/-- Maps the window `[base, base + size)` onto the physical addresses of the same value. -/
def mapLarge (base size : Nat) (template : Entry) : Step Unit :=
  mapLargeFrom template (size / MemoryMap.largePageBytes) (base / MemoryMap.largePageBytes)
    (base / MemoryMap.pageBytes)

/-- Clears the page directory and writes its fixed entries. -/
def installDirectory : Step Unit := do
  changeMemory fun memory => memory.clearRam Ram.directory MemoryMap.pageBytes
  let selfMap ← Entry.kernelPage MemoryMap.pageDirectoryPage
  changeMemory fun memory =>
    memory.writeRamWord (Ram.directory + MemoryMap.selfMapOffset) selfMap.bits
  let large := (← Entry.kernelPage 0).withFlag .largePage true
  mapLarge MemoryMap.writeCombinedBase MemoryMap.writeCombinedBytes large.withWriteCombine
  mapLarge MemoryMap.uncachedBase MemoryMap.uncachedBytes large.withCachingDisabled
  note (.directoryInstalled Ram.directory)

/-- Takes a cleared page table for each of `count` directory entries from `entry` on. -/
def installDatabaseTables : Nat → VirtualAddress → Step Unit
  | 0, _ => return
  | count + 1, entry => do
    match ← takeTablePage with
    | none => throw (.fatal .noDatabaseTable)
    | some table =>
      writeEntry entry (← Entry.kernelTable table)
      changeMemory fun memory => memory.clearRam (Pfn.base table) MemoryMap.pageBytes
      installDatabaseTables count entry.nextEntry

/-- Writes `count` entries from `entry` on, the first for frame `page`. -/
def mapDatabaseFrom (template : Entry) : Nat → VirtualAddress → Nat → Step Unit
  | 0, _, _ => return
  | count + 1, entry, page => do
    writeEntry entry (← template.withFrame page)
    mapDatabaseFrom template count entry.nextEntry (page + 1)

/-- Marks the pages of the database's tables busy, each with `used` entries in use. -/
def markDatabaseTables (used : Nat) : Nat → VirtualAddress → Step Unit
  | 0, _ => return
  | count + 1, entry => do
    let table := (← readEntry entry).frame
    writeRecord table (← (PfnRecord.busyAs .systemPageTable).withEntriesUsed used)
    countBusy .systemPageTable
    markDatabaseTables used count entry.nextEntry

/-- Charges to the general pool the part of the database that lies in the debugger's pool. -/
def chargeDatabase (last : Nat) : Step Unit := do
  match (← current).parameters.debuggerBoundary with
  | none => return
  | some boundary =>
    if boundary ≤ last then
      let pages ← checkedAdd (last - boundary) 1
      change fun m => return { m with freeList := ← m.freeList.movePages pages }

/-- Carves the PFN database out of memory and describes it in itself. -/
def installDatabase : Step Unit := do
  let p := (← current).parameters
  let base ← p.databaseAddress
  let bytes ← checkedMul p.databasePages MemoryMap.pageBytes
  let spans := base.pagesSpanned .large bytes
  require (spans == p.databaseTables) .assertion
  installDatabaseTables spans base.directoryEntryAddress
  let first := p.databasePage
  let last ← p.databaseEnd
  unless (← take { count := p.databasePages, first, last }) == some first do
    throw (.fatal (.databasePagesTaken first last))
  let template := (← Entry.kernelPage first).withFlag .persist true
  mapDatabaseFrom template (last + 1 - first) base.entryAddress first
  flush base (base + (← checkedSub bytes 1))
  chargeDatabase last
  changeMemory fun memory => memory.clearRam (Pfn.base first) bytes
  markDatabaseTables (p.databaseTableEntries % 0x10000) spans base.directoryEntryAddress
  markBusy first last base.entryAddress .unknown
  note (.databaseMapped base first last spans)

/-- Brings up the page directory and the PFN database. -/
def boot : Step Unit := do
  note (.booting (← current).layout)
  let directory := MemoryMap.pageDirectoryPage
  unless (← take { count := 1, first := directory, last := directory }) == some directory do
    throw (.fatal (.directoryPageTaken directory))
  installDirectory
  installDatabase
  markBusy directory directory
    (VirtualAddress.entryAddress (.ofNat MemoryMap.pageDirectoryBase)) .systemPageTable
  let m ← current
  note (.ready m.available m.debuggerAvailable)

end ConsoleMemory.Manager
