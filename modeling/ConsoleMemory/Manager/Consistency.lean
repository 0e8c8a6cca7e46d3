import ConsoleMemory.Manager.Basic

/-!
What must hold of the free pages, the PFN database and the page tables together. The check reads
memory by its own addresses, so it sees what is really there, whatever translations are remembered.
It names the first page that breaks a rule: free blocks are ordered and apart, every page is either
free or busy, the counters agree with the records, and every directory entry names a page table
whose entries in use are counted.
-/

namespace ConsoleMemory

/-- The rules of consistency. -/
inductive Inconsistency where
  | emptyBlock
  | blockPastEnd
  | blocksTouch
  | poolsDisagree
  | freeAndBusy
  | neitherFreeNorBusy
  | usageDisagrees
  | tablePastEnd
  | notPageTable
  | mapsIdlePage
  | mapsPageTable
  | entriesMiscounted
deriving DecidableEq, Repr

namespace Inconsistency

def reason : Inconsistency → String
  | emptyBlock => "empty free block"
  | blockPastEnd => "free block past the end of RAM"
  | blocksTouch => "free blocks out of order, overlapping or touching"
  | poolsDisagree => "pool counters do not add up to the free pages"
  | freeAndBusy => "free page has a busy PFN record"
  | neitherFreeNorBusy => "page is neither free nor busy"
  | usageDisagrees => "usage counters do not match the PFN database"
  | tablePastEnd => "PDE points past the end of RAM"
  | notPageTable => "valid PDE points at a page that is not a page table"
  | mapsIdlePage => "valid PTE maps a page that is not busy"
  | mapsPageTable => "valid PTE maps a page table page"
  | entriesMiscounted => "PtesUsed does not match the page table"

end Inconsistency

/-- A broken rule and the page where it is seen. -/
structure Finding where
  page : Nat
  rule : Inconsistency
deriving DecidableEq, Repr

def Finding.message (f : Finding) : String :=
  s!"inconsistent state at page {Pfn.text f.page}: {f.rule.reason}"

/-- A computation that may end with a finding. -/
abbrev Check (α : Type) := ExceptT Finding (Except Abort) α

namespace Manager

/-- A rule, with the page to name if it is broken. -/
def expect (p : Bool) (page : Nat) (rule : Inconsistency) : Check Unit :=
  if p then return else throw ⟨page, rule⟩

/-- Blocks are not empty, end inside memory and leave a page between each other. -/
def checkBlocks (highest : Nat) : Option Nat → List Block → Check Unit
  | _, [] => return
  | previous, b :: rest => do
    expect (b.size != 0) b.start .emptyBlock
    let last ← b.last
    expect (last ≤ highest) last .blockPastEnd
    expect (previous.all (· + 1 < b.start)) b.start .blocksTouch
    checkBlocks highest (some last) rest

/-- The pools account for every free page. -/
def checkPools (m : Manager) : Check Unit := do
  let accounted ← checkedAdd m.available m.debuggerAvailable
  let free ← m.freeList.freePages
  expect (accounted == free) 0 .poolsDisagree

/-- The record of a page, read from the database's place in memory. -/
def recordInRam (m : Manager) (page : Nat) : Except Abort PfnRecord := do
  let offset ← checkedMul page MemoryMap.recordBytes
  return ⟨← m.memory.ram.readWord (Pfn.base m.parameters.databasePage + offset)⟩

/-- Each of `count` pages from `page` on is either free or busy. The blocks are those that do not
end before `page`. Gives the busy pages by type. -/
def checkPages (m : Manager) : Nat → Nat → List Block → Usage → Check Usage
  | 0, _, _, usage => return usage
  | count + 1, page, blocks, usage => do
    let blocks := blocks.dropWhile fun b => b.start + b.size ≤ page
    let free := blocks.head?.any (·.start ≤ page)
    let record ← m.recordInRam page
    expect (!(free && record.busy)) page .freeAndBusy
    expect (free || record.busy) page .neitherFreeNorBusy
    let usage := if record.busy then usage.tally record.pageType else usage
    m.checkPages count (page + 1) blocks usage

/-- A valid entry that maps a page of memory maps a busy page that holds no page table. -/
def checkTarget (m : Manager) (entry : Entry) : Check Unit := do
  if entry.valid && decide (entry.frame ≤ m.parameters.highestPage) then
    let target ← m.recordInRam entry.frame
    expect target.busy entry.frame .mapsIdlePage
    expect (!target.pageType.isPageTable) entry.frame .mapsPageTable

/-- Checks `count` entries of a page table from `slot` on. Gives the number of those in use. -/
def checkEntries (m : Manager) (table : PhysicalAddress) : Nat → Nat → Nat → Check Nat
  | 0, _, used => return used
  | count + 1, slot, used => do
    let entry ← m.memory.ram.entryAt table slot
    if entry.isZero then
      m.checkEntries table count (slot + 1) used
    else
      m.checkTarget entry
      m.checkEntries table count (slot + 1) (used + 1)

/-- A directory entry that names a page table names one whose record is right. -/
def checkTable (m : Manager) (index : Nat) : Check Unit := do
  let entry ← m.memory.ram.entryAt Ram.directory index
  if entry.namesTable then
    let page := entry.frame
    expect (page ≤ m.parameters.highestPage) page .tablePastEnd
    let record ← m.recordInRam page
    expect record.isBusyPageTable page .notPageTable
    let used ← m.checkEntries (Pfn.base page) MemoryMap.entriesPerPage 0 0
    expect (used == record.entriesUsed) page .entriesMiscounted

/-- Directory entries other than the one that points back at the directory. -/
def tableIndices : List Nat :=
  (List.range MemoryMap.entriesPerPage).filter
    (· != MemoryMap.selfMapOffset / MemoryMap.entryBytes)

def checkAll (m : Manager) : Check Unit := do
  checkBlocks m.parameters.highestPage none m.freeList.blocks
  m.checkPools
  let usage ← m.checkPages (m.parameters.highestPage + 1) 0 m.freeList.blocks .zero
  expect (usage == m.usage) 0 .usageDisagrees
  tableIndices.forM m.checkTable

/-- The first finding, none where all is consistent. -/
def check (m : Manager) : Except Abort (Option Finding) := do
  match ← m.checkAll.run with
  | .ok () => return none
  | .error finding => return some finding

end Manager

end ConsoleMemory
