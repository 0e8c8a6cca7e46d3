import ConsoleMemory.Frames.PageType
import ConsoleMemory.FreeList.Basic
import ConsoleMemory.Guest.Memory
import ConsoleMemory.Log.Note

/-!
The manager of physical memory and the steps it is made of. It keeps the free pages and counts the
busy ones by type; page tables and PFN records lie in guest memory and are reached through the page
tables themselves, so that a fault on the way shows the tables to be corrupt and is fatal. A program
reaches memory through the same tables, and a fault is an answer to it. A step changes the manager,
reports what it does and may end for good.
-/

namespace ConsoleMemory

/-! ### Numbers derived from the parameters of a layout

The sums are 32-bit words and are taken from left to right, so that each step must fit. -/

namespace Parameters

def pageCount (p : Parameters) : Except Abort Nat := checkedAdd p.highestPage 1

/-- Last page of the PFN database. -/
def databaseEnd (p : Parameters) : Except Abort Nat := do
  let pastEnd ← checkedAdd p.databasePage p.databasePages
  checkedSub pastEnd 1

/-- Where the PFN database appears in the contiguous window. -/
def databaseAddress (p : Parameters) : Except Abort VirtualAddress := do
  let address ← checkedAdd MemoryMap.contiguousBase (Pfn.base p.databasePage).toNat
  return .ofNat address

/-- Where the record of page `page` appears. -/
def recordAddress (p : Parameters) (page : Nat) : Except Abort VirtualAddress := do
  let base ← p.databaseAddress
  let offset ← checkedMul page MemoryMap.recordBytes
  let address ← checkedAdd base.toNat offset
  return .ofNat address

example : Layout.retail.parameters.databaseEnd = .ok 0x3FFF := rfl
example : Layout.debug.parameters.databaseEnd = .ok 0x400F := rfl
example : (Layout.arcade.parameters.recordAddress 0x7FFF).toOption = some (.ofNat 0x87FFFFFC) := by
  decide +kernel

end Parameters

/-! ### The manager -/

structure Manager where
  memory : GuestMemory
  layout : Layout
  parameters : Parameters
  freeList : FreeList
  /-- Busy pages of each type. -/
  usage : Usage

/-- A manager and what it has reported. -/
structure Session where
  manager : Manager
  trail : Array Note

abbrev Step := EStateM Abort Session

instance : MonadLift (Except Abort) Step where
  monadLift
    | .ok a => pure a
    | .error e => throw e

namespace Manager

/-- A manager to which every page is free, of a memory that must be large enough. -/
def create (memory : GuestMemory) (layout : Layout) (parameters : Parameters) :
    Except Abort Manager := do
  require (parameters.ramSize ≤ memory.ram.size)
    (.refused (.ramTooSmall memory.ram.size layout parameters.ramSize))
  let freeList ← FreeList.full parameters.highestPage parameters.debuggerBoundary
  return ⟨memory, layout, parameters, freeList, .zero⟩

/-- Free pages of the general pool. -/
def available (m : Manager) : Nat := m.freeList.general

def debuggerAvailable (m : Manager) : Nat := m.freeList.debugger

/-- Busy pages of a type. -/
def used (m : Manager) (t : PageType) : Nat := m.usage.count t

/-! ### Steps -/

def current : Step Manager := return (← get).manager

def note (n : Note) : Step Unit := modify fun s => { s with trail := s.trail.push n }

def notes (ns : List Note) : Step Unit := ns.forM note

/-- Replaces the manager by what `f` makes of it. -/
def change (f : Manager → Except Abort Manager) : Step Unit := do
  let s ← get
  let manager ← f s.manager
  set { s with manager }

def changeMemory (f : GuestMemory → Except Abort GuestMemory) : Step Unit :=
  change fun m => return { m with memory := ← f m.memory }

/-! ### Words, entries and records -/

def readWord (va : VirtualAddress) : Step UInt32 := do
  let m ← current
  let (word, memory) ← m.memory.readWord va
  changeMemory fun _ => return memory
  match word with
  | .ok w => return w
  | .error fault => throw (.fatal (.faultReading va fault))

def writeWord (va : VirtualAddress) (w : UInt32) : Step Unit := do
  let m ← current
  let stored ← m.memory.writeWord va w
  changeMemory fun _ => return stored.memory
  match stored.fault with
  | none => return
  | some fault => throw (.fatal (.faultWriting va fault))

def readEntry (address : VirtualAddress) : Step Entry := return ⟨← readWord address⟩

def writeEntry (address : VirtualAddress) (entry : Entry) : Step Unit := do
  note (.entryWritten address entry)
  writeWord address entry.bits

def recordAddress (page : Nat) : Step VirtualAddress := do
  let m ← current
  m.parameters.recordAddress page

def readRecord (page : Nat) : Step PfnRecord := return ⟨← readWord (← recordAddress page)⟩

def writeRecord (page : Nat) (record : PfnRecord) : Step Unit := do
  note (.recordWritten page record)
  writeWord (← recordAddress page) record.bits

/-! ### Accesses of programs -/

/-- A program's read: the bytes before the first fault, and the fault. -/
def load (va : VirtualAddress) (length : Nat) : Step (List UInt8 × Option PageFault) := do
  let m ← current
  let loaded ← m.memory.read va length
  changeMemory fun _ => return loaded.memory
  return (loaded.bytes, loaded.fault)

/-- A program's write. -/
def store (va : VirtualAddress) (bytes : List UInt8) : Step (Option PageFault) := do
  let m ← current
  let stored ← m.memory.write va bytes
  changeMemory fun _ => return stored.memory
  return stored.fault

/-! ### Translations -/

/-- Forgets the translations of the pages of `[first, last]`. -/
def flush (first last : VirtualAddress) : Step Unit :=
  changeMemory fun memory => return memory.flush first last

/-- Forgets the translation of the page that the entry at `entry` maps. -/
def flushMappedBy (entry : VirtualAddress) : Step Unit := do
  let page := entry.mappedByEntry
  note (.pageFlushed page)
  flush page (page + PageSize.small.offsetMask)

/-! ### Free pages -/

/-- Takes free pages. -/
def take (r : PageRequest) : Step (Option Nat) := do
  let m ← current
  let (first, freeList) ← m.freeList.remove r
  change fun m => return { m with freeList }
  notes (Note.ofRemove r.count first)
  return first

/-- Takes the highest free page that may hold a page table. -/
def takeTablePage : Step (Option Nat) := do
  let m ← current
  take { count := 1, first := 0, last := m.parameters.contiguousLimit }

/-- Returns the pages `[first, last]` to the free ones. -/
def giveBack (first last : Nat) : Step Unit := do
  change fun m => return { m with freeList := ← m.freeList.insert first last }
  note (Note.ofInsert first last)

/-- Whether one of the pools asked for has `pages` free pages. -/
def isMappable (pages : Nat) (general debugger : Bool) : Step Bool := do
  let m ← current
  let mappable :=
    general && decide (pages ≤ m.available) || debugger && decide (pages ≤ m.debuggerAvailable)
  unless mappable do
    note .outOfMemory
  return mappable

end Manager

end ConsoleMemory
