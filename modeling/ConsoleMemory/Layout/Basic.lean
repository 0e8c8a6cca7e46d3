import ConsoleMemory.Layout.MemoryMap

/-!
The three consoles and the numbers that tell their physical memory apart. A development kit keeps
its upper half for the debugger; its PFN database straddles the boundary.
-/

namespace ConsoleMemory

inductive Layout where
  | retail
  | debug
  | arcade
deriving DecidableEq, Repr, Inhabited

/-- What the memory manager has to know about a layout. -/
structure Parameters where
  /-- Bytes of physical memory. -/
  ramSize : Nat
  highestPage : Nat
  /-- First page of the PFN database. -/
  databasePage : Nat
  databasePages : Nat
  /-- Page tables that map the database. -/
  databaseTables : Nat
  /-- Entries in use of each of those page tables. -/
  databaseTableEntries : Nat
  /-- Highest page that is handed out as a page table. -/
  contiguousLimit : Nat
  /-- First page of the debugger's pool, where there is one. -/
  debuggerBoundary : Option Nat
deriving DecidableEq, Repr

namespace Layout

def name : Layout → String
  | retail => "retail"
  | debug => "debug"
  | arcade => "chihiro"

/-- The name as it is written in code. -/
def title : Layout → String
  | retail => "Retail"
  | debug => "Debug"
  | arcade => "Chihiro"

def all : List Layout := [retail, debug, arcade]

def parameters : Layout → Parameters
  | retail =>
    { ramSize := MemoryMap.retailBytes
      highestPage := MemoryMap.retailHighestPage
      databasePage := MemoryMap.retailDatabasePage
      databasePages := 16
      databaseTables := 1
      databaseTableEntries := 16
      contiguousLimit := MemoryMap.retailContiguousLimit
      debuggerBoundary := none }
  | debug =>
    { ramSize := MemoryMap.arcadeBytes
      highestPage := MemoryMap.arcadeHighestPage
      databasePage := MemoryMap.retailDatabasePage
      databasePages := 32
      databaseTables := 2
      databaseTableEntries := 16
      contiguousLimit := MemoryMap.retailContiguousLimit
      debuggerBoundary := some MemoryMap.debuggerFirstPage }
  | arcade =>
    { ramSize := MemoryMap.arcadeBytes
      highestPage := MemoryMap.arcadeHighestPage
      databasePage := MemoryMap.arcadeDatabasePage
      databasePages := 32
      databaseTables := 1
      databaseTableEntries := 32
      contiguousLimit := MemoryMap.arcadeContiguousLimit
      debuggerBoundary := none }

/-- In every layout the database has one record for each page and lies inside memory. -/
theorem database_fits (l : Layout) :
    l.parameters.databasePages * MemoryMap.pageBytes =
        (l.parameters.highestPage + 1) * MemoryMap.recordBytes ∧
      l.parameters.databasePage + l.parameters.databasePages ≤ l.parameters.highestPage + 1 := by
  cases l <;> decide

end Layout

end ConsoleMemory
