/-!
The fixed places of the machine's memory: page geometry, the windows of the virtual address space
and the physical pages that the kernel reserves. The examples at the end tie the numbers to each
other.
-/

namespace ConsoleMemory.MemoryMap

/-! ### Page geometry -/

def pageBytes : Nat := 0x1000
def pageShift : Nat := 12
def largePageBytes : Nat := 0x400000
def largePageShift : Nat := 22
def entriesPerPage : Nat := 1024
def entryBytes : Nat := 4
def recordBytes : Nat := 4

/-! ### Virtual windows -/

/-- Where all page tables appear, in the order of the addresses they map. -/
def pageTablesBase : Nat := 0xC0000000
def pageDirectoryBase : Nat := 0xC0300000
/-- Byte offset, inside the page directory, of the entry that points back at it. -/
def selfMapOffset : Nat := 0xC00
def highestUserAddress : Nat := 0x7FFEFFFF
/-- Start of the window that shows physical memory byte for byte. -/
def contiguousBase : Nat := 0x80000000
def writeCombinedBase : Nat := 0xF0000000
def writeCombinedBytes : Nat := 0x08000000
def uncachedBase : Nat := 0xF8000000
def uncachedBytes : Nat := 0x07C00000

/-! ### Physical memory -/

/-- The page that holds the page directory. -/
def pageDirectoryPage : Nat := 0xF
def pageDirectoryPhysical : Nat := 0xF000
def retailBytes : Nat := 64 * 1024 * 1024
def arcadeBytes : Nat := 128 * 1024 * 1024
def retailHighestPage : Nat := 0x3FFF
def arcadeHighestPage : Nat := 0x7FFF
def retailDatabasePage : Nat := 0x3FF0
def arcadeDatabasePage : Nat := 0x7FE0
def retailInstancePage : Nat := 0x3FE0
def arcadeInstancePage : Nat := 0x7FD0
def retailContiguousLimit : Nat := 0x3FDF
def arcadeContiguousLimit : Nat := 0x7FCF
/-- First page that a development kit keeps for its debugger. -/
def debuggerFirstPage : Nat := 0x4000
def retailDatabaseAddress : Nat := contiguousBase + retailDatabasePage <<< pageShift
def arcadeDatabaseAddress : Nat := contiguousBase + arcadeDatabasePage <<< pageShift

example : pageBytes = 1 <<< pageShift ∧ largePageBytes = 1 <<< largePageShift := by decide
example : pageDirectoryBase = pageTablesBase + pageTablesBase >>> 10 := by decide
example : pageTablesBase >>> largePageShift = selfMapOffset / entryBytes := by decide
example : pageDirectoryPhysical = pageDirectoryPage * pageBytes := by decide
example : retailDatabaseAddress = 0x83FF0000 ∧ arcadeDatabaseAddress = 0x87FE0000 := by decide
example : retailHighestPage + 1 = retailBytes / pageBytes := by decide
example : arcadeHighestPage + 1 = arcadeBytes / pageBytes := by decide
example : retailContiguousLimit < retailInstancePage := by decide
example : arcadeContiguousLimit < arcadeInstancePage := by decide
example : uncachedBase = writeCombinedBase + writeCombinedBytes := by decide

end ConsoleMemory.MemoryMap
