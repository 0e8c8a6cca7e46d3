import ConsoleMemory.Guest.Ram
import ConsoleMemory.Paging.Entry
import ConsoleMemory.Paging.SelfMap

/-!
The walk of the page tables. The page directory lies in a fixed page; its entry either maps a large
page or names a page table, whose entry maps a small page. Frames are looked up behind the windows
of the physical address space, so that an entry may name memory through any of them.
-/

namespace ConsoleMemory

/-- A computation that may meet a page fault or end for good. -/
abbrev Walk (α : Type) := ExceptT PageFault (Except Abort) α

namespace Ram

/-- First physical address of the page directory. -/
def directory : PhysicalAddress := .ofNat MemoryMap.pageDirectoryPhysical

/-- Entry `index` of the table that starts at `table`. -/
def entryAt (r : Ram) (table : PhysicalAddress) (index : Nat) : Except Abort Entry := do
  return ⟨← r.readWord (table + index * MemoryMap.entryBytes)⟩

/-- The physical address that the tables map `va` to. -/
def physical (r : Ram) (va : VirtualAddress) : Walk PhysicalAddress := do
  let directoryEntry ← r.entryAt directory va.directoryIndex
  unless directoryEntry.valid do
    throw (.notPresent va)
  let frame := Pfn.base directoryEntry.frame
  if directoryEntry.isLarge then
    return frame.withOffset .large (va.offset .large)
  match r.resolve frame with
  | none => throw (.outsideRam va frame)
  | some table =>
    let entry ← r.entryAt table va.entryIndex
    unless entry.valid do
      throw (.notPresent va)
    return Pfn.base entry.frame + va.offset .small

/-- The place in memory of the byte that the tables map `va` to. -/
def translate (r : Ram) (va : VirtualAddress) : Walk PhysicalAddress := do
  let address ← r.physical va
  match r.resolve address with
  | some place => return place
  | none => throw (.outsideRam va address)

end Ram

end ConsoleMemory
