import ConsoleMemory.Manager.Basic

/-!
Busy pages and their records in the PFN database. Each page that becomes busy is counted under its
type, and taken off the count of the type that its record names when it ceases to be. The
description in a record has two readings, which share one field: an index leaves the lowest bit of
the field alone, a count replaces all of it. Either must fit.
-/

namespace ConsoleMemory

namespace PfnRecord

/-- The record with `n` entries in use, for a page that holds a page table. -/
def withEntriesUsed (r : PfnRecord) (n : Nat) : Except Abort PfnRecord := do
  return ⟨← infoField.checkedWrite r.bits n⟩

/-- The record of a page that is mapped by entry `index` of its page table. -/
def withEntryIndex (r : PfnRecord) (index : Nat) : Except Abort PfnRecord := do
  require (index < MemoryMap.entriesPerPage) .assertion
  return ⟨← infoField.checkedWrite r.bits (r.info % 2 + index * 2)⟩

theorem entriesUsed_withEntriesUsed {r s : PfnRecord} {n : Nat}
    (h : r.withEntriesUsed n = .ok s) : s.entriesUsed = n := by
  simp only [withEntriesUsed, BitField.checkedWrite] at h
  split at h
  · next fits =>
    cases h
    refine BitField.read_write infoField r.bits ?_
    exact Nat.lt_of_le_of_lt fits (by decide)
  · cases h

end PfnRecord

namespace Manager

/-- Counts one more busy page of a type. -/
def countBusy (t : PageType) : Step Unit :=
  change fun m => do
    let n ← checkedAdd (m.used t) 1
    return { m with usage := m.usage.set t n }

/-- Counts one busy page of a type less. -/
def countIdle (t : PageType) (page : Nat) : Step Unit :=
  change fun m => do
    require (0 < m.used t) (.fatal (.usageUnderflow t page))
    return { m with usage := m.usage.set t (m.used t - 1) }

/-- The record of a page that becomes busy and is mapped by the entry at `entry`. A page table
starts with no entry in use. -/
def busyRecord (t : PageType) (entry : VirtualAddress) : Except Abort PfnRecord :=
  if t.isPageTable then (PfnRecord.busyAs t).withEntriesUsed 0
  else (PfnRecord.busyAs t).withEntryIndex entry.mappedByEntry.entryIndex

/-- Marks `count` pages from `page` on as busy; the entries that map them follow each other. -/
def markBusyFrom (t : PageType) : Nat → Nat → VirtualAddress → Step Unit
  | 0, _, _ => return
  | count + 1, page, entry => do
    writeRecord page (← busyRecord t entry)
    countBusy t
    markBusyFrom t count (page + 1) entry.nextEntry

/-- Marks the pages `[first, last]` as busy; `entry` is where the entry of the first one lies. -/
def markBusy (first last : Nat) (entry : VirtualAddress) (t : PageType) : Step Unit :=
  markBusyFrom t (last + 1 - first) first entry

/-- Clears the records of `count` pages from `page` on. -/
def markIdleFrom : Nat → Nat → Step Unit
  | 0, _ => return
  | count + 1, page => do
    let record ← readRecord page
    require record.busy (.fatal (.clearsIdleRecord page))
    countIdle record.pageType page
    writeRecord page .zero
    markIdleFrom count (page + 1)

/-- Clears the records of the pages `[first, last]`, which must be busy. -/
def markIdle (first last : Nat) : Step Unit := markIdleFrom (last + 1 - first) first

end Manager

end ConsoleMemory
