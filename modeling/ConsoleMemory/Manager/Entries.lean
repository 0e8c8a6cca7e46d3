import ConsoleMemory.Manager.Records

/-!
Filling and clearing page table entries. A range of entries is swept in order; at its start and
wherever a new page table begins, the table's page is looked up. The record of that page counts the
entries in use, and a translation is forgotten as soon as its entry changes.
-/

namespace ConsoleMemory.Manager

/-- The page of the page table that holds the entry at `entry`; the table must be committed. -/
def tableOf (entry : VirtualAddress) : Step Nat := do
  let directoryEntry ← readEntry entry.entryAddress
  require directoryEntry.valid (.fatal (.tableNotCommitted entry))
  let page := directoryEntry.frame
  let record ← readRecord page
  require record.isBusyPageTable (.fatal (.notPageTable page entry record))
  return page

/-- How many entries are met from `first` on before the next one lies past `last`. A range that
reaches the end of the address space has no such entry; the sweep goes on at its start. -/
def sweepLength (first last : VirtualAddress) : Nat :=
  let count := (last.toNat - first.toNat) / MemoryMap.entryBytes + 1
  if last.toNat < first.toNat then 0
  else if first.toNat + count * MemoryMap.entryBytes < 0x100000000 then count
  else 0x100000000

/-- The page of the table that holds `entry`, where `table` is that of the entry before it. -/
def tableAt (first entry : VirtualAddress) (table : Nat) : Step Nat :=
  if entry = first || entry.startsTable then tableOf entry else return table

/-- Sets how many entries of a page table are in use. -/
def setEntriesUsed (table : Nat) (record : PfnRecord) (used : Nat) : Step Unit := do
  writeRecord table (← record.withEntriesUsed used)

/-- Makes the entry at `entry` map `page`, unless it is in use. -/
def fillEntry (template : Entry) (table : Nat) (entry : VirtualAddress) (page : Nat) :
    Step Unit := do
  if (← readEntry entry).isZero then
    writeEntry entry (← template.withFrame page)
    flushMappedBy entry
    let record ← readRecord table
    let used := record.entriesUsed
    require (used < MemoryMap.entriesPerPage) (.fatal (.tableFull table used))
    setEntriesUsed table record (used + 1)

/-- Clears the entry at `entry`, if it is in use. -/
def clearEntry (table : Nat) (entry : VirtualAddress) : Step Unit := do
  unless (← readEntry entry).isZero do
    writeEntry entry .zero
    flushMappedBy entry
    let record ← readRecord table
    require (0 < record.entriesUsed) (.fatal (.entriesUnderflow table entry))
    setEntriesUsed table record (record.entriesUsed - 1)

def fillFrom (first : VirtualAddress) (template : Entry) :
    Nat → VirtualAddress → Nat → Nat → Step Unit
  | 0, _, _, _ => return
  | count + 1, entry, table, page => do
    let table ← tableAt first entry table
    fillEntry template table entry page
    let page ← checkedAdd page 1
    fillFrom first template count entry.nextEntry table page

def clearFrom (first : VirtualAddress) : Nat → VirtualAddress → Nat → Step Unit
  | 0, _, _ => return
  | count + 1, entry, table => do
    let table ← tableAt first entry table
    clearEntry table entry
    clearFrom first count entry.nextEntry table

/-- Fills the zero entries among those in `[first, last]` after `template`. The entry at `first` is
meant for `page` and each later one for the next page, whether the ones before it are filled or
not. -/
def fillEntries (first last : VirtualAddress) (template : Entry) (page : Nat) : Step Unit :=
  fillFrom first template (sweepLength first last) first 0 page

/-- Clears the entries in use among those in `[first, last]`. -/
def clearEntries (first last : VirtualAddress) : Step Unit :=
  clearFrom first (sweepLength first last) first 0

example : sweepLength (.ofNat 0xC0000000) (.ofNat 0xC0000006) = 2 := by decide +kernel

end ConsoleMemory.Manager
