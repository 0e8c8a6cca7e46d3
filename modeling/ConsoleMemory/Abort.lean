import ConsoleMemory.Frames.Record
import ConsoleMemory.Layout.Basic
import ConsoleMemory.Pfn

/-!
How a computation ends for good. Counters and page numbers are 32-bit words whose arithmetic must
not overflow; a caller that breaks a stated condition is refused; and a manager that finds its own
view of memory contradicted gives up. Faults that a caller can recover from are ordinary results and
not listed here.
-/

namespace ConsoleMemory

/-- A condition on the arguments, with a text of its own, that does not hold. -/
inductive Refusal where
  | offsetOutsidePage
  /-- A value too large for its bit field. -/
  | outOfBounds (maximum : Nat)
  | invertedRange (first last : Nat)
  | partialPages (ramSize : Nat)
  | ramTooSmall (ramSize : Nat) (layout : Layout) (needed : Nat)
  | generalPoolOverflow (pages : Nat)
  | debuggerPoolOverflow (pages : Nat)
deriving DecidableEq, Repr

/-- A contradiction in the state of memory. -/
inductive Fatal where
  /-- More pages leave the debugger's pool than it has. -/
  | debuggerPoolShort (pages available : Nat)
  | doubleFree (first last : Nat) (block : Block)
  | outsideRam (length : Nat) (address : PhysicalAddress) (ramSize : Nat)
  | directoryPageTaken (page : Nat)
  | noDatabaseTable
  | databasePagesTaken (first last : Nat)
  | clearsIdleRecord (page : Nat)
  | usageUnderflow (type : PageType) (page : Nat)
  | tableNotCommitted (entry : VirtualAddress)
  | notPageTable (page : Nat) (entry : VirtualAddress) (record : PfnRecord)
  | tableFull (page used : Nat)
  | entriesUnderflow (page : Nat) (entry : VirtualAddress)
  | directoryEntryStray (entry : VirtualAddress) (page : Nat)
  | faultReading (address : VirtualAddress) (fault : PageFault)
  | faultWriting (address : VirtualAddress) (fault : PageFault)
deriving DecidableEq, Repr

inductive Abort where
  /-- A 32-bit sum, difference or product that does not fit. -/
  | overflow
  /-- A condition on the arguments without a text of its own. -/
  | assertion
  | refused (cause : Refusal)
  | fatal (cause : Fatal)
deriving DecidableEq, Repr

namespace Refusal

def message : Refusal → String
  | offsetOutsidePage => "offset must be < page size"
  | outOfBounds maximum => s!"value out of bounds [0, {maximum}]"
  | invertedRange first last => s!"inverted free range {Pfn.text first}..={Pfn.text last}"
  | partialPages ramSize =>
    s!"guest RAM size {Text.hex 0 ramSize} is not a whole number of pages"
  | ramTooSmall ramSize layout needed =>
    s!"backend holds {Text.hex 0 ramSize} bytes of RAM, " ++
      s!"layout {layout.name} needs {Text.hex 0 needed}"
  | generalPoolOverflow pages => s!"general pool counter overflow ({pages} pages)"
  | debuggerPoolOverflow pages => s!"debugger pool counter overflow ({pages} pages)"

end Refusal

namespace Fatal

def message : Fatal → String
  | debuggerPoolShort pages available =>
    s!"Moving {pages} pages out of a debugger pool of {available} pages"
  | doubleFree first last block =>
    s!"Freeing {Pfn.text first}..={Pfn.text last} overlaps free block {block.text}"
  | outsideRam length address ramSize =>
    s!"Physical access of {Text.hex 0 length} bytes at {address.text} is outside guest RAM " ++
      s!"({Text.hex 0 ramSize} bytes)"
  | directoryPageTaken page => s!"Page directory page {Pfn.text page} is not free at boot"
  | noDatabaseTable => "No page left for the PFN database page tables"
  | databasePagesTaken first last =>
    s!"PFN database pages {Pfn.text first}..={Pfn.text last} are not free"
  | clearsIdleRecord page =>
    s!"Clearing the PFN record of page {Pfn.text page}, which is not busy"
  | usageUnderflow type page =>
    s!"Usage counter of {type.name} pages underflows at page {Pfn.text page}"
  | tableNotCommitted entry => s!"Page table holding PTE {entry.text} is not committed"
  | notPageTable page entry record =>
    s!"Page {Pfn.text page} holding PTE {entry.text} is not a page table ({record.text})"
  | tableFull page used => s!"Page table {Pfn.text page} already has {used} PTEs in use"
  | entriesUnderflow page entry =>
    s!"PtesUsed of page table {Pfn.text page} underflows at {entry.text}"
  | directoryEntryStray entry page =>
    s!"PDE {entry.text} points at page {Pfn.text page}, which is not a page table"
  | faultReading address fault =>
    s!"Page fault reading 4 bytes at {address.text}: {fault.message}"
  | faultWriting address fault =>
    s!"Page fault writing 4 bytes at {address.text}: {fault.message}"

end Fatal

/-! ### Arithmetic on 32-bit words that must not overflow -/

def checkedAdd (a b : Nat) : Except Abort Nat :=
  if a + b < 0x100000000 then .ok (a + b) else .error .overflow

def checkedSub (a b : Nat) : Except Abort Nat :=
  if b ≤ a then .ok (a - b) else .error .overflow

def checkedMul (a b : Nat) : Except Abort Nat :=
  if a * b < 0x100000000 then .ok (a * b) else .error .overflow

@[simp] theorem checkedAdd_eq_ok {a b c : Nat} :
    checkedAdd a b = .ok c ↔ a + b = c ∧ c < 0x100000000 := by
  unfold checkedAdd
  split <;> simp <;> omega

@[simp] theorem checkedSub_eq_ok {a b c : Nat} : checkedSub a b = .ok c ↔ a = c + b := by
  unfold checkedSub
  split <;> simp <;> omega

/-- A condition that the caller must have met. -/
def require (p : Bool) (otherwise : Abort) : Except Abort Unit :=
  if p then .ok () else .error otherwise

theorem bind_eq_ok {α β : Type} {y : Except Abort α} {f : α → Except Abort β} {b : β} :
    (y >>= f) = .ok b ↔ ∃ a, y = .ok a ∧ f a = .ok b := by
  cases y
  · simp [bind, Except.bind]
  · simp [bind, Except.bind]

theorem require_bind_eq_ok {α : Type} {p : Bool} {otherwise : Abort}
    {f : Unit → Except Abort α} {a : α} :
    (require p otherwise >>= f) = .ok a ↔ p = true ∧ f () = .ok a := by
  cases p
  · simp [require, bind, Except.bind]
  · simp [require, bind, Except.bind]

/-- Whether a page number is a multiple of an alignment, which must be a power of two. -/
def Pfn.isAligned (p alignment : Nat) : Except Abort Bool := do
  require (isPowerOfTwo alignment) .assertion
  return p % alignment == 0

/-- An offset that a page can have. -/
def checkedOffset (s : PageSize) (o : Nat) : Except Abort Nat :=
  if o < s.bytes then .ok o else .error (.refused .offsetOutsidePage)

/-- A value written into a field that must be able to hold it. -/
def BitField.checkedWrite (f : BitField) (w : UInt32) (v : Nat) : Except Abort UInt32 :=
  if v ≤ f.maximum then .ok (f.write w v) else .error (.refused (.outOfBounds f.maximum))

end ConsoleMemory
