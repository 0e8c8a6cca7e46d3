import ConsoleMemory.Log.Level
import ConsoleMemory.Paging.Protection

/-!
What the parts of the library report while they work. A note is an event with its data; its severity
and its text follow from the event. Text is made only for the notes that are shown.
-/

namespace ConsoleMemory

/-- The parts that report. -/
inductive Origin where
  | manager
  | freeList
  | ram
  | protection
deriving DecidableEq, Repr

inductive Note where
  | booting (layout : Layout)
  | ready (general debugger : Nat)
  | directoryInstalled (directory : PhysicalAddress)
  | databaseMapped (base : VirtualAddress) (first last tables : Nat)
  | outOfMemory
  | tooFewPages (needed : Nat) (va : VirtualAddress) (available : Nat)
  | noTablePage (limit : Nat)
  | tableCommitted (type : PageType) (page : Nat) (span : VirtualAddress)
  | tableReleased (page : Nat) (span : VirtualAddress)
  | recordWritten (page : Nat) (record : PfnRecord)
  | entryWritten (address : VirtualAddress) (entry : Entry)
  | pageFlushed (page : VirtualAddress)
  | pagesTaken (count first : Nat)
  | pagesReturned (count first : Nat)
  | protectionRefused (protection : Protection) (error : ProtectionError)
  | systemProtectionRefused (protection : Protection)
  | gaveUp (cause : Fatal)
deriving Repr

namespace Fatal

/-- The part that gives up. -/
def origin : Fatal → Origin
  | debuggerPoolShort .. | doubleFree .. => .freeList
  | outsideRam .. => .ram
  | _ => .manager

end Fatal

namespace Note

def level : Note → Log.Level
  | gaveUp .. => .error
  | outOfMemory | tooFewPages .. | noTablePage .. => .warn
  | booting .. | ready .. | databaseMapped .. | tableCommitted .. | tableReleased ..
  | protectionRefused .. | systemProtectionRefused .. => .debug
  | directoryInstalled .. | recordWritten .. | entryWritten .. | pageFlushed .. | pagesTaken ..
  | pagesReturned .. => .trace

def origin : Note → Origin
  | gaveUp cause => cause.origin
  | pagesTaken .. | pagesReturned .. => .freeList
  | protectionRefused .. | systemProtectionRefused .. => .protection
  | _ => .manager

def message : Note → String
  | booting layout => s!"Booting physical memory manager ({layout.name} layout)"
  | ready general debugger =>
    s!"Physical memory ready: {general} general and {debugger} debugger pages free"
  | directoryInstalled directory => s!"Page directory initialized at {directory.text}"
  | databaseMapped base first last tables =>
    s!"PFN database at {base.text}: pages {Pfn.text first}..={Pfn.text last} " ++
      s!"mapped by {tables} page table(s)"
  | outOfMemory => "Out of physical memory!"
  | tooFewPages needed va available =>
    s!"Cannot commit {needed} page tables for {va.text}: {available} pages available"
  | noTablePage limit => s!"No page for a page table below {Pfn.text limit}"
  | tableCommitted type page span =>
    s!"Committed {type.name} {Pfn.text page} for {span.text}"
  | tableReleased page span => s!"Released page table {Pfn.text page} of {span.text}"
  | recordWritten page record => s!"PFN {Pfn.text page} <- {record.text}"
  | entryWritten address entry => s!"{address.text} <- {Text.hex 8 entry.bits.toNat}"
  | pageFlushed page => s!"TLB flush of {page.text}"
  | pagesTaken count first => s!"Took {count} pages at {Pfn.text first} from the free list"
  | pagesReturned count first => s!"Returned {count} pages at {Pfn.text first} to the free list"
  | protectionRefused protection error =>
    s!"Rejected protection {Text.hex 0 protection.bits.toNat}: {error.message}"
  | systemProtectionRefused protection =>
    s!"Rejected system protection {Text.hex 0 protection.bits.toNat}"
  | gaveUp cause => cause.message

def record (originName : Origin → String) (n : Note) : Log.Record :=
  ⟨n.level, originName n.origin, n.message⟩

/-- The lines shown of a sequence of notes. -/
def lines (originName : Origin → String) (threshold : Log.Threshold) (notes : List Note) :
    List String :=
  (notes.filter fun n => threshold.passes n.level).map fun n => (n.record originName).text

/-! ### What single operations report -/

/-- Taking pages is reported when it succeeds. -/
def ofRemove (count : Nat) (first : Option Nat) : List Note :=
  first.toList.map (pagesTaken count)

def ofInsert (first last : Nat) : Note := pagesReturned (last - first + 1) first

/-- A request for user code is reported when it is refused. -/
def ofUserEntry (p : Protection) : List Note :=
  match p.userEntry with
  | .ok _ => []
  | .error e => [protectionRefused p e]

def ofSystemEntry (p : Protection) : List Note :=
  match p.systemEntry with
  | .ok _ => []
  | .error _ => [systemProtectionRefused p]

/-- Giving up is reported; other ends are not. -/
def ofAbort : Abort → List Note
  | .fatal cause => [gaveUp cause]
  | _ => []

end Note

end ConsoleMemory
