/-!
What a busy page is used for, and how many busy pages there are of each type. The code of a type is
the number stored in a PFN record and the position of its usage counter.
-/

namespace ConsoleMemory

inductive PageType where
  | unknown
  | stack
  | virtualPageTable
  | systemPageTable
  | pool
  | virtualMemory
  | systemMemory
  | image
  | cache
  | contiguous
  | debugger
deriving DecidableEq, Repr

namespace PageType

/-- All types, in the order of their codes. -/
def all : List PageType :=
  [unknown, stack, virtualPageTable, systemPageTable, pool, virtualMemory, systemMemory, image,
    cache, contiguous, debugger]

def index : PageType → Fin 11
  | unknown => 0
  | stack => 1
  | virtualPageTable => 2
  | systemPageTable => 3
  | pool => 4
  | virtualMemory => 5
  | systemMemory => 6
  | image => 7
  | cache => 8
  | contiguous => 9
  | debugger => 10

def code (t : PageType) : Nat := t.index

def ofCode? (n : Nat) : Option PageType := all[n]?

def name : PageType → String
  | unknown => "Unknown"
  | stack => "Stack"
  | virtualPageTable => "VirtualPageTable"
  | systemPageTable => "SystemPageTable"
  | pool => "Pool"
  | virtualMemory => "VirtualMemory"
  | systemMemory => "SystemMemory"
  | image => "Image"
  | cache => "Cache"
  | contiguous => "Contiguous"
  | debugger => "Debugger"

def isPageTable : PageType → Bool
  | virtualPageTable | systemPageTable => true
  | _ => false

theorem mem_all (t : PageType) : t ∈ all := by cases t <;> decide

theorem ofCode?_code (t : PageType) : ofCode? t.code = some t := by cases t <;> rfl

theorem code_injective {s t : PageType} (h : s.code = t.code) : s = t :=
  Option.some.inj ((ofCode?_code s).symm.trans (h ▸ ofCode?_code t))

theorem code_lt (t : PageType) : t.code < 11 := t.index.isLt

end PageType

/-- Counts of busy pages by type. -/
structure Usage where
  counts : Vector Nat 11
deriving DecidableEq, Repr

namespace Usage

/-- No busy page. -/
def zero : Usage := ⟨.replicate 11 0⟩

def count (u : Usage) (t : PageType) : Nat := u.counts.get t.index

def set (u : Usage) (t : PageType) (n : Nat) : Usage :=
  ⟨u.counts.set t.code n t.code_lt⟩

/-- One more page of a type. -/
def tally (u : Usage) (t : PageType) : Usage := u.set t (u.count t + 1)

theorem count_zero (t : PageType) : zero.count t = 0 := by cases t <;> rfl

theorem count_set (u : Usage) (t s : PageType) (n : Nat) :
    (u.set t n).count s = if s = t then n else u.count s := by
  have h : (u.set t n).count s = if t.code = s.code then n else u.count s :=
    Vector.getElem_set t.code_lt s.code_lt
  rw [h]
  by_cases e : s = t
  · simp [e]
  · rw [if_neg e, if_neg fun c => e (PageType.code_injective c).symm]

end Usage

end ConsoleMemory
