import ConsoleMemory.Abort

/-!
An entry of a page directory or a page table, one word. The twenty high bits name a page frame, the
eleven low bits are flags, and bit 11 has no meaning. The zero entry maps nothing and may be filled;
any other entry is in use, whether it is valid or not.
-/

namespace ConsoleMemory

structure Entry where
  bits : UInt32
deriving DecidableEq, Repr

namespace Entry

inductive Flag where
  | valid
  | write
  | owner
  | writeThrough
  | cacheDisable
  | accessed
  | dirty
  | largePage
  | global
  /-- A guard page while the entry is not valid. -/
  | guardPage
  /-- Keeps the page through a quick reboot. -/
  | persist
deriving DecidableEq, Repr

namespace Flag

/-- All flags, the lowest bit first. -/
def all : List Flag :=
  [valid, write, owner, writeThrough, cacheDisable, accessed, dirty, largePage, global, guardPage,
    persist]

def position : Flag → Nat
  | valid => 0
  | write => 1
  | owner => 2
  | writeThrough => 3
  | cacheDisable => 4
  | accessed => 5
  | dirty => 6
  | largePage => 7
  | global => 8
  | guardPage => 9
  | persist => 10

def name : Flag → String
  | valid => "valid"
  | write => "write"
  | owner => "owner"
  | writeThrough => "write_through"
  | cacheDisable => "cache_disable"
  | accessed => "accessed"
  | dirty => "dirty"
  | largePage => "large_page"
  | global => "global"
  | guardPage => "guard_or_end_of_allocation"
  | persist => "persist"

theorem position_lt (f : Flag) : f.position < 11 := by cases f <;> decide

def field (f : Flag) : BitField :=
  ⟨f.position, 1, by have := f.position_lt; omega⟩

/-- The word in which only this flag is set. -/
def mask (f : Flag) : Nat := 1 <<< f.position

theorem position_injective {f g : Flag} (h : f.position = g.position) : f = g := by
  cases f <;> cases g <;> first | rfl | cases h

end Flag

def frameField : BitField := ⟨12, 20, by decide⟩

def zero : Entry := ⟨0⟩

def isZero (e : Entry) : Bool := e.bits == 0

def has (e : Entry) (f : Flag) : Bool := f.field.isSet e.bits

def valid (e : Entry) : Bool := e.has .valid

def isLarge (e : Entry) : Bool := e.has .largePage

/-- A valid entry that names a page table. -/
def namesTable (e : Entry) : Bool := e.valid && !e.isLarge

def withFlag (e : Entry) (f : Flag) (b : Bool) : Entry := ⟨f.field.put e.bits b⟩

/-- The page frame that the entry names. -/
def frame (e : Entry) : Nat := frameField.read e.bits

def withFrame (e : Entry) (p : Nat) : Except Abort Entry := do
  return ⟨← frameField.checkedWrite e.bits p⟩

def withWriteCombine (e : Entry) : Entry :=
  (e.withFlag .cacheDisable false).withFlag .writeThrough true

def withCachingDisabled (e : Entry) : Entry :=
  (e.withFlag .cacheDisable true).withFlag .writeThrough true

def isWriteCombined (e : Entry) : Bool := e.has .writeThrough && !e.has .cacheDisable

def isUncached (e : Entry) : Bool := e.has .writeThrough && e.has .cacheDisable

/-- Flags of a valid kernel page table entry. -/
def kernelPageBits : Nat :=
  Flag.valid.mask + Flag.write.mask + Flag.accessed.mask + Flag.dirty.mask

/-- Flags of a valid directory entry. -/
def kernelTableBits : Nat := kernelPageBits + Flag.owner.mask

/-- A valid entry that maps page frame `p` for the kernel. -/
def kernelPage (p : Nat) : Except Abort Entry :=
  (⟨.ofNat kernelPageBits⟩ : Entry).withFrame p

/-- A valid directory entry for the page table in page frame `p`. -/
def kernelTable (p : Nat) : Except Abort Entry :=
  (⟨.ofNat kernelTableBits⟩ : Entry).withFrame p

/-- The flags that say how a page may be accessed. -/
def protectionBits : Nat :=
  Flag.valid.mask + Flag.write.mask + Flag.writeThrough.mask + Flag.cacheDisable.mask +
    Flag.guardPage.mask

def protection (e : Entry) : Nat := e.bits.toNat &&& protectionBits

def text (e : Entry) : String :=
  let flags := Flag.all.map fun f => s!"{f.name}: {e.has f}"
  "MmPte \x7b " ++ ", ".intercalate (flags ++ [s!"pfn_bits: {e.frame}"]) ++ " \x7d"

theorem Flag.field_disjoint {f g : Flag} (h : f ≠ g) : f.field.Disjoint g.field := by
  have : f.position ≠ g.position := fun e => h (Flag.position_injective e)
  change f.position + 1 ≤ g.position ∨ g.position + 1 ≤ f.position
  omega

theorem Flag.field_disjoint_frame (f : Flag) : f.field.Disjoint frameField :=
  Or.inl (Nat.le_trans (Nat.succ_le_of_lt f.position_lt) (by decide))

theorem has_withFlag (e : Entry) (f : Flag) (b : Bool) : (e.withFlag f b).has f = b := by
  have h : f.field.read (f.field.put e.bits b) = b.toNat :=
    BitField.read_write f.field e.bits (Nat.lt_succ_of_le b.toNat_le)
  rw [has, withFlag, BitField.isSet, h]
  cases b <;> rfl

theorem has_withFlag_of_ne (e : Entry) {f g : Flag} (h : f ≠ g) (b : Bool) :
    (e.withFlag g b).has f = e.has f := by
  rw [has, has, BitField.isSet, BitField.isSet, withFlag, BitField.put,
    BitField.read_write_of_disjoint (Flag.field_disjoint h)]

example : (kernelTable 0xF).toOption = some ⟨0xF067⟩ := by decide +kernel

end Entry

end ConsoleMemory
