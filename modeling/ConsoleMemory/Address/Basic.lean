import ConsoleMemory.Address.PageSize
import ConsoleMemory.Text.Basic

/-!
32-bit addresses. The space an address belongs to is part of its type, so that a guest virtual
address is never used where a physical one is meant. Arithmetic wraps at the end of the space;
`checkedAdd` is the only operation that notices the wrap. An address splits into the base of its
page and an offset (`base_add_offset`). A virtual access that cannot be carried out ends in a page
fault.
-/

namespace ConsoleMemory

/-- What an address points into. -/
inductive Space where
  | memory
  | virtual
  | physical
deriving DecidableEq, Repr

structure Address (space : Space) where
  bits : UInt32
deriving DecidableEq, Repr

abbrev MemoryAddress := Address .memory
abbrev VirtualAddress := Address .virtual
abbrev PhysicalAddress := Address .physical

namespace Address

variable {space : Space}

def toNat (a : Address space) : Nat := a.bits.toNat

/-- The address with the given number, counted around the end of the space. -/
def ofNat (n : Nat) : Address space := ⟨UInt32.ofNat n⟩

@[simp] theorem toNat_ofNat (n : Nat) : (ofNat n : Address space).toNat = n % 0x100000000 :=
  UInt32.toNat_ofNat'

theorem toNat_lt (a : Address space) : a.toNat < 0x100000000 := a.bits.toNat_lt

@[ext] theorem ext {a b : Address space} (h : a.toNat = b.toNat) : a = b := by
  cases a
  cases b
  exact congrArg Address.mk (UInt32.toNat_inj.1 h)

@[simp] theorem ofNat_toNat (a : Address space) : ofNat a.toNat = a := by
  ext
  rw [toNat_ofNat, Nat.mod_eq_of_lt a.toNat_lt]

instance : HAdd (Address space) Nat (Address space) := ⟨fun a n => ofNat (a.toNat + n)⟩

instance : HSub (Address space) Nat (Address space) :=
  ⟨fun a n => ofNat (a.toNat + (0x100000000 - n % 0x100000000))⟩

theorem toNat_add (a : Address space) (n : Nat) : (a + n).toNat = (a.toNat + n) % 0x100000000 :=
  toNat_ofNat _

theorem toNat_sub (a : Address space) (n : Nat) :
    (a - n).toNat = (a.toNat + (0x100000000 - n % 0x100000000)) % 0x100000000 :=
  toNat_ofNat _

theorem add_sub_cancel (a : Address space) (n : Nat) : a + n - n = a := by
  ext
  have := a.toNat_lt
  rw [toNat_sub, toNat_add]
  omega

/-- Addition that refuses to wrap. -/
def checkedAdd (a : Address space) (n : Nat) : Option (Address space) :=
  if a.toNat + n < 0x100000000 then some (a + n) else none

/-! ### Pages -/

def pageNumber (s : PageSize) (a : Address space) : Nat := a.toNat / s.bytes

def offset (s : PageSize) (a : Address space) : Nat := a.toNat % s.bytes

/-- First address of the page with number `n`; a number beyond the last page counts around. -/
def ofPageNumber (s : PageSize) (n : Nat) : Address space := ofNat (n * s.bytes)

def alignDown (s : PageSize) (a : Address space) : Address space :=
  ofPageNumber s (a.pageNumber s)

/-- The next page boundary, the address itself if it is one; past the last page this is zero. -/
def alignUp (s : PageSize) (a : Address space) : Address space :=
  ofPageNumber s ((a.toNat + s.offsetMask) / s.bytes)

def isAligned (s : PageSize) (a : Address space) : Bool := a.offset s == 0

/-- The address `o` bytes into the page that holds `a`, for an offset inside a page. -/
def withOffset (s : PageSize) (a : Address space) (o : Nat) : Address space :=
  ofNat (a.pageNumber s * s.bytes + o)

theorem toNat_alignDown (s : PageSize) (a : Address space) :
    (a.alignDown s).toNat = a.pageNumber s * s.bytes := by
  have := a.toNat_lt
  have := Nat.div_mul_le_self a.toNat s.bytes
  simp only [alignDown, ofPageNumber, pageNumber, toNat_ofNat]
  exact Nat.mod_eq_of_lt (by omega)

theorem base_add_offset (s : PageSize) (a : Address space) :
    a.alignDown s + a.offset s = a := by
  ext
  rw [toNat_add, toNat_alignDown, pageNumber, offset, Nat.div_add_mod', Nat.mod_eq_of_lt a.toNat_lt]

/-! ### Text -/

def text (a : Address space) : String := Text.hex 8 a.toNat

/-- How a space is called in front of an address. -/
def tag : Space → String
  | .memory => "MemoryAddress"
  | .virtual => "VA"
  | .physical => "PA"

def taggedText (a : Address space) : String := s!"{tag space}({a.text})"

/-- The page that holds `a`, such as `0x81234000/4K`. -/
def pageText (s : PageSize) (a : Address space) : String :=
  s!"{(a.alignDown s).text}/{s.label}"

def taggedPageText (s : PageSize) (a : Address space) : String :=
  s!"MemoryPage<{s.label}>({(a.alignDown s).text})"

/-- An offset into a page of size `s`. -/
def offsetText (s : PageSize) (o : Nat) : String :=
  s!"Offset<{s.label}>({Text.hex 0 o})"

example : (ofNat 0x81234567 : MemoryAddress).pageText .small = "0x81234000/4K" := by decide +kernel

end Address

/-- Why a virtual access cannot be carried out; `virt` is where its failing piece starts. -/
inductive PageFault where
  /-- No valid entry maps the address. -/
  | notPresent (virt : VirtualAddress)
  /-- The walk left the installed memory at `phys`. -/
  | outsideRam (virt : VirtualAddress) (phys : PhysicalAddress)
deriving DecidableEq, Repr

namespace PageFault

/-- The virtual address that faulted. -/
def address : PageFault → VirtualAddress
  | notPresent virt => virt
  | outsideRam virt _ => virt

/-- The physical address that lies outside the installed memory. -/
def physical? : PageFault → Option PhysicalAddress
  | notPresent _ => none
  | outsideRam _ phys => some phys

def message : PageFault → String
  | notPresent virt => s!"no valid translation for {virt.text}"
  | outsideRam virt phys => s!"{virt.text} translates to {phys.text}, outside of guest RAM"

end PageFault

end ConsoleMemory
