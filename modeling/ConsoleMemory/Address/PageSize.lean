/-!
The two page sizes of the machine. Every size is a power of two that divides the address space,
so a page number and an offset determine an address.
-/

namespace ConsoleMemory

inductive PageSize where
  | small
  | large
deriving DecidableEq, Repr

namespace PageSize

def shift : PageSize → Nat
  | small => 12
  | large => 22

def bytes : PageSize → Nat
  | small => 0x1000
  | large => 0x400000

/-- The bits of an address that lie inside a page. -/
def offsetMask (s : PageSize) : Nat := s.bytes - 1

def label : PageSize → String
  | small => "4K"
  | large => "4M"

theorem bytes_eq (s : PageSize) : s.bytes = 1 <<< s.shift := by cases s <;> rfl

theorem bytes_pos (s : PageSize) : 0 < s.bytes := by cases s <;> decide

example : small.bytes = 4096 ∧ large.bytes = 1024 * small.bytes := by decide

end PageSize

end ConsoleMemory
