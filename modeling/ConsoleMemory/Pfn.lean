import ConsoleMemory.Address.Basic

/-!
Page frame numbers. A frame is 4 KiB of physical memory and is known by its number. Numbers are
32-bit words; the base of a frame keeps only the low twenty bits of the number, since no address
reaches further. Free pages come in blocks, which are runs of consecutive frames.
-/

namespace ConsoleMemory

namespace Pfn

/-- First physical address of frame `p`. -/
def base (p : Nat) : PhysicalAddress := Address.ofPageNumber .small p

/-- The frame that holds a physical address. -/
def containing (a : PhysicalAddress) : Nat := a.pageNumber .small

def text (p : Nat) : String := Text.hex 5 p

def taggedText (p : Nat) : String := s!"Pfn({text p})"

theorem toNat_base (p : Nat) : (base p).toNat = p * 4096 % 0x100000000 := Address.toNat_ofNat _

theorem containing_base {p : Nat} (h : p < 0x100000) : containing (base p) = p := by
  change (base p).toNat / 4096 = p
  rw [toNat_base]
  omega

end Pfn

/-- Powers of two are the alignments that an allocation can ask for; zero is none of them. -/
def isPowerOfTwo (n : Nat) : Bool := n != 0 && n &&& (n - 1) == 0

/-- A run of consecutive page frames. -/
structure Block where
  start : Nat
  size : Nat
deriving DecidableEq, Repr

namespace Block

/-- The pages of the block, in order. -/
def pages (b : Block) : List Nat := List.range' b.start b.size

instance : Membership Nat Block := ⟨fun b p => b.start ≤ p ∧ p < b.start + b.size⟩

theorem mem_def {b : Block} {p : Nat} : p ∈ b ↔ b.start ≤ p ∧ p < b.start + b.size := Iff.rfl

theorem mem_pages {b : Block} {p : Nat} : p ∈ b.pages ↔ p ∈ b := by
  rw [pages, List.mem_range'_1, mem_def]

def text (b : Block) : String :=
  "FreeBlock \x7b start: " ++ Pfn.taggedText b.start ++ ", size: " ++ toString b.size ++ " \x7d"

end Block

end ConsoleMemory
