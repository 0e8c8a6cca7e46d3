import ConsoleMemory.Bits.Field
import ConsoleMemory.Frames.PageType

/-!
A record of the PFN database, one word per page. Bits 0 to 15 count locks, bit 16 says that the
page is busy, bits 17 to 27 describe the page and bits 28 to 31 hold its type. The description has
two readings: for a page table the number of its entries in use, for any other page twice the index
of the entry that maps it.
-/

namespace ConsoleMemory

structure PfnRecord where
  bits : UInt32
deriving DecidableEq, Repr

namespace PfnRecord

def lockCountField : BitField := ⟨0, 16, by decide⟩
def busyField : BitField := ⟨16, 1, by decide⟩
def infoField : BitField := ⟨17, 11, by decide⟩
def typeField : BitField := ⟨28, 4, by decide⟩

/-- The record of a page that is not busy. -/
def zero : PfnRecord := ⟨0⟩

def isZero (r : PfnRecord) : Bool := r.bits == 0

def lockCount (r : PfnRecord) : Nat := lockCountField.read r.bits

def busy (r : PfnRecord) : Bool := busyField.isSet r.bits

def info (r : PfnRecord) : Nat := infoField.read r.bits

def typeCode (r : PfnRecord) : Nat := typeField.read r.bits

/-- The stored page type; a code that names no type reads as unknown. -/
def pageType (r : PfnRecord) : PageType := (PageType.ofCode? r.typeCode).getD .unknown

/-- Entries in use, of the page table that the page holds. -/
def entriesUsed (r : PfnRecord) : Nat := r.info

/-- Index, within its page table, of the entry that maps the page. -/
def entryIndex (r : PfnRecord) : Nat := r.info / 2

def isBusyPageTable (r : PfnRecord) : Bool := r.busy && r.pageType.isPageTable

def withLockCount (r : PfnRecord) (n : Nat) : PfnRecord := ⟨lockCountField.write r.bits n⟩

def withBusy (r : PfnRecord) (b : Bool) : PfnRecord := ⟨busyField.put r.bits b⟩

def withPageType (r : PfnRecord) (t : PageType) : PfnRecord := ⟨typeField.write r.bits t.code⟩

/-- A busy page of type `t`, all else zero. -/
def busyAs (t : PageType) : PfnRecord := (zero.withBusy true).withPageType t

def text (r : PfnRecord) : String :=
  "XboxPfn \x7b lock_count: " ++ toString r.lockCount ++ ", busy: " ++ toString r.busy ++
    ", frame_info: " ++ toString r.info ++ ", busy_type_bits: " ++ toString r.typeCode ++ " \x7d"

theorem pageType_withPageType (r : PfnRecord) (t : PageType) :
    (r.withPageType t).pageType = t := by
  have h : (r.withPageType t).typeCode = t.code :=
    BitField.read_write typeField r.bits (Nat.lt_trans t.code_lt (by decide))
  rw [pageType, h, PageType.ofCode?_code]
  rfl

example : (busyAs .systemPageTable).bits = 0x30010000 := by decide +kernel

end PfnRecord

end ConsoleMemory
