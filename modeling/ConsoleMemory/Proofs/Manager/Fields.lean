import ConsoleMemory.Manager.Records
import ConsoleMemory.Paging.Entry
import Mathlib.Tactic.Lemma

/-!
# Entries and records, field by field

What the manager writes into page tables and into the PFN database is built by
putting values into fields. The other fields keep theirs.
-/

namespace ConsoleMemory

lemma BitField.write_put_write {f g : BitField} (w : UInt32) (v v' : Nat) (b : Bool) :
    f.write (g.put (f.write w v) b) v' = f.write (g.put w b) v' := by
  apply word_ext
  intro i
  simp only [put, testBit_write]
  split
  · rfl
  · rfl

lemma BitField.write_write {f : BitField} (w : UInt32) (v v' : Nat) :
    f.write (f.write w v) v' = f.write w v' := by
  apply word_ext
  intro i
  simp only [testBit_write]
  split
  · rfl
  · rfl

/-- A field that is given its own value stays as it is. -/
lemma BitField.write_read (f : BitField) (w : UInt32) : f.write w (f.read w) = w := by
  apply word_ext
  intro i
  rw [testBit_write]
  split
  · next inside =>
    have width : i - f.low < f.width := by omega
    rw [testBit_read, decide_eq_true width, Bool.true_and, Nat.add_sub_cancel' inside.1]
  · rfl

namespace Entry

variable {e : Entry} {p : Nat}

/-- The entry with another page frame. -/
def framed (e : Entry) (p : Nat) : Entry := ⟨frameField.write e.bits p⟩

lemma withFrame_eq (h : p < 0x100000) : e.withFrame p = .ok (e.framed p) := by
  have fits : p ≤ frameField.maximum := Nat.le_of_lt_succ h
  rw [withFrame, BitField.checkedWrite, if_pos fits]
  rfl

lemma frame_framed (h : p < 0x100000) : (e.framed p).frame = p :=
  BitField.read_write frameField e.bits h

lemma has_framed (f : Flag) : (e.framed p).has f = e.has f := by
  rw [has, has, BitField.isSet, BitField.isSet, framed,
    BitField.read_write_of_disjoint f.field_disjoint_frame]

lemma valid_framed : (e.framed p).valid = e.valid := has_framed .valid

lemma namesTable_framed : (e.framed p).namesTable = e.namesTable := by
  rw [namesTable, namesTable, valid_framed, isLarge, has_framed]
  rfl

lemma isZero_iff : e.isZero = true ↔ e = .zero := by
  rcases e with ⟨bits⟩
  simp [isZero, zero]

@[simp] lemma isZero_zero : zero.isZero = true := rfl

lemma valid_zero : zero.valid = false := by decide

lemma namesTable_zero : zero.namesTable = false := by decide

lemma not_isZero_of_valid (h : e.valid = true) : e.isZero = false := by
  cases zero : e.isZero with
  | false => rfl
  | true =>
    rw [isZero_iff.mp zero, valid_zero] at h
    cases h

/-- The directory's entry for itself. -/
def selfMap : Entry := ⟨0xF063⟩

lemma namesTable_selfMap : selfMap.namesTable = true := by decide

lemma frame_selfMap : selfMap.frame = 0xF := by decide

lemma kernelPage_eq (h : p < 0x100000) :
    kernelPage p = .ok (framed ⟨.ofNat kernelPageBits⟩ p) := withFrame_eq h

lemma kernelPage_selfMap : kernelPage MemoryMap.pageDirectoryPage = .ok selfMap := by
  rw [kernelPage_eq (by decide)]
  exact congrArg Except.ok (by decide)

/-- The directory entry of a page table. -/
def tableEntry (p : Nat) : Entry := framed ⟨.ofNat kernelTableBits⟩ p

/-- The entry of a page of the PFN database. -/
def databaseEntry (p : Nat) : Entry :=
  ((⟨.ofNat kernelPageBits⟩ : Entry).withFlag .persist true).framed p

lemma kernelTable_eq (h : p < 0x100000) : kernelTable p = .ok (tableEntry p) := withFrame_eq h

lemma namesTable_tableEntry : (tableEntry p).namesTable = true := by
  rw [tableEntry, namesTable_framed]
  decide

lemma frame_tableEntry (h : p < 0x100000) : (tableEntry p).frame = p := frame_framed h

lemma valid_databaseEntry : (databaseEntry p).valid = true := by
  rw [databaseEntry, valid_framed]
  decide

lemma frame_databaseEntry (h : p < 0x100000) : (databaseEntry p).frame = p := frame_framed h

lemma namesTable_iff : e.namesTable = true ↔ e.valid = true ∧ ¬ e.isLarge = true := by
  simp [namesTable]

lemma valid_of_namesTable (h : e.namesTable = true) : e.valid = true := (namesTable_iff.mp h).1

end Entry

namespace PfnRecord

variable {r s : PfnRecord} {n : Nat} {t : PageType}

lemma busy_zero : zero.busy = false := by decide

lemma isBusyPageTable_iff :
    r.isBusyPageTable = true ↔ r.busy = true ∧ r.pageType.isPageTable = true := Bool.and_eq_true_iff

lemma isBusyPageTable_zero : zero.isBusyPageTable = false := by decide

lemma busy_busyAs (t : PageType) : (busyAs t).busy = true := by cases t <;> decide

lemma pageType_busyAs (t : PageType) : (busyAs t).pageType = t := pageType_withPageType _ t

/-- The record with another description. -/
def described (r : PfnRecord) (n : Nat) : PfnRecord := ⟨infoField.write r.bits n⟩

lemma busy_described : (r.described n).busy = r.busy := by
  rw [busy, busy, BitField.isSet, BitField.isSet, described,
    BitField.read_write_of_disjoint (by decide)]

lemma pageType_described : (r.described n).pageType = r.pageType := by
  rw [pageType, pageType, typeCode, typeCode, described,
    BitField.read_write_of_disjoint (by decide)]

lemma entriesUsed_described (h : n < 2048) : (r.described n).entriesUsed = n :=
  BitField.read_write infoField r.bits h

lemma described_described (m : Nat) : (r.described m).described n = r.described n :=
  congrArg PfnRecord.mk (BitField.write_write r.bits m n)

lemma described_entriesUsed (r : PfnRecord) : r.described r.entriesUsed = r :=
  congrArg PfnRecord.mk (BitField.write_read infoField r.bits)

lemma withEntriesUsed_eq (h : n < 2048) : r.withEntriesUsed n = .ok (r.described n) := by
  have fits : n ≤ infoField.maximum := Nat.le_of_lt_succ h
  rw [withEntriesUsed, BitField.checkedWrite, if_pos fits]
  rfl

lemma withEntryIndex_eq (h : n < 1024) :
    r.withEntryIndex n = .ok (r.described (r.info % 2 + n * 2)) := by
  have fits : r.info % 2 + n * 2 ≤ infoField.maximum :=
    Nat.le_of_lt_succ (by
      change _ < 2048
      omega)
  have small : decide (n < MemoryMap.entriesPerPage) = true := decide_eq_true h
  rw [withEntryIndex, BitField.checkedWrite, if_pos fits, small]
  rfl

end PfnRecord

end ConsoleMemory
