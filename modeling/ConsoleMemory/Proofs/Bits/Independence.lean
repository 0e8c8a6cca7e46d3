import ConsoleMemory.Proofs.Bits.Packing
import ConsoleMemory.Proofs.Manager.Fields

/-!
# The fields of entries and records are independent

The fields of an entry, and those of a record, make up a word from its lowest bit
to its highest. Every change of a field is read back and moves no other bit, and a
value that its field cannot hold is refused. The description of a record is read in
two ways; a change in either leaves the rest of the record alone, and a change of
the index also the bit below it.
-/

namespace ConsoleMemory

open BitField

/-! ### Entries -/

namespace Entry

variable {e e' : Entry} {p : Nat}

/-- Bit 11, which has no meaning. -/
def unusedField : BitField := ⟨11, 1, by decide⟩

/-- Bits 3 and 4, which together say how a page is cached. -/
def cachingField : BitField := ⟨3, 2, by decide⟩

/-- All of an entry, the lowest bit first. -/
def fields : List BitField := Flag.all.map Flag.field ++ [unusedField, frameField]

def unused (e : Entry) : Bool := unusedField.isSet e.bits

/-- Every change of the entry is read back and stays in its field; what does not fit is refused.
The flags, the frame and the unused bit are all that there is to the entry. -/
structure KeepsApart (e : Entry) : Prop where
  flag : ∀ f b, (e.withFlag f b).has f = b ∧ f.field.SameOutside (e.withFlag f b).bits e.bits
  frame : ∀ p ≤ 0xFFFFF, ∃ e', e.withFrame p = .ok e' ∧ e'.frame = p ∧
    frameField.SameOutside e'.bits e.bits
  largeFrame : ∀ p > 0xFFFFF, e.withFrame p = .error (.refused (.outOfBounds 0xFFFFF))
  writeCombine : e.withWriteCombine.isWriteCombined = true ∧
    e.withWriteCombine.isUncached = false ∧
    cachingField.SameOutside e.withWriteCombine.bits e.bits
  cachingDisabled : e.withCachingDisabled.isUncached = true ∧
    e.withCachingDisabled.isWriteCombined = false ∧
    cachingField.SameOutside e.withCachingDisabled.bits e.bits
  determined : ∀ e', e' = e ↔
    (∀ f, e'.has f = e.has f) ∧ e'.unused = e.unused ∧ e'.frame = e.frame

lemma packed_fields : Packed 0 fields := by decide

lemma sameOutside_withFlag (e : Entry) (f : Flag) (b : Bool) :
    f.field.SameOutside (e.withFlag f b).bits e.bits := sameOutside_write _ _ _

lemma withFrame_of_lt (large : 0xFFFFF < p) :
    e.withFrame p = .error (.refused (.outOfBounds 0xFFFFF)) := by
  have refused : frameField.checkedWrite e.bits p = .error (.refused (.outOfBounds 0xFFFFF)) :=
    checkedWrite_of_lt large
  rw [withFrame, refused]
  rfl

/-- The entry with both flags of caching replaced. -/
def cached (e : Entry) (cacheDisable writeThrough : Bool) : Entry :=
  (e.withFlag .cacheDisable cacheDisable).withFlag .writeThrough writeThrough

lemma has_cacheDisable_cached (e : Entry) (c t : Bool) : (e.cached c t).has .cacheDisable = c := by
  rw [cached, has_withFlag_of_ne _ (by decide), has_withFlag]

lemma has_writeThrough_cached (e : Entry) (c t : Bool) :
    (e.cached c t).has .writeThrough = t := has_withFlag _ _ _

lemma isWriteCombined_cached (e : Entry) (c t : Bool) :
    (e.cached c t).isWriteCombined = (t && !c) := by
  rw [isWriteCombined, has_cacheDisable_cached, has_writeThrough_cached]

lemma isUncached_cached (e : Entry) (c t : Bool) : (e.cached c t).isUncached = (t && c) := by
  rw [isUncached, has_cacheDisable_cached, has_writeThrough_cached]

lemma sameOutside_cached (e : Entry) (c t : Bool) :
    cachingField.SameOutside (e.cached c t).bits e.bits := by
  have upper : cachingField.SameOutside (e.withFlag .cacheDisable c).bits e.bits :=
    (sameOutside_withFlag e .cacheDisable c).mono (by decide)
  have lower : cachingField.SameOutside (e.cached c t).bits (e.withFlag .cacheDisable c).bits :=
    (sameOutside_withFlag _ .writeThrough t).mono (by decide)
  exact lower.trans upper

lemma eq_iff_fields :
    e' = e ↔ (∀ f, e'.has f = e.has f) ∧ e'.unused = e.unused ∧ e'.frame = e.frame := by
  constructor
  · rintro rfl
    exact ⟨fun _ => rfl, rfl, rfl⟩
  · rintro ⟨flags, unused, frame⟩
    have same : ∀ f ∈ fields, f.read e'.bits = f.read e.bits := by
      intro f mem
      simp only [fields, List.mem_append, List.mem_map, List.mem_cons, List.not_mem_nil,
        or_false] at mem
      rcases mem with ⟨flag, _, rfl⟩ | rfl | rfl
      · exact (read_eq_iff_isSet_eq rfl).mpr (flags flag)
      · exact (read_eq_iff_isSet_eq rfl).mpr unused
      · exact frame
    have bits : e'.bits = e.bits := packed_fields.ext same
    exact congrArg Entry.mk bits

lemma keepsApart (e : Entry) : e.KeepsApart where
  flag f b := ⟨has_withFlag e f b, sameOutside_withFlag e f b⟩
  frame p fits :=
    ⟨e.framed p, withFrame_eq (by omega), frame_framed (by omega), sameOutside_write _ _ _⟩
  largeFrame _ large := withFrame_of_lt large
  writeCombine := ⟨isWriteCombined_cached e false true, isUncached_cached e false true,
    sameOutside_cached e false true⟩
  cachingDisabled := ⟨isUncached_cached e true true, isWriteCombined_cached e true true,
    sameOutside_cached e true true⟩
  determined _ := eq_iff_fields

end Entry

/-! ### Records -/

namespace PfnRecord

variable {r r' : PfnRecord} {n : Nat}

/-- Bits 18 to 27, the index of the entry that maps a page. The description has one bit more, the
lowest, which only a count uses. -/
def indexField : BitField := ⟨18, 10, by decide⟩

/-- All of a record, the lowest bit first. -/
def fields : List BitField := [lockCountField, busyField, infoField, typeField]

/-- The records differ in their descriptions alone. -/
structure SameButInfo (r r' : PfnRecord) : Prop where
  lockCount : r'.lockCount = r.lockCount
  busy : r'.busy = r.busy
  typeCode : r'.typeCode = r.typeCode
  pageType : r'.pageType = r.pageType

/-- Every change of the record is read back and stays in its field; what does not fit is refused.
The index is half of the count. The locks, the busy bit, the count and the code of the type are all
that there is to the record. The type stands for its code where the code names one. -/
structure KeepsApart (r : PfnRecord) : Prop where
  lockCount : ∀ n ≤ 0xFFFF, (r.withLockCount n).lockCount = n ∧
    lockCountField.SameOutside (r.withLockCount n).bits r.bits
  busy : ∀ b, (r.withBusy b).busy = b ∧ busyField.SameOutside (r.withBusy b).bits r.bits
  pageType : ∀ t, (r.withPageType t).pageType = t ∧
    typeField.SameOutside (r.withPageType t).bits r.bits
  entriesUsed : ∀ n ≤ 2047, ∃ r', r.withEntriesUsed n = .ok r' ∧ r'.entriesUsed = n ∧
    infoField.SameOutside r'.bits r.bits ∧ r.SameButInfo r'
  largeCount : ∀ n > 2047, r.withEntriesUsed n = .error (.refused (.outOfBounds 2047))
  entryIndex : ∀ n ≤ 1023, ∃ r', r.withEntryIndex n = .ok r' ∧ r'.entryIndex = n ∧
    indexField.SameOutside r'.bits r.bits ∧ r.SameButInfo r'
  largeIndex : ∀ n > 1023, r.withEntryIndex n = .error .assertion
  views : r.entryIndex = r.entriesUsed / 2 ∧ r.entryIndex = indexField.read r.bits
  determined : ∀ r', r' = r ↔ r'.lockCount = r.lockCount ∧ r'.busy = r.busy ∧
    r'.entriesUsed = r.entriesUsed ∧ r'.typeCode = r.typeCode
  named : r.typeCode < 11 → r.pageType.code = r.typeCode
  unnamed : 11 ≤ r.typeCode → r.pageType = .unknown

lemma packed_fields : Packed 0 fields := by decide

/-- A change inside the description changes nothing else that is read. -/
lemma sameButInfo (same : infoField.SameOutside r'.bits r.bits) : r.SameButInfo r' := by
  have code : r'.typeCode = r.typeCode := same.read_eq (by decide)
  have busy : r'.busy = r.busy := by
    rw [PfnRecord.busy, PfnRecord.busy]
    exact (read_eq_iff_isSet_eq rfl).mp (same.read_eq (by decide))
  refine ⟨same.read_eq (by decide), busy, code, ?_⟩
  rw [pageType, pageType, code]

/-! ### The two readings of the description -/

lemma withEntriesUsed_of_lt (large : 2047 < n) :
    r.withEntriesUsed n = .error (.refused (.outOfBounds 2047)) := by
  have refused : infoField.checkedWrite r.bits n = .error (.refused (.outOfBounds 2047)) :=
    checkedWrite_of_lt large
  rw [withEntriesUsed, refused]
  rfl

lemma withEntryIndex_of_lt (large : 1023 < n) : r.withEntryIndex n = .error .assertion := by
  have refused : decide (n < MemoryMap.entriesPerPage) = false := by
    rw [MemoryMap.entriesPerPage]
    exact decide_eq_false (by omega)
  rw [withEntryIndex, refused]
  rfl

/-- Without its lowest bit the description is the index. -/
lemma entryIndex_eq_read (r : PfnRecord) : r.entryIndex = indexField.read r.bits := by
  change (r.bits.toNat >>> 17) % 2048 / 2 = (r.bits.toNat >>> 18) % 1024
  rw [Nat.shiftRight_eq_div_pow, Nat.shiftRight_eq_div_pow]
  omega

/-- To describe a page by an index and the bit below it is to write the index. -/
lemma described_index (r : PfnRecord) (n : Nat) :
    r.described (r.info % 2 + n * 2) = ⟨indexField.write r.bits n⟩ := by
  refine congrArg PfnRecord.mk (word_ext fun i => ?_)
  rw [testBit_write, testBit_write]
  change (if 17 ≤ i ∧ i < 28 then (r.info % 2 + n * 2).testBit (i - 17) else _) =
    if 18 ≤ i ∧ i < 28 then n.testBit (i - 18) else _
  -- The lowest bit comes from the old description, and every higher one from the index.
  by_cases lowest : i = 17
  · subst lowest
    have bit : r.info.testBit 0 = r.bits.toNat.testBit 17 := testBit_read infoField r.bits 0
    have parity : (r.info % 2 + n * 2) % 2 = r.info % 2 := by omega
    rw [if_pos (by omega), if_neg (by omega), ← bit, Nat.sub_self, Nat.testBit_zero,
      Nat.testBit_zero, parity]
  · by_cases inside : 18 ≤ i ∧ i < 28
    · have half : (r.info % 2 + n * 2) / 2 = n := by omega
      have place : i - 17 = (i - 18) + 1 := by omega
      rw [if_pos (by omega), if_pos inside, place, Nat.testBit_succ, half]
    · rw [if_neg (by omega), if_neg inside]

lemma withEntryIndex_eq_write (small : n < 1024) :
    r.withEntryIndex n = .ok ⟨indexField.write r.bits n⟩ := by
  rw [withEntryIndex_eq small, described_index]

/-- The index is a part of the description. -/
lemma sameOutside_info (same : indexField.SameOutside r'.bits r.bits) :
    infoField.SameOutside r'.bits r.bits := same.mono (by decide)

/-! ### Records and their fields -/

lemma eq_iff_fields : r' = r ↔ r'.lockCount = r.lockCount ∧ r'.busy = r.busy ∧
    r'.entriesUsed = r.entriesUsed ∧ r'.typeCode = r.typeCode := by
  constructor
  · rintro rfl
    exact ⟨rfl, rfl, rfl, rfl⟩
  · rintro ⟨locks, busy, used, code⟩
    have same : ∀ f ∈ fields, f.read r'.bits = f.read r.bits := by
      intro f mem
      simp only [fields, List.mem_cons, List.not_mem_nil, or_false] at mem
      rcases mem with rfl | rfl | rfl | rfl
      · exact locks
      · exact (read_eq_iff_isSet_eq rfl).mpr busy
      · exact used
      · exact code
    have bits : r'.bits = r.bits := packed_fields.ext same
    exact congrArg PfnRecord.mk bits

lemma code_pageType (named : r.typeCode < 11) : r.pageType.code = r.typeCode := by
  have codes : ∀ n < 11, ((PageType.ofCode? n).getD .unknown).code = n := by decide
  exact codes r.typeCode named

lemma pageType_of_unnamed (unnamed : 11 ≤ r.typeCode) : r.pageType = .unknown := by
  have none : PageType.ofCode? r.typeCode = none := List.getElem?_eq_none unnamed
  rw [pageType, none]
  rfl

lemma keepsApart (r : PfnRecord) : r.KeepsApart where
  lockCount n fits :=
    ⟨read_write lockCountField r.bits (Nat.lt_succ_of_le fits), sameOutside_write _ _ _⟩
  busy b := ⟨isSet_put rfl r.bits b, sameOutside_write _ _ _⟩
  pageType t := ⟨pageType_withPageType r t, sameOutside_write _ _ _⟩
  entriesUsed n fits := by
    have same : infoField.SameOutside (r.described n).bits r.bits := sameOutside_write _ _ _
    exact ⟨r.described n, withEntriesUsed_eq (by omega), entriesUsed_described (by omega), same,
      sameButInfo same⟩
  largeCount _ large := withEntriesUsed_of_lt large
  entryIndex n fits := by
    have same : indexField.SameOutside (indexField.write r.bits n) r.bits :=
      sameOutside_write _ _ _
    refine ⟨⟨indexField.write r.bits n⟩, withEntryIndex_eq_write (by omega), ?_, same,
      sameButInfo (sameOutside_info same)⟩
    rw [entryIndex_eq_read]
    exact read_write indexField r.bits (Nat.lt_succ_of_le fits)
  largeIndex _ large := withEntryIndex_of_lt large
  views := ⟨rfl, entryIndex_eq_read r⟩
  determined _ := eq_iff_fields
  named := code_pageType
  unnamed := pageType_of_unnamed

end PfnRecord

/-- The fields of entries and of records follow one another through the whole word, and in every
word each of them is changed without touching another. -/
theorem fields_are_independent :
    (Packed 0 Entry.fields ∧ ∀ e : Entry, e.KeepsApart) ∧
      Packed 0 PfnRecord.fields ∧ ∀ r : PfnRecord, r.KeepsApart :=
  ⟨⟨Entry.packed_fields, Entry.keepsApart⟩, PfnRecord.packed_fields, PfnRecord.keepsApart⟩

/-- In words with all bits set: another frame leaves the twelve low bits set, the smallest frame
that does not fit is refused, and another index leaves the bit below it set. The type has a code
that names none. -/
theorem fields_are_independent_full :
    (let e : Entry := ⟨0xFFFFFFFF⟩
    0x12345 ≤ 0xFFFFF ∧ (∃ e', e.withFrame 0x12345 = .ok e' ∧ e'.bits = 0x12345FFF ∧
      e'.frame = 0x12345 ∧ Entry.frameField.SameOutside e'.bits e.bits) ∧
    0x100000 > 0xFFFFF ∧ e.withFrame 0x100000 = .error (.refused (.outOfBounds 0xFFFFF))) ∧
    (let r : PfnRecord := ⟨0xFFFFFFFF⟩
    0x3F5 ≤ 1023 ∧ (∃ r', r.withEntryIndex 0x3F5 = .ok r' ∧ r'.bits = 0xFFD7FFFF ∧
      r'.entryIndex = 0x3F5 ∧ PfnRecord.indexField.SameOutside r'.bits r.bits ∧
      r.SameButInfo r') ∧
    11 ≤ r.typeCode ∧ r.pageType = .unknown) := by
  obtain ⟨⟨_, entries⟩, _, records⟩ := fields_are_independent
  have entry := entries ⟨0xFFFFFFFF⟩
  have record := records ⟨0xFFFFFFFF⟩
  obtain ⟨e', framed, frame, outside⟩ := entry.frame 0x12345 (by decide)
  obtain ⟨r', described, index, rest, same⟩ := record.entryIndex 0x3F5 (by decide)
  have e_eq : e' = ⟨0x12345FFF⟩ := by
    cases framed.symm.trans (Entry.withFrame_eq (by decide))
    decide
  have r_eq : r' = ⟨0xFFD7FFFF⟩ := by
    cases described.symm.trans (PfnRecord.withEntryIndex_eq_write (by decide))
    decide
  refine ⟨⟨by decide, ⟨e', framed, ?_, frame, outside⟩, by decide, ?_⟩,
    ⟨by decide, ⟨r', described, ?_, index, rest, same⟩, by decide, ?_⟩⟩
  · rw [e_eq]
  · exact entry.largeFrame 0x100000 (by decide)
  · rw [r_eq]
  · exact record.unnamed (by decide)

end ConsoleMemory
