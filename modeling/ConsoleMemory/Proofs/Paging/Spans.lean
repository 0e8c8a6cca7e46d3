import ConsoleMemory.Paging.SelfMap
import Mathlib.Data.Finset.Card
import Mathlib.Order.Interval.Finset.Nat
import Mathlib.Tactic.Lemma

/-!
# Pages touched by a range

The span count of a range is the number of pages that hold one of its addresses,
also where the range passes the end of the address space. The count rounds the
offset of the first address up together with the size, so an empty range that
begins inside a page is counted as one page although it has no address.
-/

namespace ConsoleMemory.VirtualAddress

variable {s : PageSize} {va : VirtualAddress} {size : Nat}

/-- The numbers of the pages that hold an address of `[va, va + size)`, not counted around the end
of the space. -/
def pagesTouched (s : PageSize) (va : VirtualAddress) (size : Nat) : Finset Nat :=
  (Finset.Ico va.toNat (va.toNat + size)).image (· / s.bytes)

/-- Number of the page that holds the last address of a range. -/
def lastPage (s : PageSize) (va : VirtualAddress) (size : Nat) : Nat :=
  (va.toNat + size - 1) / s.bytes

lemma mem_pagesTouched {p : Nat} :
    p ∈ va.pagesTouched s size ↔
      ∃ a, (va.toNat ≤ a ∧ a < va.toNat + size) ∧ a / s.bytes = p := by
  simp only [pagesTouched, Finset.mem_image, Finset.mem_Ico]

lemma pagesTouched_zero : va.pagesTouched s 0 = ∅ := by
  rw [pagesTouched, Nat.add_zero, Finset.Ico_self, Finset.image_empty]

/-- A range that is not empty touches every page from its first address to its last. -/
lemma pagesTouched_eq_Icc (pos : 0 < size) :
    va.pagesTouched s size = Finset.Icc (va.pageNumber s) (va.lastPage s size) := by
  have bytes_pos := s.bytes_pos
  ext p
  rw [mem_pagesTouched, Finset.mem_Icc, Address.pageNumber, lastPage]
  constructor
  · rintro ⟨a, ⟨low, high⟩, rfl⟩
    exact ⟨Nat.div_le_div_right low, Nat.div_le_div_right (by omega)⟩
  · rintro ⟨low, high⟩
    rcases low.eq_or_lt with first | later
    · exact ⟨va.toNat, ⟨le_rfl, by omega⟩, first⟩
    -- A later page begins inside the range.
    · have start : va.toNat < p * s.bytes := (Nat.div_lt_iff_lt_mul bytes_pos).mp later
      have stop : p * s.bytes ≤ va.toNat + size - 1 := (Nat.le_div_iff_mul_le bytes_pos).mp high
      exact ⟨p * s.bytes, ⟨start.le, by omega⟩, Nat.mul_div_cancel p bytes_pos⟩

lemma card_pagesTouched (pos : 0 < size) :
    (va.pagesTouched s size).card = va.lastPage s size + 1 - va.pageNumber s := by
  rw [pagesTouched_eq_Icc pos, Nat.card_Icc]

/-- The rounding, counted from the first page on. -/
lemma pagesSpanned_add_pageNumber (pos : 0 < size) :
    va.pagesSpanned s size + va.pageNumber s = va.lastPage s size + 1 := by
  have bytes_pos := s.bytes_pos
  have split : s.bytes * va.pageNumber s + va.offset s = va.toNat := Nat.div_add_mod _ _
  have rounded : va.offset s + size + s.offsetMask = va.offset s + size - 1 + s.bytes := by
    simp only [PageSize.offsetMask]
    omega
  have last : va.lastPage s size = va.pageNumber s + (va.offset s + size - 1) / s.bytes := by
    rw [lastPage, ← Nat.mul_add_div bytes_pos]
    congr 1
    omega
  rw [pagesSpanned, rounded, Nat.add_div_right _ bytes_pos, last]
  omega

lemma pagesSpanned_eq_card (pos : 0 < size) :
    va.pagesSpanned s size = (va.pagesTouched s size).card := by
  have total : va.pagesSpanned s size + va.pageNumber s = va.lastPage s size + 1 :=
    pagesSpanned_add_pageNumber pos
  rw [card_pagesTouched pos]
  omega

/-- An empty range counts as a page unless it begins where a page does. -/
lemma pagesSpanned_zero : va.pagesSpanned s 0 = if va.isAligned s then 0 else 1 := by
  have bytes_pos := s.bytes_pos
  have below : va.offset s < s.bytes := Nat.mod_lt _ bytes_pos
  rw [pagesSpanned, Nat.add_zero, PageSize.offsetMask]
  split
  · next aligned =>
    rw [eq_of_beq aligned, Nat.zero_add]
    exact Nat.div_eq_of_lt (by omega)
  · next oblique =>
    have inside : va.offset s ≠ 0 := fun zero => oblique (beq_iff_eq.mpr zero)
    exact Nat.div_eq_of_lt_le (by omega) (by omega)

/-- The span count is the number of pages touched just where the range is not empty or begins at the
start of a page. Any other range touches no page and is counted as one. -/
theorem pagesSpanned_counts_touched (s : PageSize) (va : VirtualAddress) (size : Nat) :
    (va.pagesSpanned s size = (va.pagesTouched s size).card ↔
      0 < size ∨ va.isAligned s = true) ∧
    va.pagesTouched s 0 = ∅ ∧ va.pagesSpanned s 0 = if va.isAligned s then 0 else 1 := by
  refine ⟨?_, pagesTouched_zero, pagesSpanned_zero⟩
  rcases Nat.eq_zero_or_pos size with rfl | pos
  · rw [pagesTouched_zero, Finset.card_empty, pagesSpanned_zero]
    simp
  · simp only [pos, true_or, iff_true]
    exact pagesSpanned_eq_card pos

/-- No address at all, and yet a page and a directory span. -/
theorem empty_range_spans_page :
    pagesSpanned .small (.ofNat 0xFFF) 0 = 1 ∧ pagesSpanned .large (.ofNat 0xFFF) 0 = 1 ∧
      (pagesTouched .small (.ofNat 0xFFF) 0).card = 0 ∧
      (pagesTouched .large (.ofNat 0xFFF) 0).card = 0 := by
  decide +kernel

end ConsoleMemory.VirtualAddress
