import ConsoleMemory.Proofs.FreeList.History

/-!
# No page is returned twice

A return is refused as a double free exactly where it holds a page that is free
already. Only the two blocks around the start of the range are looked at; that
they ascend and keep apart makes the check complete for all the others.
-/

namespace ConsoleMemory.FreeList

variable {highest first last : Nat} {boundary : Option Nat} {l start : FreeList} {S : Finset Nat}
  {events : List Event} {b : Block}

/-- The return of the pages `[first, last]` ends because they overlap the free block `b`. -/
def Refuses (l : FreeList) (first last : Nat) (b : Block) : Prop :=
  l.insert first last = .error (.fatal (.doubleFree first last b))

lemma Keeps.mem_iff {p : Nat} (h : l.Keeps S) : p ∈ l ↔ p ∈ S := (h.runs.mem p).symm

/-- The check is sound: the block that is named is free, and the range meets it. -/
lemma Keeps.overlap_of_refuses (h : l.Keeps S) (le : first ≤ last) (inside : last < l.pageCount)
    (refused : l.Refuses first last b) : b ∈ l.blocks ∧ ∃ p ∈ b, first ≤ p ∧ p ≤ last := by
  rcases insert_outcome h le inside with ⟨_, d, mem, overlap, clash⟩ | ⟨_, returned | full⟩
  · cases clash.symm.trans refused
    exact ⟨mem, overlap⟩
  · obtain ⟨⟨_, eq, _⟩, _⟩ := returned
    cases eq.symm.trans refused
  · obtain ⟨⟨_, eq⟩, _⟩ := full
    cases eq.symm.trans refused

/-- The check is complete: wherever a free page of the range lies, some block is named. -/
lemma Keeps.refuses_of_mem {p : Nat} (h : l.Keeps S) (inside : last < l.pageCount) (free : p ∈ S)
    (low : first ≤ p) (high : p ≤ last) : ∃ b, l.Refuses first last b := by
  rcases insert_outcome h (low.trans high) inside with ⟨_, b, _, _, clash⟩ | ⟨disjoint, _⟩
  · exact ⟨b, clash⟩
  · exact absurd free (disjoint p low high)

/-- After every history, returning a range is refused as a double free exactly where some page of it
is free, and then a free block that the range meets is named. -/
theorem insert_catches_double_free (new : IsNew highest boundary S start)
    (run : Reaches start events l) (le : first ≤ last) (inside : last ≤ highest) :
    ((∃ b, l.Refuses first last b) ↔ ∃ p ∈ l, first ≤ p ∧ p ≤ last) ∧
      (∀ p, p ∈ l ↔ p ∈ pagesAfter S events) ∧
      ∀ b, l.Refuses first last b → b ∈ l.blocks ∧ ∃ p ∈ b, first ≤ p ∧ p ≤ last := by
  obtain ⟨new_keeps, new_count, _⟩ := new.keeps new.small
  obtain ⟨keeps, count, _⟩ := run.keeps new_keeps
  have within : last < l.pageCount := by omega
  refine ⟨?_, fun p => keeps.mem_iff, fun b => keeps.overlap_of_refuses le within⟩
  constructor
  · rintro ⟨b, refused⟩
    obtain ⟨mem, p, shared, low, high⟩ := keeps.overlap_of_refuses le within refused
    exact ⟨p, ⟨b, mem, shared⟩, low, high⟩
  · rintro ⟨p, free, low, high⟩
    exact keeps.refuses_of_mem within (keeps.mem_iff.mp free) low high

/-- A range that swallows two blocks, of which the upper one is not next to where it starts. -/
theorem insert_catches_double_free_sixteen :
    ∃ start l, IsNew 15 (some 8) (Finset.range 16) start ∧
      Reaches start [.taken 1 2, .taken 6 3, .taken 12 4] l ∧
      l.blocks = [⟨0, 1⟩, ⟨3, 3⟩, ⟨9, 3⟩] ∧ 1 ≤ 14 ∧ 14 ≤ 15 ∧ 9 ∈ l ∧
      ∃ b, l.Refuses 1 14 b := by
  have new : IsNew 15 (some 8) (Finset.range 16)
      ⟨Chain.empty.pushFront ⟨0, 16⟩, 16, some 8, 8, 8⟩ := Or.inr ⟨rfl, rfl⟩
  obtain ⟨l, run, blocks⟩ : ∃ l, Reaches ⟨Chain.empty.pushFront ⟨0, 16⟩, 16, some 8, 8, 8⟩
      [.taken 1 2, .taken 6 3, .taken 12 4] l ∧ l.blocks = [⟨0, 1⟩, ⟨3, 3⟩, ⟨9, 3⟩] :=
    ⟨_, .take (r := ⟨2, 0, 1, 2⟩)
      (.take (r := ⟨3, 0, 6, 8⟩)
        (.take (r := ⟨4, 0, 12, 15⟩) .refl (Or.inl rfl) rfl) (Or.inl rfl) rfl) (Or.inl rfl) rfl,
      rfl⟩
  have free : 9 ∈ l := ⟨⟨9, 3⟩, by simp [blocks], by decide, by decide⟩
  have caught := (insert_catches_double_free new run (by decide : 1 ≤ 14)
    (by decide : 14 ≤ 15)).1.mpr ⟨9, free, by decide, by decide⟩
  exact ⟨_, l, new, run, blocks, by decide, by decide, free, caught⟩

end ConsoleMemory.FreeList
