import ConsoleMemory.Guest.Memory
import ConsoleMemory.Proofs.Guest.Walk

/-!
# Remembered translations

A buffer lies within a map of pages if it remembers nothing else. While that map
is part of the walk, an access comes to the same whatever is remembered: it
finds the page that the walk finds, and the buffer stays within the walk.
-/

namespace ConsoleMemory

/-- Installed pages for virtual ones. -/
abbrev PageMap := Nat → Option Nat

namespace PageMap

variable {V W : PageMap}

def Le (W V : PageMap) : Prop := ∀ n p, W n = some p → V n = some p

lemma Le.refl (W : PageMap) : W.Le W := fun _ _ h => h

/-- The map without the virtual pages `[first, last]`. -/
def off (W : PageMap) (first last : Nat) : PageMap :=
  fun n => if first ≤ n ∧ n ≤ last then none else W n

lemma off_le {first last : Nat} (h : ∀ n p, (n < first ∨ last < n) → W n = some p → V n = some p) :
    (W.off first last).Le V := by
  intro n p hp
  unfold off at hp
  split at hp
  · cases hp
  · next outside => exact h n p (by omega) hp

end PageMap

/-- What the buffer remembers is part of the map. -/
def Tlb.Within (t : Tlb) (W : PageMap) : Prop :=
  ∀ n place, t.find? n = some place → ∃ p, W n = some p ∧ place = .ofNat (p * 4096)

/-- What is remembered after a lookup is new, or it was remembered before. -/
lemma Tlb.find?_remember_cases {t : Tlb} {m n : Nat} {place found : PhysicalAddress}
    (h : (t.remember n place).find? m = some found) :
    m = n ∧ found = place ∨ t.find? m = some found := by
  cases t with
  | counting flushes => cases h
  | caching entries =>
    rw [find?_remember] at h
    split at h
    · next same =>
      cases h
      exact Or.inl ⟨same, rfl⟩
    · exact Or.inr h

namespace Tlb.Within

variable {t : Tlb} {V W : PageMap} {n p : Nat}

lemma mono (h : t.Within W) (le : W.Le V) : t.Within V := by
  intro n place found
  obtain ⟨p, hp, rfl⟩ := h n place found
  exact ⟨p, le n p hp, rfl⟩

lemma counting (flushes : Nat) (W : PageMap) : (Tlb.counting flushes).Within W := nofun

lemma flush (h : t.Within W) (first last : Nat) :
    (t.flush first last).Within (W.off first last) := by
  intro n place found
  rw [find?_flush] at found
  unfold PageMap.off
  split at found
  · cases found
  · next outside =>
    rw [if_neg outside]
    exact h n place found

lemma remember (h : t.Within W) (known : W n = some p) :
    (t.remember n (.ofNat (p * 4096))).Within W := by
  intro m place found
  rcases find?_remember_cases found with ⟨rfl, rfl⟩ | before
  · exact ⟨p, known, rfl⟩
  · exact h m place before

end Tlb.Within

namespace GuestMemory

variable {r : Ram} {t : Tlb} {va : VirtualAddress} {W : PageMap} {p i : Nat} {w : UInt32}

/-- An address on a page that is remembered is found in that page of memory. -/
lemma locate_known (found : t.find? (va.pageNumber .small) = some (.ofNat (p * 4096))) :
    ((⟨r, t⟩ : GuestMemory).locate va).run =
      .ok (.ok (.ofNat (p * 4096 + va.offset .small), ⟨r, t⟩)) := by
  have place : (Address.ofNat (p * 4096) + va.offset .small : PhysicalAddress) =
      .ofNat (p * 4096 + va.offset .small) := by
    apply Address.ext
    rw [Address.toNat_add, Address.toNat_ofNat, Address.toNat_ofNat]
    omega
  unfold locate
  rw [found, ← place]
  rfl

/-- An address on a page that is not remembered is found where the walk leads to, which is
remembered from then on. -/
lemma locate_walked (large : 0xF < r.pages) (unknown : t.find? (va.pageNumber .small) = none)
    (mapped : r.walk (va.pageNumber .small) = some p) : ((⟨r, t⟩ : GuestMemory).locate va).run =
      .ok (.ok (.ofNat (p * 4096 + va.offset .small),
        ⟨r, t.remember (va.pageNumber .small) (.ofNat (p * 4096))⟩)) := by
  have inside := Ram.walk_lt mapped
  have few := r.pages_le
  have offset := va.offset_lt
  have down : (.ofNat (p * 4096 + va.offset .small) : PhysicalAddress).alignDown .small =
      .ofNat (p * 4096) := by
    ext
    rw [Address.toNat_alignDown, Address.pageNumber, Address.toNat_ofNat, Address.toNat_ofNat,
      PageSize.bytes]
    omega
  unfold locate
  rw [unknown]
  dsimp only
  rw [Ram.translate_of_walk large mapped, ← down]
  rfl

/-- Without a buffer an address is found where the walk leads to. -/
lemma locate_counting {flushes : Nat} (large : 0xF < r.pages)
    (mapped : r.walk (va.pageNumber .small) = some p) :
    ((⟨r, .counting flushes⟩ : GuestMemory).locate va).run =
      .ok (.ok (.ofNat (p * 4096 + va.offset .small), ⟨r, .counting flushes⟩)) :=
  locate_walked large rfl mapped

/-- An address is found where the walk leads to, remembered or not, if that is where the map leads
to. -/
lemma locate_same (large : 0xF < r.pages) (within : t.Within W)
    (same : W (va.pageNumber .small) = some p)
    (mapped : r.walk (va.pageNumber .small) = some p) :
    ∃ t', ((⟨r, t⟩ : GuestMemory).locate va).run =
        .ok (.ok (.ofNat (p * 4096 + va.offset .small), ⟨r, t'⟩)) ∧ t'.Within W := by
  cases found : t.find? (va.pageNumber .small) with
  | some place =>
    obtain ⟨q, known, rfl⟩ := within _ _ found
    cases known.symm.trans same
    exact ⟨t, locate_known found, within⟩
  | none => exact ⟨_, locate_walked large found mapped, within.remember same⟩

/-- An address on a page that the walk maps is found there, remembered or not. -/
lemma locate_ok (large : 0xF < r.pages) (within : t.Within W) (sound : W.Le r.walk)
    (mapped : r.walk (va.pageNumber .small) = some p) :
    ∃ t', ((⟨r, t⟩ : GuestMemory).locate va).run =
        .ok (.ok (.ofNat (p * 4096 + va.offset .small), ⟨r, t'⟩)) ∧ t'.Within r.walk :=
  locate_same large (within.mono sound) mapped mapped

/-- A walk that fails is not remembered. -/
lemma locate_failed (unknown : t.find? (va.pageNumber .small) = none)
    {fault : PageFault} (failed : (r.translate va).run = .ok (.error fault)) :
    ((⟨r, t⟩ : GuestMemory).locate va).run = .ok (.error fault) := by
  have failed' : r.translate va = .ok (.error fault) := failed
  unfold locate
  rw [unknown]
  dsimp only
  rw [failed']
  rfl

lemma locate_fault (within : t.Within W) (unmapped : W (va.pageNumber .small) = none)
    {fault : PageFault} (failed : (r.translate va).run = .ok (.error fault)) :
    ((⟨r, t⟩ : GuestMemory).locate va).run = .ok (.error fault) := by
  cases found : t.find? (va.pageNumber .small) with
  | some place =>
    obtain ⟨q, known, _⟩ := within _ _ found
    cases known.symm.trans unmapped
  | none => exact locate_failed found failed

/-! ### Words -/

lemma pieceLength_four (aligned : va.offset .small = i * 4) (hi : i < 1024) :
    pieceLength va 4 = 4 := by
  rw [pieceLength, aligned, MemoryMap.pageBytes]
  omega

/-- The word at an address that the walk maps is read from its place in memory. -/
theorem readWord_eq (large : 0xF < r.pages) (within : t.Within W) (sound : W.Le r.walk)
    (mapped : r.walk (va.pageNumber .small) = some p) (aligned : va.offset .small = i * 4)
    (hi : i < 1024) :
    ∃ t', (⟨r, t⟩ : GuestMemory).readWord va = .ok (.ok (r.word p i), ⟨r, t'⟩) ∧
      t'.Within r.walk := by
  obtain ⟨t', located, within'⟩ := locate_ok large within sound mapped
  refine ⟨t', ?_, within'⟩
  have inside := Ram.walk_lt mapped
  have few := r.pages_le
  have size := r.size_eq
  have place : (.ofNat (p * 4096 + i * 4) : PhysicalAddress).toNat = p * 4096 + i * 4 := by
    rw [Address.toNat_ofNat]
    omega
  have bytes : r.read (.ofNat (p * 4096 + i * 4)) 4 = .ok (r.slice (p * 4096 + i * 4) 4) := by
    rw [Ram.read, Ram.requireInside_eq (by omega), place]
    rfl
  rw [aligned] at located
  unfold readWord read readPieces
  simp only [located, bind, Except.bind, pieceLength_four aligned hi, bytes, pure, Except.pure]
  have done : readPieces 3 ⟨r, t'⟩ (va + 4) (Nat.succ 3 - 4) = .ok ⟨[], none, ⟨r, t'⟩⟩ := rfl
  simp only [done, List.append_nil, Ram.word]

/-- A word is written to its place in memory. What is remembered is part of the walk before. -/
theorem writeWord_eq (large : 0xF < r.pages) (within : t.Within W) (sound : W.Le r.walk)
    (mapped : r.walk (va.pageNumber .small) = some p) (aligned : va.offset .small = i * 4)
    (hi : i < 1024) :
    ∃ t', (⟨r, t⟩ : GuestMemory).writeWord va w = .ok ⟨none, ⟨r.setWord p i w, t'⟩⟩ ∧
      t'.Within r.walk := by
  obtain ⟨t', located, within'⟩ := locate_ok large within sound mapped
  refine ⟨t', ?_, within'⟩
  have inside := Ram.walk_lt mapped
  have few := r.pages_le
  have place : (.ofNat (p * 4096 + i * 4) : PhysicalAddress).toNat = p * 4096 + i * 4 := by
    rw [Address.toNat_ofNat]
    omega
  have stored : r.write (.ofNat (p * 4096 + i * 4)) (LittleEndian.encode w) =
      .ok (r.setWord p i w) := Ram.writeWord_eq place inside hi
  rw [aligned] at located
  have piece := pieceLength_four aligned hi
  unfold writeWord write
  simp only [LittleEndian.encode, List.length_cons, List.length_nil] at stored ⊢
  unfold writePieces
  simp only [located, bind, Except.bind, List.length_cons, List.length_nil, piece, List.take,
    List.drop, stored, writePieces]

end GuestMemory

end ConsoleMemory
