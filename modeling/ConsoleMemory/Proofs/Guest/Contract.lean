import ConsoleMemory.Proofs.Guest.Pieces

/-!
# When translations may be remembered

A program has to flush what it maps anew before its next virtual access. Then what a
buffer remembers is part of the walk whenever an access needs it.
-/

namespace ConsoleMemory

/-- One access to memory, by its own addresses or by virtual ones. -/
inductive Access where
  | poke (place : PhysicalAddress) (bytes : List UInt8)
  | wipe (place : PhysicalAddress) (length : Nat)
  | read (va : VirtualAddress) (length : Nat)
  | write (va : VirtualAddress) (bytes : List UInt8)
  | flush (first last : VirtualAddress)

namespace GuestMemory

/-- After the write every address is translated as before. -/
def Settles (m : GuestMemory) (va : VirtualAddress) (bytes : List UInt8) : Prop :=
  ∀ stored, m.write va bytes = .ok stored → stored.memory.ram.translate = m.ram.translate

/-- Whenever the write comes to a page, `T` is how that page is translated. -/
def Meets (T : VirtualAddress → Walk PhysicalAddress) (m : GuestMemory) (va : VirtualAddress)
    (bytes : List UInt8) : Prop :=
  ∀ k < bytes.length, k = 0 ∨ (va + k).offset .small = 0 →
    ∀ m', m.write va (bytes.take k) = .ok ⟨none, m'⟩ → m'.ram.translate (va + k) = T (va + k)

/-- Whenever the write comes to a page, that page is translated as before the write. -/
def Finds (m : GuestMemory) : VirtualAddress → List UInt8 → Prop := m.Meets m.ram.translate

end GuestMemory

namespace Access

open GuestMemory

/-- What an access gives: the bytes read before the first fault, and the fault. -/
abbrev Reply := List UInt8 × Option PageFault

def perform : Access → GuestMemory → Except Abort (Reply × GuestMemory)
  | poke place bytes, m => return (([], none), ← m.writeRam place bytes)
  | wipe place length, m => return (([], none), ← m.clearRam place length)
  | read va length, m => do
    let loaded ← m.read va length
    return ((loaded.bytes, loaded.fault), loaded.memory)
  | write va bytes, m => do
    let stored ← m.write va bytes
    return (([], stored.fault), stored.memory)
  | flush first last, m => return (([], none), m.flush first last)

/-- What is remembered of the page of `va` is forgotten. -/
def Flushes : Access → VirtualAddress → Prop
  | flush first last, va => first.pageNumber .small ≤ va.pageNumber .small ∧
    va.pageNumber .small ≤ last.pageNumber .small
  | _, _ => False

/-- Where a flush is due after an access that changes memory from `r` to `s`, if it was due at
`stale` before: also where addresses are translated anew, but not where the access flushes. -/
def Due (a : Access) (r s : Ram) (stale : VirtualAddress → Prop) (va : VirtualAddress) : Prop :=
  (stale va ∨ s.translate va ≠ r.translate va) ∧ ¬ a.Flushes va

/-- Physical accesses stay inside of memory. Virtual ones come when no flush is due, and a write to
more than one page is as `settles` says. -/
def Allowed (settles : GuestMemory → VirtualAddress → List UInt8 → Prop) (m : GuestMemory)
    (stale : VirtualAddress → Prop) : Access → Prop
  | poke place bytes => place.toNat + bytes.length ≤ m.ram.size
  | wipe place length => place.toNat + length ≤ m.ram.size
  | read _ _ => ∀ va, ¬ stale va
  | write va bytes => (∀ va, ¬ stale va) ∧
    (pieceLength va bytes.length < bytes.length → settles m va bytes)
  | flush _ _ => True

end Access

/-- Every access is allowed in its turn. -/
def Observes (settles : GuestMemory → VirtualAddress → List UInt8 → Prop) :
    GuestMemory → (VirtualAddress → Prop) → List Access → Prop
  | _, _, [] => True
  | m, stale, a :: rest => a.Allowed settles m stale ∧ ∀ reply m', a.perform m = .ok (reply, m') →
    Observes settles m' (a.Due m.ram m'.ram stale) rest

/-- What a sequence of accesses gives, with memory after each of them. -/
def replay : GuestMemory → List Access → Except Abort (List (Access.Reply × Ram))
  | _, [] => .ok []
  | m, a :: rest => do
    let (reply, m') ← a.perform m
    let seen ← replay m' rest
    return (reply, m'.ram) :: seen

variable {r s : Ram} {t : Tlb} {W : PageMap} {stale : VirtualAddress → Prop}

lemma pageNumber_ofNat {n : Nat} (inside : n < 0x100000) :
    (.ofNat (n * 4096) : VirtualAddress).pageNumber .small = n := by
  rw [Address.pageNumber, Address.toNat_ofNat, PageSize.bytes]
  omega

namespace Tlb

/-- What the buffer remembers is part of the map, but for pages where a flush is due. -/
def Trusted (t : Tlb) (W : PageMap) (stale : VirtualAddress → Prop) : Prop :=
  ∀ n place, t.find? n = some place →
    (∃ va : VirtualAddress, va.pageNumber .small = n ∧ stale va) ∨
      ∃ p, W n = some p ∧ place = .ofNat (p * 4096)

lemma Within.trusted (h : t.Within W) : t.Trusted W stale := fun n place found =>
  Or.inr (h n place found)

namespace Trusted

lemma within (h : t.Trusted W stale) (fresh : ∀ va, ¬ stale va) : t.Within W := by
  intro n place found
  rcases h n place found with ⟨va, _, due⟩ | known
  · exact absurd due (fresh va)
  · exact known

/-- After a change of memory a flush is due where the walk changes. -/
lemma change (h : t.Trusted r.walk stale) (large : 0xF < r.pages) (large' : 0xF < s.pages) :
    t.Trusted s.walk fun va => stale va ∨ s.translate va ≠ r.translate va := by
  intro n place found
  rcases h n place found with ⟨va, page, due⟩ | ⟨p, walked, rfl⟩
  · exact Or.inl ⟨va, page, Or.inl due⟩
  by_cases same : s.walk n = r.walk n
  · exact Or.inr ⟨p, same.trans walked, rfl⟩
  · have hn : n < 0x100000 := by
      refine Decidable.not_not.mp fun beyond => ?_
      cases walked.symm.trans (r.walk_beyond beyond)
    refine Or.inl ⟨.ofNat (n * 4096), pageNumber_ofNat hn, Or.inr fun translated => same ?_⟩
    have walk := Ram.walk_of_translate large large' translated
    rwa [pageNumber_ofNat hn] at walk

/-- A flush forgets what it covers. -/
lemma flush (h : t.Trusted W stale) (first last : VirtualAddress) :
    (t.flush (first.pageNumber .small) (last.pageNumber .small)).Trusted W fun va =>
      stale va ∧ ¬ (Access.flush first last).Flushes va := by
  intro n place found
  rw [find?_flush] at found
  split at found
  · cases found
  · next outside =>
    rcases h n place found with ⟨va, rfl, due⟩ | known
    · exact Or.inl ⟨va, rfl, due, outside⟩
    · exact Or.inr known

lemma mono {stale' : VirtualAddress → Prop} (h : t.Trusted W stale)
    (le : ∀ va, stale va → stale' va) : t.Trusted W stale' := by
  intro n place found
  rcases h n place found with ⟨va, page, due⟩ | known
  · exact Or.inl ⟨va, page, le va due⟩
  · exact Or.inr known

end Trusted

end Tlb

end ConsoleMemory
