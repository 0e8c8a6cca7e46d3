import ConsoleMemory.Proofs.Guest.SelfMap
import ConsoleMemory.Proofs.Guest.Pieces

/-!
# Virtual accesses never leave memory

Entries may hold any word, yet every walk ends inside of memory or in a fault, and
alike for all addresses of a page. What a buffer has learnt from walks are therefore
pages of memory, whatever the tables have come to hold since. So an access through
any such buffer ends, with all its bytes or at a fault.
-/

namespace ConsoleMemory

/-- The buffers that lookups in memory of the given size can lead to. At each of the lookups memory
may hold anything. -/
inductive Tlb.Filled (size : Nat) : Tlb → Prop where
  | counting (flushes : Nat) : Filled size (.counting flushes)
  | empty : Filled size (.caching [])
  | lookup {m m' : GuestMemory} {va : VirtualAddress} {place : PhysicalAddress}
      (filled : Filled size m.tlb) (sized : m.ram.size = size)
      (located : m.locate va = .ok (.ok (place, m'))) : Filled size m'.tlb
  | flush {t : Tlb} (filled : Filled size t) (first last : Nat) : Filled size (t.flush first last)

namespace Ram

variable {r : Ram} {va : VirtualAddress} {place : PhysicalAddress} {fault : PageFault}
  {entries : Mapping}

/-! ### The addresses of a page -/

/-- Where one address of a page is found, all are found. -/
lemma Mapping.outcome_ok (h : entries.outcome r va = .ok place) :
    ∃ p < r.pages, place = .ofNat (p * 4096 + va.offset .small) ∧
      ∀ va', entries.outcome r va' = .ok (.ofNat (p * 4096 + va'.offset .small)) := by
  cases entries with
  | absent => cases h
  | tableless frame => cases h
  | mapped frame =>
    simp only [Mapping.outcome] at h ⊢
    cases found : r.page? frame with
    | none =>
      rw [found] at h
      cases h
    | some p =>
      rw [found] at h
      cases h
      exact ⟨p, page?_lt found, rfl, fun va' => rfl⟩

/-- Where one address of a page faults, all fault, and for the same reason. -/
lemma Mapping.outcome_error (h : entries.outcome r va = .error fault) (va' : VirtualAddress) :
    ∃ fault', entries.outcome r va' = .error fault' ∧ fault'.address = va' ∧
      fault'.physical?.isSome = fault.physical?.isSome := by
  cases entries with
  | absent =>
    cases h
    exact ⟨_, rfl, rfl, rfl⟩
  | tableless frame =>
    cases h
    exact ⟨_, rfl, rfl, rfl⟩
  | mapped frame =>
    simp only [Mapping.outcome] at h ⊢
    cases found : r.page? frame with
    | none =>
      rw [found] at h
      cases h
      exact ⟨_, rfl, rfl, rfl⟩
    | some p =>
      rw [found] at h
      cases h

/-- A place in a page of memory. -/
lemma place_inside {p : Nat} (inside : p < r.pages) (va : VirtualAddress) :
    (.ofNat (p * 4096 + va.offset .small) : PhysicalAddress).toNat < r.size ∧
      (.ofNat (p * 4096 + va.offset .small) : PhysicalAddress).pageNumber .small = p ∧
      (.ofNat (p * 4096 + va.offset .small) : PhysicalAddress).offset .small =
        va.offset .small := by
  obtain ⟨place, page⟩ := GuestMemory.toNat_place va inside
  have offset := va.offset_lt
  simp only [Address.pageNumber, Address.offset, PageSize.bytes] at place offset ⊢
  omega

end Ram

namespace Tlb

variable {t : Tlb} {pages n p : Nat}

/-- What the buffer remembers are pages of memory. -/
def Installed (t : Tlb) (pages : Nat) : Prop :=
  ∀ n place, t.find? n = some place → ∃ p < pages, place = .ofNat (p * 4096)

lemma Installed.remember (h : t.Installed pages) (inside : p < pages) :
    (t.remember n (.ofNat (p * 4096))).Installed pages := by
  intro m place found
  rcases find?_remember_cases found with ⟨_, rfl⟩ | before
  · exact ⟨p, inside, rfl⟩
  · exact h m place before

lemma Installed.flush (h : t.Installed pages) (first last : Nat) :
    (t.flush first last).Installed pages := by
  intro n place found
  rw [find?_flush] at found
  split at found
  · cases found
  · exact h n place found

end Tlb

namespace GuestMemory

variable {r : Ram} {t : Tlb} {va : VirtualAddress}

/-! ### Lookups -/

/-- A lookup leads into a page of memory, or it faults. -/
lemma locate_installed (large : 0xF < r.pages) (installed : t.Installed r.pages)
    (va : VirtualAddress) :
    (∃ p < r.pages, ∃ t', ((⟨r, t⟩ : GuestMemory).locate va).run =
        .ok (.ok (.ofNat (p * 4096 + va.offset .small), ⟨r, t'⟩)) ∧ t'.Installed r.pages) ∨
      ∃ fault, ((⟨r, t⟩ : GuestMemory).locate va).run = .ok (.error fault) := by
  cases found : t.find? (va.pageNumber .small) with
  | some place =>
    obtain ⟨p, inside, rfl⟩ := installed _ _ found
    exact Or.inl ⟨p, inside, t, locate_known found, installed⟩
  | none =>
    rcases Ram.translate_eq large va with ⟨p, mapped, _⟩ | ⟨_, fault, failed⟩
    · have inside := Ram.walk_lt mapped
      exact Or.inl ⟨p, inside, _, locate_walked large found mapped, installed.remember inside⟩
    · exact Or.inr ⟨fault, locate_failed found failed⟩

end GuestMemory

/-- However a buffer was filled, it remembers pages of memory only. The induction is on the lookups
and flushes that led to it. -/
theorem Tlb.Filled.installed {t : Tlb} {size : Nat} (large : 0x10000 ≤ size) (h : t.Filled size) :
    t.Installed (size / 4096) := by
  induction h with
  | counting flushes => exact nofun
  | empty => exact nofun
  | @lookup m m' va place filled sized located ih =>
    subst sized
    have located : (m.locate va).run = .ok (.ok (place, m')) := located
    rcases GuestMemory.locate_installed (Ram.large_of_size large) ih va with
      ⟨p, inside, t', located', installed⟩ | ⟨fault, failed⟩
    · cases located.symm.trans located'
      exact installed
    · cases located.symm.trans failed
  | flush filled first last ih => exact ih.flush first last

namespace GuestMemory

variable {r : Ram} {t : Tlb} {pieces length : Nat} {bytes : List UInt8}
  (large : 0x10000 ≤ r.size) (filled : t.Filled r.size)
include large filled

/-- A lookup in a buffer that lookups have filled. -/
lemma locate_filled (va : VirtualAddress) :
    (∃ p < r.pages, ∃ t', ((⟨r, t⟩ : GuestMemory).locate va).run =
        .ok (.ok (.ofNat (p * 4096 + va.offset .small), ⟨r, t'⟩)) ∧ t'.Filled r.size) ∨
      ∃ fault, ((⟨r, t⟩ : GuestMemory).locate va).run = .ok (.error fault) := by
  rcases locate_installed (Ram.large_of_size large) (filled.installed large) va with
    ⟨p, inside, t', located, _⟩ | failed
  · exact Or.inl ⟨p, inside, t', located, .lookup filled rfl located⟩
  · exact Or.inr failed

/-! ### Accesses -/

/-- A read ends. Without a fault it has read all bytes. -/
theorem readPieces_filled (va : VirtualAddress) (enough : length ≤ pieces) :
    ∃ loaded, readPieces pieces ⟨r, t⟩ va length = .ok loaded ∧
      (loaded.fault = none → loaded.bytes.length = length) ∧
      loaded.memory.ram = r ∧ loaded.memory.tlb.Filled r.size := by
  induction pieces generalizing t va length with
  | zero =>
    cases Nat.le_zero.mp enough
    exact ⟨_, rfl, fun _ => rfl, rfl, filled⟩
  | succ pieces ih =>
    cases length with
    | zero => exact ⟨_, rfl, fun _ => rfl, rfl, filled⟩
    | succ length =>
      rcases locate_filled large filled va with ⟨p, inside, t', located, filled'⟩ | ⟨fault, failed⟩
      -- the first piece leaves a filled buffer and memory as it is, so the rest can be read
      · have piece : 0 < pieceLength va (length + 1) := pieceLength_pos va (Nat.succ_pos length)
        have short : pieceLength va (length + 1) ≤ length + 1 := Nat.min_le_right _ _
        have fewer : length + 1 - pieceLength va (length + 1) ≤ pieces := by omega
        obtain ⟨rest, read, whole, same, filled''⟩ :=
          ih filled' (va + pieceLength va (length + 1)) fewer
        rw [readPieces_located inside located, read]
        refine ⟨_, rfl, fun none => ?_, same, filled''⟩
        simp only [List.length_append, whole none, Ram.slice, List.length_map, List.length_range']
        omega
      · refine ⟨_, readPieces_faulted failed, fun none => ?_, rfl, filled⟩
        cases none

/-- A write ends. -/
theorem writePieces_filled (va : VirtualAddress) :
    ∃ stored, writePieces pieces ⟨r, t⟩ va bytes = .ok stored ∧
      stored.memory.ram.size = r.size ∧ stored.memory.tlb.Filled r.size := by
  induction pieces generalizing r t va bytes with
  | zero => exact ⟨_, rfl, rfl, filled⟩
  | succ pieces ih =>
    rcases Nat.eq_zero_or_pos bytes.length with none | pos
    · cases List.eq_nil_of_length_eq_zero none
      exact ⟨_, rfl, rfl, filled⟩
    rcases locate_filled large filled va with ⟨p, inside, t', located, filled'⟩ | ⟨fault, failed⟩
    -- memory has changed, maybe the tables as well, but not its size
    · rw [writePieces_located inside located pos]
      exact ih (r := r.put _ _) large filled' _
    · exact ⟨_, writePieces_faulted failed pos, rfl, filled⟩

end GuestMemory

namespace Ram

/-- Whatever memory holds, every address is translated to an installed one or faults. All addresses
of a page are then found in one page of memory, or they all fault for the same reason. Reads and
writes of any length end, with buffers that count as with buffers that remember whatever they were
ever filled with. -/
theorem virtual_access_safe {r : Ram} (large : 0x10000 ≤ r.size) :
    (∀ va, (∃ place, r.translate va = .ok (.ok place) ∧ place.toNat < r.size ∧
          place.offset .small = va.offset .small ∧
          ∀ va', va'.pageNumber .small = va.pageNumber .small →
            ∃ place', r.translate va' = .ok (.ok place') ∧
              place'.pageNumber .small = place.pageNumber .small ∧
              place'.offset .small = va'.offset .small) ∨
        ∃ fault, r.translate va = .ok (.error fault) ∧
          ∀ va', va'.pageNumber .small = va.pageNumber .small →
            ∃ fault', r.translate va' = .ok (.error fault') ∧ fault'.address = va' ∧
              fault'.physical?.isSome = fault.physical?.isSome) ∧
      ∀ t, t.Filled r.size →
        (∀ va length, ∃ loaded, (⟨r, t⟩ : GuestMemory).read va length = .ok loaded ∧
          (loaded.fault = none → loaded.bytes.length = length) ∧
          loaded.memory.ram = r ∧ loaded.memory.tlb.Filled r.size) ∧
        ∀ va bytes, ∃ stored, (⟨r, t⟩ : GuestMemory).write va bytes = .ok stored ∧
          stored.memory.ram.size = r.size ∧ stored.memory.tlb.Filled r.size := by
  constructor
  · intro va
    have translated (va' : VirtualAddress) (same : va'.pageNumber .small = va.pageNumber .small) :
        r.translate va' = .ok ((r.mapping (va.pageNumber .small)).outcome r va') := by
      rw [← same]
      exact translate_run (large_of_size large) va'
    cases found : (r.mapping (va.pageNumber .small)).outcome r va with
    | ok place =>
      obtain ⟨p, inside, rfl, all⟩ := Mapping.outcome_ok found
      obtain ⟨installed, page, offset⟩ := place_inside inside va
      refine Or.inl ⟨_, (translated va rfl).trans (congrArg Except.ok found), installed, offset, ?_⟩
      intro va' same
      obtain ⟨_, page', offset'⟩ := place_inside inside va'
      exact ⟨_, (translated va' same).trans (congrArg Except.ok (all va')), page'.trans page.symm,
        offset'⟩
    | error fault =>
      refine Or.inr ⟨fault, (translated va rfl).trans (congrArg Except.ok found), ?_⟩
      intro va' same
      obtain ⟨fault', failed, address, reason⟩ := Mapping.outcome_error found va'
      exact ⟨fault', (translated va' same).trans (congrArg Except.ok failed), address, reason⟩
  · intro t filled
    constructor
    · intro va length
      exact GuestMemory.readPieces_filled large filled va (Nat.le_refl length)
    · intro va bytes
      exact GuestMemory.writePieces_filled large filled va

/-- The lookup of one address in `oblique` fills a buffer. -/
lemma filled_oblique : (Tlb.caching [(0x80012, .ofNat 0x30000)]).Filled oblique.size := by
  have fresh : Tlb.Filled oblique.size (⟨oblique, .caching []⟩ : GuestMemory).tlb := .empty
  have located : (⟨oblique, .caching []⟩ : GuestMemory).locate (.ofNat 0x80012345) =
      .ok (.ok (.ofNat 0x30345, ⟨oblique, .caching [(0x80012, .ofNat 0x30000)]⟩)) := rfl
  exact fresh.lookup rfl located

theorem virtual_access_safe_oblique :
    0x10000 ≤ oblique.size ∧ (Tlb.caching [(0x80012, .ofNat 0x30000)]).Filled oblique.size ∧
      (∃ place, oblique.translate (.ofNat 0x80012345) = .ok (.ok place) ∧
        place.toNat < 0x400000 ∧ place.offset .small = 0x345) ∧
      ∃ loaded, (⟨oblique, .caching [(0x80012, .ofNat 0x30000)]⟩ : GuestMemory).read
          (.ofNat 0x80012FFE) 4 = .ok loaded ∧ loaded.memory.ram = oblique ∧
        loaded.fault = some (.notPresent (.ofNat 0x80013000)) := by
  have large : 0x10000 ≤ oblique.size := by decide
  obtain ⟨translated, ended⟩ := virtual_access_safe large
  obtain ⟨loaded, read, _, same, _⟩ := (ended _ filled_oblique).1 (.ofNat 0x80012FFE) 4
  refine ⟨large, filled_oblique, ?_, loaded, read, same, ?_⟩
  · rcases translated (.ofNat 0x80012345) with
      ⟨place, found, inside, offset, _⟩ | ⟨fault, failed, _⟩
    · exact ⟨place, found, inside, offset⟩
    · cases failed.symm.trans (show _ = .ok (.ok (.ofNat 0x30345)) from rfl)
  · cases read.symm.trans
      (show _ = .ok ⟨[0, 0], some (.notPresent (.ofNat 0x80013000)), _⟩ from rfl)
    rfl

end Ram

end ConsoleMemory
