import ConsoleMemory.Manager.Boot
import ConsoleMemory.Proofs.Manager.Wiring

/-!
# The page directory

It is written to its place in memory before any table exists, so that nothing
depends on what is remembered. Whatever memory held, the directory then maps
itself and the windows of large pages, and nothing else.
-/

namespace ConsoleMemory

namespace Entry

variable {p : Nat}

/-- The template of the entries that map large pages, without a policy for the cache. -/
def largeTemplate : Entry := (framed ⟨.ofNat kernelPageBits⟩ 0).withFlag .largePage true

lemma isLarge_of_valid_large {template : Entry} (valid : template.valid = true)
    (large : template.isLarge = true) (h : p < 0x100000) :
    (template.framed p).valid = true ∧ (template.framed p).isLarge = true ∧
      (template.framed p).frame = p :=
  ⟨valid_framed.trans valid, (has_framed .largePage).trans large, frame_framed h⟩

end Entry

namespace Manager

open Machine

variable {c : Machine} {W : PageMap}

/-- Large pages are entered one after the other. -/
lemma mapLargeFrom_leads (large : 0xF < c.ram.pages) (template : Entry) (count index page : Nat)
    (inside : index + count ≤ 1024) (frames : page + count * 1024 ≤ 0x100000) :
    ∃ r, Leads c W (mapLargeFrom template count index page) () (c.withRam r) W ∧
      r.pages = c.ram.pages ∧ ∀ q < c.ram.pages, ∀ i < 1024, r.entry q i =
        if q = 0xF ∧ index ≤ i ∧ i < index + count then
          template.framed (page + (i - index) * 1024)
        else c.ram.entry q i := by
  induction count generalizing c index page with
  | zero =>
    refine ⟨c.ram, .pure, rfl, fun q _ i _ => ?_⟩
    rw [if_neg (by omega)]
  | succ count ih =>
    have place : (Ram.directory + index * MemoryMap.entryBytes).toNat = 0xF * 4096 + index * 4 := by
      have base : Ram.directory.toNat = 0xF * 4096 := by decide
      rw [Address.toNat_add, base, MemoryMap.entryBytes]
      omega
    have word (q : Nat) (hq : q < c.ram.pages) (i : Nat) (hi : i < 1024) :=
      entry_setWord (w := (template.framed page).bits) large (by omega : index < 1024) hq hi
    obtain ⟨r, ran, size, entry⟩ := ih (c := c.setWord 0xF index (template.framed page).bits) large
      (index + 1) (page + 1024) (by omega) (by omega)
    refine ⟨r, ?_, size, fun q hq i hi => ?_⟩
    · rw [mapLargeFrom]
      refine (Leads.lift (Entry.withFrame_eq (by omega))).bind (Leads.bind (a := ()) ?_ ran)
      exact Leads.writeRamWord place large (by omega)
    · rw [entry q hq i hi, word q hq i hi]
      by_cases first : q = 0xF ∧ i = index
      · rw [if_neg (by omega), if_pos first, if_pos (by omega), first.2, Nat.sub_self,
          Nat.zero_mul, Nat.add_zero]
      · rw [if_neg first]
        by_cases later : q = 0xF ∧ index + 1 ≤ i ∧ i < index + 1 + count
        · rw [if_pos later, if_pos (by omega)]
          congr 1
          omega
        · rw [if_neg later, if_neg (by omega)]

/-- Memory with a page directory that maps itself and the large pages. -/
structure Directory (r r' : Ram) : Prop where
  pages : r'.pages = r.pages
  off : ∀ q < r.pages, q ≠ 0xF → ∀ i < 1024, r'.entry q i = r.entry q i
  selfMap : r'.entry 0xF 0x300 = .selfMap
  largePages : ∀ i, 0x3C0 ≤ i → i < 0x3FF → (r'.entry 0xF i).valid = true ∧
    (r'.entry 0xF i).isLarge = true ∧ (r'.entry 0xF i).frame = i * 1024
  vacant : ∀ i < 1024, i ≠ 0x300 → i < 0x3C0 ∨ i = 0x3FF → r'.entry 0xF i = .zero

theorem installDirectory_leads (large : 0xF < c.ram.pages) :
    ∃ r, Leads c W installDirectory () (c.withRam r) W ∧ Directory c.ram r := by
  have self : Leads (c.wipe 0xF 1) W (changeMemory fun memory =>
      memory.writeRamWord (Ram.directory + MemoryMap.selfMapOffset) Entry.selfMap.bits) ()
      ((c.wipe 0xF 1).setWord 0xF 0x300 Entry.selfMap.bits) W :=
    Leads.writeRamWord (by decide) large (by decide)
  have word (q : Nat) (hq : q < c.ram.pages) (i : Nat) (hi : i < 1024) :
      ((c.wipe 0xF 1).setWord 0xF 0x300 Entry.selfMap.bits).ram.entry q i =
        if q = 0xF ∧ i = 0x300 then .selfMap
        else if 0xF ≤ q ∧ q < 0xF + 1 then .zero else c.ram.entry q i := by
    rw [entry_setWord (c := c.wipe 0xF 1) large (by decide) hq hi, entry_wipe hq hi]
  obtain ⟨r₁, combined, pages₁, entry₁⟩ := mapLargeFrom_leads (W := W)
    (c := (c.wipe 0xF 1).setWord 0xF 0x300 Entry.selfMap.bits) large
    Entry.largeTemplate.withWriteCombine 32 0x3C0 0xF0000 (by decide) (by decide)
  have large₁ : 0xF < r₁.pages := pages₁ ▸ large
  obtain ⟨r₂, uncached, pages₂, entry₂⟩ := mapLargeFrom_leads (W := W) (c := c.withRam r₁)
    large₁ Entry.largeTemplate.withCachingDisabled 31 0x3E0 0xF8000 (by decide) (by decide)
  have entry (q : Nat) (hq : q < c.ram.pages) (i : Nat) (hi : i < 1024) : r₂.entry q i =
      if q = 0xF ∧ 0x3E0 ≤ i ∧ i < 0x3FF then
        Entry.largeTemplate.withCachingDisabled.framed (0xF8000 + (i - 0x3E0) * 1024)
      else if q = 0xF ∧ 0x3C0 ≤ i ∧ i < 0x3E0 then
        Entry.largeTemplate.withWriteCombine.framed (0xF0000 + (i - 0x3C0) * 1024)
      else if q = 0xF ∧ i = 0x300 then .selfMap
      else if 0xF ≤ q ∧ q < 0xF + 1 then .zero else c.ram.entry q i := by
    have second := entry₂ q (pages₁ ▸ hq) i hi
    have first := entry₁ q hq i hi
    rw [word q hq i hi] at first
    exact second.trans (congrArg (ite _ _) first)
  refine ⟨r₂, ?_, pages₂.trans pages₁, fun q hq other i hi => ?_, ?_, fun i low high => ?_,
    fun i hi ne window => ?_⟩
  · refine Leads.bind (a := ()) (Leads.clearRam (by decide) (by decide) large)
      ((Leads.lift Entry.kernelPage_selfMap).bind (self.bind
        ((Leads.lift (Entry.kernelPage_eq (by decide))).bind
          (combined.bind (uncached.bind (.note _))))))
  · rw [entry q hq i hi, if_neg (by omega), if_neg (by omega), if_neg (by omega), if_neg (by omega)]
  · rw [entry 0xF large 0x300 (by decide), if_neg (by omega), if_neg (by omega), if_pos ⟨rfl, rfl⟩]
  · rw [entry 0xF large i (by omega)]
    by_cases split : i < 0x3E0
    · rw [if_neg (by omega), if_pos ⟨rfl, low, split⟩]
      have frame : 0xF0000 + (i - 0x3C0) * 1024 = i * 1024 := by omega
      rw [frame]
      exact Entry.isLarge_of_valid_large (by decide) (by decide +kernel) (by omega)
    · rw [if_pos ⟨rfl, by omega, high⟩]
      have frame : 0xF8000 + (i - 0x3E0) * 1024 = i * 1024 := by omega
      rw [frame]
      exact Entry.isLarge_of_valid_large (by decide) (by decide +kernel) (by omega)
  · rw [entry 0xF large i hi, if_neg (by omega), if_neg (by omega), if_neg (by omega),
      if_pos (by omega)]

end Manager

end ConsoleMemory
