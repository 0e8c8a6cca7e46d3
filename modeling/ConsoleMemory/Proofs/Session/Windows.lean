import ConsoleMemory.Proofs.Session.Runs

/-!
# Windows on memory

All of memory appears again behind two windows of virtual addresses, one of which
does not go through the cache. Large pages map them, which no action takes away;
so in every state of a run they show the same bytes at the same distance
(`run_keeps_windows`), even where tables were asked for over them.
-/

namespace ConsoleMemory

/-- A window of virtual addresses in which memory appears byte for byte. -/
inductive Window where
  | writeCombined
  | uncached
deriving DecidableEq, Repr

namespace Window

def base : Window → Nat
  | writeCombined => MemoryMap.writeCombinedBase
  | uncached => MemoryMap.uncachedBase

def bytes : Window → Nat
  | writeCombined => MemoryMap.writeCombinedBytes
  | uncached => MemoryMap.uncachedBytes

/-- Where byte `o` of memory appears. -/
def address (w : Window) (o : Nat) : VirtualAddress := .ofNat (w.base + o)

variable {w : Window} {o p : Nat} {r : Ram}

lemma toNat_address (inside : o < w.bytes) : (w.address o).toNat = w.base + o := by
  have fits : w.base + w.bytes ≤ 0x100000000 := by cases w <;> decide
  rw [address, Address.toNat_ofNat]
  omega

lemma pageNumber_address (inside : o < w.bytes) :
    (w.address o).pageNumber .small = w.base / 4096 + o / 4096 := by
  have whole : w.base % 4096 = 0 := by cases w <;> decide
  rw [Address.pageNumber, toNat_address inside, PageSize.bytes]
  omega

lemma offset_address (inside : o < w.bytes) : (w.address o).offset .small = o % 4096 := by
  have whole : w.base % 4096 = 0 := by cases w <;> decide
  rw [Address.offset, toNat_address inside, PageSize.bytes]
  omega

lemma address_add (w : Window) (o n : Nat) : w.address o + n = w.address (o + n) := by
  apply Address.ext
  rw [Address.toNat_add, address, address, Address.toNat_ofNat, Address.toNat_ofNat]
  omega

/-- Physical memory appears behind the same addresses. -/
lemma page?_eq (inside : p < w.bytes / 4096) (installed : p < r.pages) :
    r.page? (w.base / 4096 + p) = some p := by
  have start : Ram.windowPage (w.base / 4096 + p) = w.base / 4096 := by
    cases w with
    | writeCombined =>
      change Ram.windowPage (0xF0000 + p) = 0xF0000
      change p < 0x8000 at inside
      rw [Ram.windowPage, if_neg (by omega), if_pos (by omega)]
    | uncached =>
      change Ram.windowPage (0xF8000 + p) = 0xF8000
      rw [Ram.windowPage, if_pos (by omega)]
  rw [Ram.page?, start, Nat.add_sub_cancel_left, if_pos installed]

/-- Large pages map the window. -/
lemma directory_range (inside : p < w.bytes / 4096) :
    0x3C0 ≤ (w.base / 4096 + p) / 1024 ∧ (w.base / 4096 + p) / 1024 < 0x3FF := by
  cases w with
  | writeCombined =>
    change p < 0x8000 at inside
    change 0x3C0 ≤ (0xF0000 + p) / 1024 ∧ (0xF0000 + p) / 1024 < 0x3FF
    omega
  | uncached =>
    change p < 0x7C00 at inside
    change 0x3C0 ≤ (0xF8000 + p) / 1024 ∧ (0xF8000 + p) / 1024 < 0x3FF
    omega

end Window

namespace Machine

variable {c : Machine} {w : Window} {o n p : Nat} {bytes : List UInt8} {moving : Option (Nat × Nat)}

/-- The walk leads from a page of a window to the page of memory at the same distance. -/
lemma Mapped.walk_window_page (h : c.Mapped) (inside : p < w.bytes / 4096)
    (installed : p < c.ram.pages) : c.ram.walk (w.base / 4096 + p) = some p := by
  obtain ⟨low, high⟩ := Window.directory_range inside
  obtain ⟨valid, large, frame⟩ := h.largePages _ low high
  have same : (w.base / 4096 + p) / 1024 * 1024 / 1024 * 1024 + (w.base / 4096 + p) % 1024 =
      w.base / 4096 + p := by omega
  unfold Ram.walk
  simp only [pde] at valid large frame
  rw [if_pos ⟨by omega, valid⟩, if_pos large, frame, same]
  exact Window.page?_eq inside installed

lemma Mapped.walk_address (h : c.Mapped) (inside : o < w.bytes) (installed : o < c.ram.size) :
    c.ram.walk ((w.address o).pageNumber .small) = some (o / 4096) := by
  have size := c.ram.size_eq
  have whole : w.bytes % 4096 = 0 := by cases w <;> decide
  rw [Window.pageNumber_address inside]
  exact h.walk_window_page (by omega) (by omega)

/-- Byte `o` of memory is found behind each window. -/
theorem Mapped.translate_address (h : c.Mapped) (inside : o < w.bytes)
    (installed : o < c.ram.size) :
    (c.ram.translate (w.address o)).run = .ok (.ok (.ofNat o)) := by
  have walked := h.walk_address inside installed
  rcases Ram.translate_eq h.large (w.address o) with ⟨q, walked', translated⟩ | ⟨unmapped, _⟩
  · cases walked.symm.trans walked'
    rw [translated, Window.offset_address inside, Nat.div_add_mod']
  · cases walked.symm.trans unmapped

/-- Behind each window memory is mirrored. -/
lemma Mapped.mirrors (h : c.Mapped) (inside : o + n ≤ w.bytes) (installed : o + n ≤ c.ram.size) :
    GuestMemory.Mirrors c.ram (w.address o) o n := by
  intro k hk
  rw [Window.address_add]
  exact ⟨h.walk_address (by omega) (by omega), Window.offset_address (by omega)⟩

/-- Programs may write through a window to pages that the manager does not look into. -/
lemma Mapped.legal_store (h : c.Mapped) (inside : o + bytes.length ≤ w.bytes)
    (installed : o + bytes.length ≤ c.ram.size)
    (opened : ∀ k < bytes.length, c.Open ((o + k) / 4096)) :
    c.Legal moving (.store (w.address o) bytes) := by
  have lands : c.LandsOpen (w.address o) bytes.length := by
    intro i hi _ place translated
    have bounded := c.ram.bounded
    rw [Window.address_add, h.translate_address (by omega) (by omega)] at translated
    cases translated
    rw [Address.toNat_ofNat, Nat.mod_eq_of_lt (by omega)]
    exact opened i hi
  cases moving <;> exact lands

/-- What is written through a window is in memory then. -/
theorem Mapped.store_window (h : c.Mapped) (inside : o + bytes.length ≤ w.bytes)
    (installed : o + bytes.length ≤ c.ram.size)
    (opened : ∀ k < bytes.length, c.Open ((o + k) / 4096)) :
    c.ram.SameOff c.Open (c.ram.put o bytes) ∧
      Yields c (Manager.store (w.address o) bytes) none (c.withRam (c.ram.put o bytes)) := by
  have writes (t : Tlb) (within : t.Within c.ram.walk) :=
    GuestMemory.writePieces_mirrored h.large (fun r same => h.walk_withRam same) (Nat.le_refl _)
      (h.mirrors inside installed) opened (.refl _ _) within
  have same := (writes _ (Tlb.Within.counting 0 _)).1
  exact ⟨same, Manager.store_of_writes h same fun t within => (writes t within).2⟩

/-- What is read through a window is what is in memory. -/
theorem Mapped.load_window (h : c.Mapped) (inside : o + n ≤ w.bytes)
    (installed : o + n ≤ c.ram.size) :
    Yields c (Manager.load (w.address o) n) (c.ram.slice o n, none) c :=
  Manager.load_of_reads fun _ within =>
    GuestMemory.readPieces_mirrored h.large (Nat.le_refl _) (h.mirrors inside installed) within

end Machine

namespace Session

variable {s s' : Session} {c : Machine} {w w' : Window} {o : Nat} {bytes : List UInt8}
  {moving : Option (Nat × Nat)}

/-- Byte `o` of memory is found behind window `w`, remembered or not. -/
def Finds (s : Session) (w : Window) (o : Nat) : Prop :=
  (s.manager.memory.ram.translate (w.address o)).run = .ok (.ok (.ofNat o)) ∧
    ∃ memory, (s.manager.memory.locate (w.address o)).run = .ok (.ok (.ofNat o, memory))

/-- What is written to place `o` through window `w` is read there, and through `w'`. -/
def Shares (s : Session) (w w' : Window) (o : Nat) (bytes : List UInt8) : Prop :=
  ∃ s₁ s₂, (Action.store (w.address o) bytes).perform s = .ok (.stored none) s₁ ∧
    s₁.manager.memory.ram.read (.ofNat o) bytes.length = .ok bytes ∧
    (Action.load (w'.address o) bytes.length).perform s₁ = .ok (.loaded bytes none) s₂ ∧
    s₂.machine = s₁.machine

lemma Rests.finds (h : s.Rests c moving) (inside : o < w.bytes) (installed : o < c.ram.size) :
    s.Finds w o := by
  have mapped := h.stands.ordered.toMapped
  have walked := mapped.walk_address inside installed
  obtain ⟨t, located, _⟩ :=
    GuestMemory.locate_ok mapped.large h.within (PageMap.Le.refl _) walked
  rw [Window.offset_address inside, Nat.div_add_mod'] at located
  rw [Finds, h.manager_eq]
  exact ⟨mapped.translate_address inside installed, _, located⟩

lemma Rests.shares (h : s.Rests c moving)
    (inside : o + bytes.length ≤ w.bytes ∧ o + bytes.length ≤ w'.bytes)
    (installed : o + bytes.length ≤ c.ram.size)
    (opened : ∀ k < bytes.length, c.Open ((o + k) / 4096)) : s.Shares w w' o bytes := by
  have mapped := h.stands.ordered.toMapped
  have bounded := c.ram.bounded
  obtain ⟨same, stored⟩ := mapped.store_window inside.1 installed opened
  have mapped' := (h.stands.withRam same).ordered.toMapped
  have there : (c.ram.put o bytes).slice o bytes.length = bytes := Ram.slice_put (by omega)
  have loaded := mapped'.load_window inside.2 installed
  have slice : (c.withRam (c.ram.put o bytes)).ram.slice o bytes.length = bytes := there
  rw [slice] at loaded
  obtain ⟨s₁, wrote, shows₁⟩ := h.toShows.perform_ok (a := .store (w.address o) bytes)
    (stored.bind .pure)
  obtain ⟨s₂, read, shows₂⟩ := shows₁.perform_ok (a := .load (w'.address o) bytes.length)
    (loaded.bind .pure)
  refine ⟨s₁, s₂, wrote, ?_, read, shows₂.machine_eq.trans shows₁.machine_eq.symm⟩
  have place : (Address.ofNat o : PhysicalAddress).toNat = o := by
    rw [Address.toNat_ofNat]
    omega
  have ram : s₁.manager.memory.ram = c.ram.put o bytes := congrArg Machine.ram shows₁.machine_eq
  rw [ram, Ram.read_eq (by rw [place]; exact installed), place, there]

end Session

/-- In every state of a run of legal actions both windows show memory from its start on, as far as
they reach; so what is written through one of them, to pages that the manager does not look into, is
read through the other and at its place in memory. Such a write is legal, and the run may go on. -/
theorem run_keeps_windows (l : Layout) {memory : GuestMemory}
    (size : l.parameters.ramSize ≤ memory.ram.size) (fresh : memory.tlb.Fresh)
    (trail : Array Note) :
    ∃ m s, Manager.create memory l l.parameters = .ok m ∧ Manager.boot ⟨m, trail⟩ = .ok () s ∧
      ∀ events moving s', Run s events moving s' →
        s'.manager.memory.ram.size = memory.ram.size ∧
        (∀ (w : Window) o, o < min memory.ram.size w.bytes → s'.Finds w o) ∧
        ∀ (w w' : Window) o bytes,
          o + bytes.length ≤ min memory.ram.size (min w.bytes w'.bytes) →
          (∀ k < bytes.length, s'.machine.Open ((o + k) / 4096)) →
          s'.machine.Legal moving (.store (w.address o) bytes) ∧ s'.Shares w w' o bytes := by
  obtain ⟨c, _, same, _, comes⟩ := Session.comes_up_sized l l.boots size trail
  obtain ⟨m, s, created, booted, rests⟩ := comes memory.tlb fresh
  refine ⟨m, s, created, booted, fun events moving s' run => ?_⟩
  have installed := (rests.size_run run).trans same
  obtain ⟨d, rests', _⟩ := rests.run run
  have mapped := rests'.stands.ordered.toMapped
  rw [rests'.machine_eq] at installed ⊢
  rw [← installed]
  refine ⟨congrArg (fun c => c.ram.size) rests'.machine_eq, fun w o inside => ?_,
    fun w w' o bytes inside opened => ?_⟩
  · exact rests'.finds (by omega) (by omega)
  · exact ⟨mapped.legal_store (by omega) (by omega) opened,
      rests'.shares ⟨by omega, by omega⟩ (by omega) opened⟩

/-- A console with 64 MiB of cleared memory that remembers translations. -/
theorem run_keeps_windows_retail :
    ∃ m s, Manager.create ⟨⟨0x4000000, .uniform 0, by decide, by decide, by decide⟩, .caching []⟩
        .retail Layout.retail.parameters = .ok m ∧ Manager.boot ⟨m, #[]⟩ = .ok () s ∧
      ∀ events moving s', Run s events moving s' →
        s'.manager.memory.ram.size = 0x4000000 ∧
        (∀ (w : Window) o, o < min 0x4000000 w.bytes → s'.Finds w o) ∧
        ∀ (w w' : Window) o bytes,
          o + bytes.length ≤ min 0x4000000 (min w.bytes w'.bytes) →
          (∀ k < bytes.length, s'.machine.Open ((o + k) / 4096)) →
          s'.machine.Legal moving (.store (w.address o) bytes) ∧ s'.Shares w w' o bytes :=
  run_keeps_windows .retail (by decide) Tlb.fresh_caching #[]

end ConsoleMemory
