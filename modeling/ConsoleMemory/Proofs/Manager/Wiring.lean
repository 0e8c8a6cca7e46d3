import ConsoleMemory.Manager.Records
import ConsoleMemory.Proofs.Guest.SelfMap
import ConsoleMemory.Proofs.Manager.Fields
import ConsoleMemory.Proofs.Manager.Machine

/-!
# How the tables hang together

The page directory maps itself, so that every directory entry, every entry of a
page table and every PFN record has a place in the address space. Page tables
are few and apart, so that a change of one entry shows in few walks, and a
change of a record in none.
-/

namespace ConsoleMemory

/-- What the numbers of a layout have in common. -/
structure Parameters.Fit (p : Parameters) : Prop where
  /-- The database has room for one record for each page. -/
  records : p.highestPage + 1 = p.databasePages * 1024
  inside : p.databasePage + p.databasePages ≤ p.highestPage + 1
  /-- All of memory is seen through the contiguous window. -/
  window : p.highestPage < 0x8000
  limit : p.contiguousLimit < p.databasePage
  directory : 0xF < p.databasePage
  boundary : ∀ b, p.debuggerBoundary = some b → p.databasePage ≤ b

namespace Machine

open VirtualAddress

variable {c c' : Machine} {W : PageMap} {i j n p t : Nat} {w : UInt32}

/-- Entry `i` of the page directory. -/
def pde (c : Machine) (i : Nat) : Entry := c.ram.entry 0xF i

/-- Entry `j` of the page table in page `t`. -/
def pte (c : Machine) (t j : Nat) : Entry := c.ram.entry t j

/-- The record of page `p`, at its place in memory. -/
def record (c : Machine) (p : Nat) : PfnRecord :=
  ⟨c.ram.word (c.parameters.databasePage + p / 1024) (p % 1024)⟩

/-- Directory entry `i` names the page table in page `t`. The directory's entry for itself does not
count. -/
structure Table (c : Machine) (i t : Nat) : Prop where
  lt : i < 1024
  ne : i ≠ 0x300
  names : (c.pde i).namesTable = true
  frame : (c.pde i).frame = t

/-- The directory maps itself, and its page tables are apart from each other and from all else. -/
structure Mapped (c : Machine) : Prop where
  fit : c.parameters.Fit
  installed : c.parameters.highestPage < c.ram.pages
  selfMap : c.pde 0x300 = .selfMap
  low : ∀ i t, c.Table i t → t ≤ c.parameters.contiguousLimit
  apart : ∀ i t, c.Table i t → t ≠ 0xF
  distinct : ∀ i j t, c.Table i t → c.Table j t → i = j
  /-- Large pages show the physical addresses from 0xF0000000 on at virtual addresses of the same
  value. -/
  largePages : ∀ i, 0x3C0 ≤ i → i < 0x3FF →
    (c.pde i).valid = true ∧ (c.pde i).isLarge = true ∧ (c.pde i).frame = i * 1024
  /-- All other directory entries name page tables or hold nothing. -/
  others : ∀ i < 1024, i ≠ 0x300 → i < 0x3C0 ∨ i = 0x3FF →
    (c.pde i).namesTable = true ∨ c.pde i = .zero

/-- Moreover the PFN database is mapped. -/
structure Wired (c : Machine) : Prop extends c.Mapped where
  database : ∀ q < c.parameters.databasePages,
    ∃ t, c.Table ((0x80000 + c.parameters.databasePage + q) / 1024) t ∧
      c.pte t ((0x80000 + c.parameters.databasePage + q) % 1024) =
        .databaseEntry (c.parameters.databasePage + q)

/-- The page is read by walks. -/
def Wires (c : Machine) (p : Nat) : Prop := p = 0xF ∨ ∃ i, c.Table i p

namespace Mapped

variable (h : c.Mapped)
include h

lemma large : 0xF < c.ram.pages := by
  have := h.installed
  have := h.fit.directory
  have := h.fit.inside
  omega

lemma lt_pages (table : c.Table i t) : t < c.ram.pages := by
  have := h.installed
  have := h.fit.limit
  have := h.fit.inside
  have := h.low i t table
  omega

lemma lt_database (table : c.Table i t) : t < c.parameters.databasePage := by
  have := h.fit.limit
  have := h.low i t table
  omega

lemma page?_frame (table : c.Table i t) : c.ram.page? (c.pde i).frame = some t := by
  have := h.fit.window
  have := h.fit.inside
  have := h.lt_database table
  rw [table.frame]
  exact Ram.page?_of_lt (h.lt_pages table) (by omega)

/-- A directory entry that maps nothing holds nothing. -/
lemma zeroed (hi : i < 1024) (invalid : (c.pde i).valid = false) : c.pde i = .zero := by
  have own : i ≠ 0x300 := by
    rintro rfl
    rw [h.selfMap, Entry.valid_of_namesTable Entry.namesTable_selfMap] at invalid
    cases invalid
  by_cases inside : 0x3C0 ≤ i ∧ i < 0x3FF
  · cases (h.largePages i inside.1 inside.2).1.symm.trans invalid
  rcases h.others i hi own (by omega) with names | zero
  · cases (Entry.valid_of_namesTable names).symm.trans invalid
  · exact zero

lemma page?_selfMap : c.ram.page? Entry.selfMap.frame = some 0xF := by
  rw [Entry.frame_selfMap]
  exact Ram.page?_of_lt h.large (by decide)

omit h in
/-- A walk through a directory entry that names the table in page `t`. -/
lemma walk_eq (hn : n < 0x100000) (names : (c.pde (n / 1024)).namesTable = true)
    (frame : c.ram.page? (c.pde (n / 1024)).frame = some t)
    (valid : (c.pte t (n % 1024)).valid = true)
    (resolved : c.ram.page? (c.pte t (n % 1024)).frame = some p) : c.ram.walk n = some p :=
  (Ram.walk_table_eq hn names frame).trans ((if_pos valid).trans resolved)

/-- The window of page tables shows, at place `i`, what directory entry `i` names. -/
lemma walk_window (hi : i < 1024) (valid : (c.pde i).valid = true)
    (resolved : c.ram.page? (c.pde i).frame = some t) : c.ram.walk (0xC0000 + i) = some t := by
  have index : (0xC0000 + i) / 1024 = 0x300 := by omega
  have rest : (0xC0000 + i) % 1024 = i := by omega
  refine walk_eq (t := 0xF) (by omega) ?_ ?_ ?_ ?_
  · rw [index, h.selfMap]
    exact Entry.namesTable_selfMap
  · rw [index, h.selfMap]
    exact h.page?_selfMap
  · rw [rest]
    exact valid
  · rw [rest]
    exact resolved

lemma walk_directory : c.ram.walk 0xC0300 = some 0xF := by
  refine h.walk_window (i := 0x300) (by decide) ?_ ?_
  · rw [h.selfMap]
    exact Entry.valid_of_namesTable Entry.namesTable_selfMap
  · rw [h.selfMap]
    exact h.page?_selfMap

lemma walk_table (table : c.Table i t) : c.ram.walk (0xC0000 + i) = some t :=
  h.walk_window table.lt (Entry.valid_of_namesTable table.names) (h.page?_frame table)

lemma walk_page (table : c.Table (n / 1024) t) (valid : (c.pte t (n % 1024)).valid = true)
    (resolved : c.ram.page? (c.pte t (n % 1024)).frame = some p) : c.ram.walk n = some p :=
  walk_eq (by have := table.lt; omega) table.names (h.page?_frame table) valid resolved

/-- A walk reads the directory and, where its entry names a table, an entry of that table. -/
lemma walk_congr {r : Ram} (size : r.pages = c.ram.pages)
    (directory : n < 0x100000 → r.entry 0xF (n / 1024) = c.pde (n / 1024))
    (self : n / 1024 = 0x300 → r.entry 0xF (n % 1024) = c.pde (n % 1024))
    (table : ∀ t, c.Table (n / 1024) t → r.entry t (n % 1024) = c.pte t (n % 1024)) :
    r.walk n = c.ram.walk n := by
  refine Ram.walk_congr size directory fun t hn names frame => ?_
  by_cases self_map : n / 1024 = 0x300
  · have resolved : c.ram.page? (c.pde (n / 1024)).frame = some 0xF := by
      rw [self_map, h.selfMap]
      exact h.page?_selfMap
    cases frame.symm.trans resolved
    exact self self_map
  · have named : c.Table (n / 1024) (c.pde (n / 1024)).frame :=
      ⟨by omega, self_map, names, rfl⟩
    cases frame.symm.trans (h.page?_frame named)
    exact table _ named

/-- Changes of pages that no walk reads show in no walk. -/
lemma walk_blind {O : Nat → Prop} (shut : ∀ p, c.Wires p → ¬ O p) {r : Ram}
    (same : c.ram.SameOff O r) : r.walk = c.ram.walk := by
  funext n
  have directory (i : Nat) (hi : i < 1024) : r.entry 0xF i = c.pde i := by
    rw [Ram.entry, same.word 0xF i h.large hi (shut 0xF (Or.inl rfl))]
    rfl
  refine h.walk_congr same.pages (fun hn => directory _ (by omega))
    (fun _ => directory _ (by omega)) fun t table => ?_
  rw [Ram.entry, same.word t _ (h.lt_pages table) (by omega) (shut t (Or.inr ⟨_, table⟩))]
  rfl

lemma not_wires_database (hp : c.parameters.databasePage ≤ p) : ¬ c.Wires p := by
  rintro (rfl | ⟨i, table⟩)
  · have := h.fit.directory
    omega
  · have := h.lt_database table
    omega

end Mapped

/-! ### Changes of single words -/

lemma entry_setWord {q : Nat} (hp : p < c.ram.pages) (hi : i < 1024) (hq : q < c.ram.pages)
    (hj : j < 1024) :
    (c.setWord p i w).ram.entry q j = if q = p ∧ j = i then ⟨w⟩ else c.ram.entry q j := by
  have := c.ram.pages_le
  rw [Ram.entry, setWord, Ram.word_setWord (by omega) hi (by omega) hj]
  split <;> rfl

lemma entry_wipe {q count : Nat} (hq : q < c.ram.pages) (hj : j < 1024) :
    (c.wipe p count).ram.entry q j =
      if p ≤ q ∧ q < p + count then .zero else c.ram.entry q j := by
  have := c.ram.pages_le
  rw [Ram.entry, wipe, Ram.word_wipe (by omega) hj]
  split <;> rfl

lemma sameOff_setWord {O : Nat → Prop} (hp : p < c.ram.pages) (hi : i < 1024) (free : O p) :
    c.ram.SameOff O (c.setWord p i w).ram := by
  have := c.ram.pages_le
  refine ⟨rfl, fun q j hq hj shut => ?_⟩
  rw [setWord, Ram.word_setWord (by omega) hi (by omega) hj, if_neg]
  rintro ⟨rfl, _⟩
  exact shut free

lemma sameOff_wipe {O : Nat → Prop} {count : Nat} (free : ∀ q, p ≤ q → q < p + count → O q) :
    c.ram.SameOff O (c.wipe p count).ram := by
  have := c.ram.pages_le
  refine ⟨rfl, fun q j hq hj shut => ?_⟩
  rw [wipe, Ram.word_wipe (by omega) hj, if_neg]
  rintro ⟨low, high⟩
  exact shut (free q low high)

namespace Mapped

variable (h : c.Mapped)
include h

/-- A directory entry shows in the walks of its span and of the page that shows its table. -/
lemma walk_setDirectory (hi : i < 1024) (span : n / 1024 ≠ i)
    (window : n ≠ 0xC0000 + i) : (c.setWord 0xF i w).ram.walk n = c.ram.walk n := by
  have large := h.large
  refine h.walk_congr rfl (fun hn => ?_) (fun self => ?_) fun t table => ?_
  · rw [entry_setWord large hi large (by omega), if_neg (by omega)]
    rfl
  · rw [entry_setWord large hi large (by omega), if_neg (by omega)]
    rfl
  · have := h.apart _ t table
    rw [entry_setWord large hi (h.lt_pages table) (by omega), if_neg (by omega)]
    rfl

/-- An entry of a page table shows in the walk of the page that it maps. -/
lemma walk_setTable (table : c.Table i t) (hj : j < 1024) (other : n ≠ i * 1024 + j) :
    (c.setWord t j w).ram.walk n = c.ram.walk n := by
  have large := h.large
  have inside := h.lt_pages table
  have apart := h.apart i t table
  refine h.walk_congr rfl (fun hn => ?_) (fun self => ?_) fun s named => ?_
  · rw [entry_setWord inside hj large (by omega), if_neg (by omega)]
    rfl
  · rw [entry_setWord inside hj large (by omega), if_neg (by omega)]
    rfl
  · rw [entry_setWord inside hj (h.lt_pages named) (by omega), if_neg]
    · rfl
    rintro ⟨rfl, rfl⟩
    have := h.distinct _ _ _ named table
    omega

/-- Nothing is mapped through an entry that is not valid. -/
lemma walk_eq_none_of_entry (table : c.Table (n / 1024) t)
    (invalid : (c.pte t (n % 1024)).valid = false) : c.ram.walk n = none := by
  have lt := table.lt
  rw [Ram.walk_table_eq (by omega) table.names (h.page?_frame table), if_neg]
  exact Bool.not_eq_true _ ▸ invalid

/-- An entry that was not valid may get any value without a page being unmapped. -/
lemma walk_le_setTable (table : c.Table i t) (hj : j < 1024)
    (invalid : (c.pte t j).valid = false) :
    PageMap.Le c.ram.walk (c.setWord t j w).ram.walk := by
  intro m p mapped
  have other : m ≠ i * 1024 + j := by
    rintro rfl
    have index : (i * 1024 + j) / 1024 = i := by omega
    have rest : (i * 1024 + j) % 1024 = j := by omega
    rw [h.walk_eq_none_of_entry (by rwa [index]) (by rwa [rest])] at mapped
    cases mapped
  rw [h.walk_setTable table hj other]
  exact mapped

lemma walk_setWord (hp : p < c.ram.pages) (hi : i < 1024) (unread : ¬ c.Wires p) :
    (c.setWord p i w).ram.walk = c.ram.walk := by
  refine h.walk_blind (O := (· = p)) ?_ (sameOff_setWord hp hi rfl)
  rintro q wires rfl
  exact unread wires

lemma walk_wipe {count : Nat} (unread : ∀ q, p ≤ q → q < p + count → ¬ c.Wires q) :
    (c.wipe p count).ram.walk = c.ram.walk := by
  refine h.walk_blind (O := fun q => p ≤ q ∧ q < p + count) ?_
    (sameOff_wipe fun q low high => ⟨low, high⟩)
  rintro q wires ⟨low, high⟩
  exact unread q low high wires

end Mapped

/-! ### Machines with the same tables -/

lemma Table.congr (table : c.Table i t) (pde : ∀ i < 1024, c'.pde i = c.pde i) : c'.Table i t := by
  have same := pde i table.lt
  exact ⟨table.lt, table.ne, same ▸ table.names, same ▸ table.frame⟩

lemma Mapped.congr (h : c.Mapped) (parameters : c'.parameters = c.parameters)
    (pages : c'.ram.pages = c.ram.pages) (pde : ∀ i < 1024, c'.pde i = c.pde i) : c'.Mapped := by
  have back {i t : Nat} (table : c'.Table i t) : c.Table i t :=
    table.congr fun i hi => (pde i hi).symm
  refine ⟨parameters ▸ h.fit, ?_, ?_, ?_, ?_, ?_, ?_, ?_⟩
  · rw [parameters, pages]
    exact h.installed
  · rw [pde 0x300 (by decide)]
    exact h.selfMap
  · intro i t table
    rw [parameters]
    exact h.low i t (back table)
  · exact fun i t table => h.apart i t (back table)
  · exact fun i j t table other => h.distinct i j t (back table) (back other)
  · intro i low high
    rw [pde i (by omega)]
    exact h.largePages i low high
  · intro i hi own outside
    rw [pde i hi]
    exact h.others i hi own outside

lemma Wired.congr (h : c.Wired) (parameters : c'.parameters = c.parameters)
    (pages : c'.ram.pages = c.ram.pages) (pde : ∀ i < 1024, c'.pde i = c.pde i)
    (pte : ∀ i t, c.Table i t → ∀ j < 1024, c'.pte t j = c.pte t j) : c'.Wired := by
  refine ⟨h.toMapped.congr parameters pages pde, fun q hq => ?_⟩
  rw [parameters] at hq ⊢
  obtain ⟨t, table, entry⟩ := h.database q hq
  exact ⟨t, table.congr pde, (pte _ t table _ (by omega)).trans entry⟩

end Machine

end ConsoleMemory
