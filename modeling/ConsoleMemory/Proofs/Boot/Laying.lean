import ConsoleMemory.Manager.Boot
import ConsoleMemory.Proofs.Manager.Committing

/-!
# Laying the tables of the database

While the tables that map the PFN database are laid, no record describes any
page. What is known is which tables there are, that they are empty, and that
every other page but the directory is free.
-/

namespace ConsoleMemory

open VirtualAddress
open Finset (Ico)

namespace Machine

variable {c c' : Machine} {first n t : Nat} {S : Finset Nat}

/-- The machine has the tables of the directory entries `[first, first + n)`, all of them empty, and
the pages of `S` are free. -/
structure Laying (c : Machine) (first n : Nat) (S : Finset Nat) : Prop extends c.Mapped where
  table_iff : ∀ k, (∃ t, c.Table k t) ↔ first ≤ k ∧ k < first + n
  blank : ∀ k t, c.Table k t → ∀ j < 1024, c.pte t j = .zero
  vacant : ∀ k, first + n ≤ k → k < 0x300 → (c.pde k).valid = false
  free : c.freeList.Keeps S
  mem : ∀ p, p ∈ S ↔ p ≤ c.parameters.highestPage ∧ p ≠ 0xF ∧ ∀ k, ¬ c.Table k p

namespace Laying

variable (h : Laying c first n S)
include h

lemma canHold (inside : first + n < 0x300) (free : t ∈ S) (low : t ≤ c.parameters.contiguousLimit) :
    c.CanHold (first + n) t := by
  obtain ⟨_, apart, fresh⟩ := (h.mem t).mp free
  exact ⟨by omega, h.vacant _ le_rfl inside, low, apart, fresh⟩

/-- One table more. -/
lemma install {l : FreeList} (inside : first + n < 0x300)
    (lost : c.freeList.Loses S c.parameters.contiguousLimit t l) :
    Laying ((c.setFree l).install (first + n) t) first (n + 1) (S \ Ico t (t + 1)) := by
  have hold := h.canHold inside lost.mem lost.le
  have mapped := h.toMapped
  have table {k s : Nat} : ((c.setFree l).install (first + n) t).Table k s ↔
      k = first + n ∧ s = t ∨ c.Table k s := by
    have table := table_install mapped hold (k := k) (s := s)
    exact ⟨fun named => table.mp (named.congr fun _ _ => rfl),
      fun either => (table.mpr either).congr fun _ _ => rfl⟩
  have installed := mapped.install hold
  refine ⟨installed.congr rfl rfl fun _ _ => rfl, fun k => ?_, fun k s named j hj => ?_,
    fun k above below => ?_, lost.keeps, fun p => ?_⟩
  · constructor
    · rintro ⟨s, named⟩
      rcases table.mp named with ⟨rfl, _⟩ | old
      · omega
      · have := (h.table_iff k).mp ⟨s, old⟩
        omega
    · rintro ⟨low, high⟩
      by_cases last : k = first + n
      · exact ⟨t, table.mpr (Or.inl ⟨last, rfl⟩)⟩
      · obtain ⟨s, old⟩ := (h.table_iff k).mpr ⟨low, by omega⟩
        exact ⟨s, table.mpr (Or.inr old)⟩
  · have entry {s : Nat} (hs : s < c.ram.pages) (ne : s ≠ 0xF) := pte_install mapped hold hs ne hj
    rcases table.mp named with ⟨_, rfl⟩ | old
    · refine (entry (hold.lt_pages mapped) hold.apart).trans ?_
      rw [if_pos rfl]
    · refine (entry (mapped.lt_pages old) (mapped.apart k s old)).trans ?_
      split
      · rfl
      · exact h.blank k s old j hj
  · have entry := pde_install mapped hold (k := k) (by omega)
    rw [if_neg (by omega)] at entry
    have vacant := h.vacant k (by omega) below
    rw [← entry] at vacant
    exact vacant
  · rw [Finset.mem_sdiff, Finset.mem_Ico, h.mem p]
    constructor
    · rintro ⟨⟨inside, apart, none⟩, other⟩
      refine ⟨inside, apart, fun k named => ?_⟩
      rcases table.mp named with ⟨_, rfl⟩ | old
      · omega
      · exact none k old
    · rintro ⟨inside, apart, none⟩
      refine ⟨⟨inside, apart, fun k old => none k (table.mpr (Or.inr old))⟩, fun same => ?_⟩
      cases (by omega : p = t)
      exact none (first + n) (table.mpr (Or.inl ⟨rfl, rfl⟩))

end Laying

/-- Free pages that are low enough for page tables. -/
def low (S : Finset Nat) (limit : Nat) : Finset Nat := S.filter (· ≤ limit)

lemma low_sdiff (limit : Nat) :
    low (S \ Ico t (t + 1)) limit = (low S limit).erase t := by
  ext p
  simp only [low, Finset.mem_filter, Finset.mem_sdiff, Finset.mem_Ico, Finset.mem_erase]
  constructor
  · rintro ⟨⟨free, other⟩, le⟩
    exact ⟨by omega, free, le⟩
  · rintro ⟨other, free, le⟩
    exact ⟨⟨free, by omega⟩, le⟩

lemma card_low_lost {l l' : FreeList} {limit : Nat} (lost : l.Loses S limit t l') :
    (low (S \ Ico t (t + 1)) limit).card + 1 = (low S limit).card := by
  have mem : t ∈ low S limit := Finset.mem_filter.mpr ⟨lost.mem, lost.le⟩
  rw [low_sdiff, Finset.card_erase_add_one mem]

/-- The pages of `H` are the `n` highest of `S`. -/
structure Topmost (S : Finset Nat) (n : Nat) (H : Finset Nat) : Prop where
  sub : H ⊆ S
  card : H.card = n
  above : ∀ p ∈ H, ∀ q ∈ S, q ∉ H → q < p

lemma Topmost.empty (S : Finset Nat) : Topmost S 0 ∅ :=
  ⟨Finset.empty_subset S, Finset.card_empty, fun _ none => absurd none (Finset.notMem_empty _)⟩

/-- The highest page and the highest ones of the rest. -/
lemma Topmost.insert {H : Finset Nat} (mem : t ∈ S) (highest : ∀ p ∈ S, p ≤ t)
    (rest : Topmost (S.erase t) n H) : Topmost S (n + 1) (insert t H) := by
  have fresh : t ∉ H := fun inside => Finset.notMem_erase t S (rest.sub inside)
  refine ⟨Finset.insert_subset mem (rest.sub.trans (Finset.erase_subset t S)), ?_,
    fun p hp q hq other => ?_⟩
  · rw [Finset.card_insert_of_notMem fresh, rest.card]
  · rw [Finset.mem_insert, not_or] at other
    rcases Finset.mem_insert.mp hp with rfl | hp
    · exact Nat.lt_of_le_of_ne (highest q hq) other.1
    · exact rest.above p hp q (Finset.mem_erase.mpr ⟨other.1, hq⟩) other.2

end Machine

namespace Manager

open Machine

variable {c : Machine} {first n count : Nat} {S : Finset Nat}

/-- The tables are laid one after the other, each in the highest page that may hold one. -/
theorem installDatabaseTables_yields (h : Laying c first n S) (count : Nat)
    (inside : first + n + count ≤ 0x300)
    (general : count ≤ c.freeList.general)
    (room : count ≤ (low S c.parameters.contiguousLimit).card)
    (own : ∀ b, c.freeList.boundary = some b → c.parameters.contiguousLimit < b) :
    ∃ c' H, Yields c (installDatabaseTables count (directoryEntryOf (first + n))) () c' ∧
      Laying c' first (n + count) (S \ H) ∧ Topmost (low S c.parameters.contiguousLimit) count H ∧
      c'.parameters = c.parameters ∧ c'.ram.pages = c.ram.pages ∧ c'.usage = c.usage ∧
      c'.freeList.pageCount = c.freeList.pageCount ∧ c'.freeList.boundary = c.freeList.boundary ∧
      c'.freeList.general + count = c.freeList.general ∧
      c'.freeList.debugger = c.freeList.debugger := by
  induction count generalizing c n S with
  | zero =>
    refine ⟨c, ∅, .pure, ?_, .empty _, rfl, rfl, rfl, rfl, rfl, rfl, rfl⟩
    rw [Finset.sdiff_empty]
    exact h
  | succ count ih =>
    rcases h.free.remove_page (by omega) own with ⟨_, none⟩ | ⟨t, l, some, lost⟩
    · obtain ⟨p, hp⟩ := Finset.card_pos.mp (Nat.lt_of_lt_of_le count.succ_pos room)
      obtain ⟨free, le⟩ := Finset.mem_filter.mp hp
      exact absurd le (Nat.not_le_of_lt (none p free))
    have hold := h.canHold (by omega) lost.mem lost.le
    have fewer := card_low_lost lost
    have spent := lost.general
    obtain ⟨c', H, ran, laid, topmost, parameters, pages, usage, pageCount, boundary, general',
      debugger⟩ :=
      ih (h.install (by omega) lost) (by omega) (by
        change count ≤ l.general
        omega) (by
        change count ≤ (low _ c.parameters.contiguousLimit).card
        omega) (by
        change ∀ b, l.boundary = _ → _
        rw [lost.boundary]
        exact own)
    refine ⟨c', insert t H, ?_, ?_, ?_, parameters, pages, usage, pageCount.trans lost.pageCount,
      boundary.trans lost.boundary, ?_, debugger.trans lost.debugger⟩
    · rw [installDatabaseTables, nextEntry_directoryEntryOf]
      refine (takeTablePage_leads some).bind ?_
      refine install_yields (c := c.setFree l) (h.toMapped.congr rfl rfl fun _ _ => rfl)
        ⟨hold.lt, hold.invalid, hold.low, hold.apart,
          fun k table => hold.fresh k (table.congr fun _ _ => rfl)⟩
        (f := fun _ => installDatabaseTables count (directoryEntryOf (first + n + 1))) ran
    · have count_eq : n + (count + 1) = n + 1 + count := by omega
      have rest : S \ insert t H = (S \ Ico t (t + 1)) \ H := by
        rw [Nat.Ico_succ_singleton, sdiff_sdiff_left, Finset.insert_eq]
        rfl
      rw [count_eq, rest]
      exact laid
    · refine .insert (Finset.mem_filter.mpr ⟨lost.mem, lost.le⟩) (fun p hp => ?_) ?_
      · obtain ⟨free, le⟩ := Finset.mem_filter.mp hp
        exact lost.highest p free le
      · rw [← low_sdiff]
        exact topmost
    · change c'.freeList.general + count = l.general at general'
      omega

end Manager

end ConsoleMemory
