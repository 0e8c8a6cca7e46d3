import ConsoleMemory.Manager.Records
import ConsoleMemory.Proofs.FreeList.History
import ConsoleMemory.Proofs.Manager.Occupied

/-!
# Pages that change hands

A page that is taken from the free list becomes busy, and one that is given back
was busy before. `Reassigned` says what all such changes have in common; the
invariant follows from it once the free list and the records agree again.
-/

namespace ConsoleMemory

open Finset (Ico)

namespace Machine

variable {c c' : Machine} {i j p t first last past : Nat} {l : FreeList} {R : Nat → Prop}

/-- The machines differ in the pages of `R`, which hold neither the page directory nor the PFN
database: in their records, and in the page tables that they hold. -/
structure Reassigned (c c' : Machine) (R : Nat → Prop) : Prop where
  parameters : c'.parameters = c.parameters
  pageCount : c'.freeList.pageCount = c.freeList.pageCount
  boundary : c'.freeList.boundary = c.freeList.boundary
  apart : ∀ p, R p → p ≠ 0xF ∧
    (p < c.parameters.databasePage ∨ c.parameters.databasePage + c.parameters.databasePages ≤ p)
  record : ∀ p ≤ c.parameters.highestPage, ¬ R p → c'.record p = c.record p
  table_iff : ∀ i t, ¬ R t → (c'.Table i t ↔ c.Table i t)
  pte : ∀ i t, c.Table i t → ¬ R t → ∀ j < 1024, c'.pte t j = c.pte t j

namespace Reassigned

variable (re : Reassigned c c' R)
include re

/-- Counters, records and tables agree again, where they do for the pages that changed. -/
theorem ordered (h : c.Ordered) (wired : c'.Wired) (counted : c'.Counted)
    (blank : ∀ p ≤ c.parameters.highestPage, R p → (c'.record p).busy = false →
      c'.record p = .zero)
    (tables : ∀ i t, R t → c'.Table i t →
      (c'.record t).isBusyPageTable = true ∧ (c'.record t).entriesUsed = c'.inUse t)
    (owned : ∀ p, R p → (c'.record p).isBusyPageTable = true → ∃ i, c'.Table i p) :
    c'.Ordered := by
  have directory := h.fit.directory
  have inside := h.fit.inside
  have kept_table {i t : Nat} (other : ¬ R t) (table : c'.Table i t) :
      c.Table i t ∧ c'.record t = c.record t := by
    have table := (re.table_iff i t other).mp table
    exact ⟨table, re.record t (h.toWired.table_le table) other⟩
  refine ⟨wired, counted, ?_, ?_, fun p hp idle => ?_, ?_, fun q hq => ?_,
    fun i t table => ?_, fun i t table => ?_, fun p hp ne busy => ?_⟩
  · rw [re.pageCount, re.parameters]
    exact h.pageCount
  · rw [re.boundary, re.parameters]
    exact h.boundary
  · rw [re.parameters] at hp
    by_cases changed : R p
    · exact blank p hp changed idle
    · rw [re.record p hp changed] at idle ⊢
      exact h.blank p hp idle
  · rw [re.record 0xF (by omega) fun changed => (re.apart 0xF changed).1 rfl]
    exact h.directory
  · rw [re.parameters] at hq ⊢
    rw [re.record _ (by omega) fun changed => by
      have := (re.apart _ changed).2
      omega]
    exact h.databasePages q hq
  · by_cases changed : R t
    · exact (tables i t changed table).1
    · obtain ⟨table, record⟩ := kept_table changed table
      rw [record]
      exact h.tables i t table
  · by_cases changed : R t
    · exact (tables i t changed table).2
    · obtain ⟨table, record⟩ := kept_table changed table
      rw [record, inUse_congr (re.pte i t table changed)]
      exact h.used i t table
  · rw [re.parameters] at hp
    by_cases changed : R p
    · exact owned p changed busy
    · rw [re.record p hp changed] at busy
      obtain ⟨i, table⟩ := h.owned p hp ne busy
      exact ⟨i, (re.table_iff i p changed).mpr table⟩

/-- Entries stay on target if none that is valid maps a page that changed. -/
theorem targeted (h : c.Targeted)
    (blank : ∀ i t, R t → c'.Table i t → ∀ j < 1024, (c'.pte t j).valid = false)
    (missed : ∀ i t, c.Table i t → ¬ R t → ∀ j < 1024, (c.pte t j).valid = true →
      (c.pte t j).frame ≤ c.parameters.highestPage → ¬ R (c.pte t j).frame) : c'.Targeted := by
  intro i t table j hj valid frame
  by_cases changed : R t
  · rw [blank i t changed table j hj] at valid
    cases valid
  · have table := (re.table_iff i t changed).mp table
    rw [re.pte i t table changed j hj] at valid frame ⊢
    rw [re.parameters] at frame
    rw [re.record _ frame (missed i t table changed j hj valid frame)]
    exact h i t table j hj valid frame

end Reassigned

/-- With the tables as they are, the records of the pages in `R` are all that changes. -/
lemma SameTables.reassigned (same : c.SameTables c') (mapped : c.Mapped)
    (apart : ∀ p, R p → p ≠ 0xF ∧
      (p < c.parameters.databasePage ∨ c.parameters.databasePage + c.parameters.databasePages ≤ p))
    (record : ∀ p ≤ c.parameters.highestPage, ¬ R p → c'.record p = c.record p) :
    Reassigned c c' R :=
  ⟨same.parameters, congrArg FreeList.pageCount same.freeList,
    congrArg FreeList.boundary same.freeList, apart, record, fun _ _ _ => same.table_iff mapped,
    fun _ _ table _ _ hj => same.pte mapped table hj⟩

/-! ### Another free list -/

/-- The machine with another free list. -/
def setFree (c : Machine) (l : FreeList) : Machine := { c with freeList := l }

lemma table_setFree : (c.setFree l).Table i t ↔ c.Table i t :=
  ⟨fun table => table.congr fun _ _ => rfl, fun table => table.congr fun _ _ => rfl⟩

lemma Wired.setFree (h : c.Wired) (l : FreeList) : (c.setFree l).Wired :=
  h.congr rfl rfl (fun _ _ => rfl) fun _ _ _ _ _ => rfl

lemma Counted.setFree (h : c.Counted) (l : FreeList) : (c.setFree l).Counted := h

lemma reassigned_setFree (pageCount : l.pageCount = c.freeList.pageCount)
    (boundary : l.boundary = c.freeList.boundary) :
    Reassigned c (c.setFree l) fun _ => False :=
  ⟨rfl, pageCount, boundary, nofun, fun _ _ _ => rfl, fun _ _ _ => table_setFree,
    fun _ _ _ _ _ _ => rfl⟩

/-- The blocks and the count of a pool are what taking and giving back pages changes. -/
lemma Ordered.recharge {chain : Chain Block} {n : Nat} (h : c.Ordered)
    (eq : l = { c.freeList with chain }.withPool p n) : (c.setFree l).Ordered := by
  have pageCount : l.pageCount = c.freeList.pageCount := by
    rw [eq]
    exact FreeList.pageCount_withPool _ _
  have boundary : l.boundary = c.freeList.boundary := by
    rw [eq]
    exact FreeList.boundary_withPool _ _
  exact (reassigned_setFree pageCount boundary).ordered h (h.toWired.setFree l)
    (h.counted.setFree l) nofun nofun nofun

lemma Targeted.setFree (h : c.Targeted) (l : FreeList) : (c.setFree l).Targeted :=
  fun i t table => h i t (table_setFree.mp table)

/-! ### Pages that may change hands -/

/-- An idle page holds neither the directory nor a part of the database. -/
lemma Ordered.apart_of_idle (h : c.Ordered) (idle : p ∈ c.idlePages) : p ≠ 0xF ∧
    (p < c.parameters.databasePage ∨
      c.parameters.databasePage + c.parameters.databasePages ≤ p) := by
  obtain ⟨hp, idle⟩ := mem_idlePages.mp idle
  constructor
  · rintro rfl
    rw [h.directory.1] at idle
    cases idle
  · by_contra inside
    have busy := (h.databasePages (p - c.parameters.databasePage) (by omega)).1
    rw [Nat.add_sub_cancel' (by omega), idle] at busy
    cases busy

/-- No valid entry maps an idle page of memory. -/
lemma Targeted.not_idle (h : c.Targeted) (table : c.Table i t) (hj : j < 1024)
    (valid : (c.pte t j).valid = true) : (c.pte t j).frame ∉ c.idlePages := by
  intro idle
  obtain ⟨hp, idle⟩ := mem_idlePages.mp idle
  rw [(h i t table j hj valid hp).1] at idle
  cases idle

/-- Pages that may be given back: busy, but neither a page table nor a part of the database, and
mapped by no valid entry. -/
structure Dispensable (c : Machine) (first last : Nat) : Prop where
  le : first ≤ last
  inside : last ≤ c.parameters.highestPage
  busy : ∀ p, first ≤ p → p ≤ last → (c.record p).busy = true
  nontable : ∀ p, first ≤ p → p ≤ last → (c.record p).pageType.isPageTable = false
  outside : ∀ p, first ≤ p → p ≤ last →
    p < c.parameters.databasePage ∨ c.parameters.databasePage + c.parameters.databasePages ≤ p
  unmapped : ∀ i t, c.Table i t → ∀ j < 1024, (c.pte t j).valid = true →
    ¬ (first ≤ (c.pte t j).frame ∧ (c.pte t j).frame ≤ last)

lemma Dispensable.occupied (d : c.Dispensable first last) (low : first ≤ p) (high : p ≤ last) :
    c.Occupied p :=
  ⟨high.trans d.inside, d.busy p low high, d.nontable p low high, d.outside p low high⟩

/-- The manager while the pages of `[first, last]` change hands: they are not busy, and the free
list lacks them. -/
structure Lacks (c : Machine) (first last : Nat) : Prop extends c.Ordered where
  le : first ≤ last
  idle : ∀ p, first ≤ p → p ≤ last → p ∈ c.idlePages
  free : c.freeList.Keeps (c.idlePages \ Ico first (last + 1))

lemma idlePages_taken (parameters : c'.parameters = c.parameters)
    (busy : ∀ p ≤ c.parameters.highestPage, (c'.record p).busy =
      if first ≤ p ∧ p < past then true else (c.record p).busy) :
    c'.idlePages = c.idlePages \ Ico first past := by
  ext p
  rw [Finset.mem_sdiff, Finset.mem_Ico, mem_idlePages, mem_idlePages, parameters]
  constructor
  · rintro ⟨hp, idle⟩
    rw [busy p hp] at idle
    split at idle
    · cases idle
    · next outside => exact ⟨⟨hp, idle⟩, outside⟩
  · rintro ⟨⟨hp, idle⟩, outside⟩
    refine ⟨hp, ?_⟩
    rw [busy p hp, if_neg outside]
    exact idle

lemma idlePages_returned (parameters : c'.parameters = c.parameters)
    (inside : past ≤ c.parameters.highestPage + 1)
    (busy : ∀ p ≤ c.parameters.highestPage, (c'.record p).busy =
      if first ≤ p ∧ p < past then false else (c.record p).busy) :
    c'.idlePages = c.idlePages ∪ Ico first past := by
  ext p
  rw [Finset.mem_union, Finset.mem_Ico, mem_idlePages, mem_idlePages, parameters]
  constructor
  · rintro ⟨hp, idle⟩
    rw [busy p hp] at idle
    split at idle
    · next within => exact Or.inr within
    · exact Or.inl ⟨hp, idle⟩
  · rintro (⟨hp, idle⟩ | within)
    · refine ⟨hp, ?_⟩
      rw [busy p hp]
      split
      · rfl
      · exact idle
    · refine ⟨by omega, ?_⟩
      rw [busy p (by omega), if_pos within]

end Machine

namespace Manager

open Machine

variable {c : Machine} {W : PageMap} {first last : Nat} {l : FreeList} {r : PageRequest}
  {o : Option Nat} {e : Abort} {t : PageType} {entry : VirtualAddress}

lemma take_leads (ok : c.freeList.remove r = .ok (o, l)) :
    Leads c W (take r) o (c.setFree l) W := by
  have changed : Leads c W (change fun m => return { m with freeList := l }) () (c.setFree l) W :=
    Leads.change fun _ => rfl
  exact Leads.current fun _ => (Leads.lift ok).bind (changed.bind ((Leads.notes _).bind .pure))

lemma take_fails (abort : c.freeList.remove r = .error e) : Fails c W (take r) e :=
  Fails.current fun _ => (Fails.lift abort).bind

lemma giveBack_leads (ok : c.freeList.insert first last = .ok l) :
    Leads c W (giveBack first last) () (c.setFree l) W := by
  have changed : Leads c W (change fun m =>
      return { m with freeList := ← m.freeList.insert first last }) () (c.setFree l) W := by
    refine Leads.change fun t => ?_
    change (do let freeList ← c.freeList.insert first last; _) = _
    rw [ok]
    rfl
  exact changed.bind (.note _)

lemma giveBack_fails (abort : c.freeList.insert first last = .error e) :
    Fails c W (giveBack first last) e := by
  refine (Fails.change fun t => ?_).bind
  change (do let freeList ← c.freeList.insert first last; _) = _
  rw [abort]
  rfl

/-- Pages that are taken are lacking from then on. -/
theorem take_outcome (h : c.Kept) :
    (∃ e, Fails c c.ram.walk (take r) e) ∨ Yields c (take r) none c ∨
      ∃ page l, Yields c (take r) (some page) (c.setFree l) ∧
        (c.setFree l).Lacks page (page + r.count - 1) := by
  cases removed : c.freeList.remove r with
  | error e => exact Or.inl ⟨e, take_fails removed⟩
  | ok result =>
    obtain ⟨_ | page, l⟩ := result
    · cases h.free.of_remove_none removed
      exact Or.inr (Or.inl (take_leads removed))
    · obtain ⟨pos, serves, keeps, chain, taken, _⟩ := h.free.of_remove_some removed
      refine Or.inr (Or.inr ⟨page, l, take_leads removed, h.toOrdered.recharge taken, by omega,
        fun q low high => serves.free q low (by omega), ?_⟩)
      rw [Nat.sub_add_cancel (by omega)]
      exact keeps

/-- Lacking pages that are marked busy, but not as page tables, belong to the kernel. -/
theorem markBusy_yields (h : c.Lacks first last) (entry : VirtualAddress)
    (nontable : t.isPageTable = false) :
    ∃ c', Yields c (markBusy first last entry t) () c' ∧ c'.Kept ∧ c.SameTables c' ∧
      (c.Targeted → c'.Targeted) := by
  have le := h.le
  have mapped := h.toMapped
  have inside := (mem_idlePages.mp (h.idle last le le_rfl)).1
  obtain ⟨c', ran, same, counted, records⟩ := markBusyFrom_yields (t := t) h.toWired h.counted first
    (last + 1 - first) entry (by omega) fun q low high busy => by
      have := (mem_idlePages.mp (h.idle q low (by omega))).2
      exact absurd (this.symm.trans busy) Bool.false_ne_true
  have past : first + (last + 1 - first) = last + 1 := by omega
  rw [past] at records
  have re : Reassigned c c' fun p => first ≤ p ∧ p < last + 1 :=
    same.reassigned mapped
      (fun p changed => h.apart_of_idle (h.idle p changed.1 (by omega)))
      fun q hq outside => by rw [records q hq, if_neg outside]
  have untouched {i s : Nat} (changed : first ≤ s ∧ s < last + 1) : ¬ c'.Table i s := fun table =>
    h.not_idle_of_table ((same.table_iff mapped).mp table) (h.idle s changed.1 (by omega))
  have record {q : Nat} (changed : first ≤ q ∧ q < last + 1) :
      c'.record q = recordFor t (entry + (q - first) * 4) := by
    rw [records q (by omega), if_pos changed]
  refine ⟨c', ran, ⟨re.ordered h.toOrdered (same.wired h.toWired) counted
    (fun q _ changed idle => ?_) (fun i s changed table => (untouched changed table).elim)
    fun q changed busy => ?_, ?_⟩, same, fun targeted => ?_⟩
  · rw [record changed, busy_recordFor] at idle
    cases idle
  · rw [PfnRecord.isBusyPageTable, record changed, pageType_recordFor, nontable,
      Bool.and_false] at busy
    cases busy
  · rw [same.freeList, idlePages_taken same.parameters fun q hq => ?_]
    · exact h.free
    rw [records q hq]
    split
    · exact busy_recordFor t _
    · rfl
  · refine re.targeted targeted (fun i s changed table => (untouched changed table).elim)
      fun i s table _ j hj valid _ changed => ?_
    exact targeted.not_idle table hj valid (h.idle _ changed.1 (by omega))

/-- Dispensable pages that are marked idle are lacking from then on. -/
theorem markIdle_yields (h : c.Kept) (d : c.Dispensable first last) :
    ∃ c', Yields c (markIdle first last) () c' ∧ c'.Lacks first last ∧
      c.SameTables c' ∧ (c.Targeted → c'.Targeted) := by
  have mapped := h.toMapped
  have le := d.le
  have inside := d.inside
  have past : first + (last + 1 - first) = last + 1 := by omega
  obtain ⟨c', ran, same, counted, records⟩ := markIdleFrom_yields h.toWired h.counted first
    (last + 1 - first) (by omega) fun q low high =>
      d.busy q low (by omega)
  rw [past] at records
  have re : Reassigned c c' fun p => first ≤ p ∧ p < last + 1 :=
    same.reassigned mapped
      (fun q changed =>
        have occupied := d.occupied changed.1 (Nat.le_of_lt_succ changed.2)
        ⟨occupied.ne_directory h.toOrdered, occupied.outside⟩)
      fun q hq outside => by rw [records q hq, if_neg outside]
  have untouched {i s : Nat} (changed : first ≤ s ∧ s < last + 1) : ¬ c'.Table i s := fun table =>
    (d.occupied changed.1 (Nat.le_of_lt_succ changed.2)).not_table h.toOrdered
      ((same.table_iff mapped).mp table)
  have record {q : Nat} (changed : first ≤ q ∧ q < last + 1) : c'.record q = .zero := by
    rw [records q (by omega), if_pos changed]
  refine ⟨c', ran, ⟨re.ordered h.toOrdered (same.wired h.toWired) counted
    (fun q _ changed _ => record changed) (fun i s changed table => (untouched changed table).elim)
    fun q changed busy => ?_, le, fun q low high => ?_, ?_⟩, same, fun targeted => ?_⟩
  · rw [record changed, PfnRecord.isBusyPageTable_zero] at busy
    cases busy
  · rw [mem_idlePages, same.parameters, record ⟨low, by omega⟩]
    exact ⟨by omega, PfnRecord.busy_zero⟩
  · have idle : c'.idlePages = c.idlePages ∪ Ico first (last + 1) := by
      refine idlePages_returned same.parameters (by omega) fun q hq => ?_
      rw [records q hq]
      split
      · exact PfnRecord.busy_zero
      · rfl
    rw [same.freeList, idle, Finset.union_sdiff_cancel_right]
    · exact h.free
    refine Finset.disjoint_left.mpr fun q was changed => ?_
    have bounds := Finset.mem_Ico.mp changed
    exact (d.occupied bounds.1 (Nat.le_of_lt_succ bounds.2)).not_idle was
  · refine re.targeted targeted (fun i s changed table => (untouched changed table).elim)
      fun i s table _ j hj valid _ changed => ?_
    exact d.unmapped i s table j hj valid ⟨changed.1, by omega⟩

/-- Lacking pages that are given back are free. -/
theorem giveBack_outcome (h : c.Lacks first last) :
    (∃ e, Fails c c.ram.walk (giveBack first last) e) ∨
      ∃ l, Yields c (giveBack first last) () (c.setFree l) ∧ (c.setFree l).Kept := by
  cases inserted : c.freeList.insert first last with
  | error e => exact Or.inl ⟨e, giveBack_fails inserted⟩
  | ok l =>
    have inside := (mem_idlePages.mp (h.idle last h.le le_rfl)).1
    obtain ⟨_, keeps, chain, returned⟩ :=
      h.free.of_insert h.le (h.pageCount ▸ Nat.lt_succ_of_le inside) inserted
    refine Or.inr ⟨l, giveBack_leads inserted, h.toOrdered.recharge returned, ?_⟩
    have covered : Ico first (last + 1) ⊆ c.idlePages := fun p mem => by
      have bounds := Finset.mem_Ico.mp mem
      exact h.idle p bounds.1 (by omega)
    rw [Finset.sdiff_union_of_subset covered] at keeps
    exact keeps

end Manager

end ConsoleMemory
