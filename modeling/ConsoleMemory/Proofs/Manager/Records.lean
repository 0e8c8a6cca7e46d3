import ConsoleMemory.Proofs.Manager.Access
import Mathlib.Data.Finset.Card

/-!
# Marking pages

Marking pages busy or idle changes their records and the count of their type,
and nothing else. The counters stay the numbers of busy pages of each type.
-/

namespace ConsoleMemory

lemma card_filter_change {s : Finset Nat} {f g : Nat → Bool} {j : Nat} (mem : j ∈ s)
    (same : ∀ k ∈ s, k ≠ j → f k = g k) :
    (s.filter (f · = true)).card + (g j).toNat = (s.filter (g · = true)).card + (f j).toNat := by
  have rest : (s.erase j).filter (f · = true) = (s.erase j).filter (g · = true) := by
    refine Finset.filter_congr fun k hk => ?_
    rw [same k (Finset.mem_of_mem_erase hk) (Finset.ne_of_mem_erase hk)]
  have split (h : Nat → Bool) : (s.filter (h · = true)).card =
      ((s.erase j).filter (h · = true)).card + (h j).toNat := by
    conv_lhs => rw [← Finset.insert_erase mem]
    rw [Finset.filter_insert]
    cases present : h j with
    | true =>
      rw [if_pos rfl, Finset.card_insert_of_notMem]
      · rfl
      · exact fun again => absurd rfl (Finset.ne_of_mem_erase (Finset.mem_filter.mp again).1)
    | false => rfl
  rw [split f, split g, rest]
  omega

/-- Two counts of busy pages that agree for every type are the same. -/
lemma Usage.ext_count {u v : Usage} (same : ∀ t, u.count t = v.count t) : u = v := by
  rcases u with ⟨u⟩
  rcases v with ⟨v⟩
  refine congrArg Usage.mk (Vector.ext fun i hi => ?_)
  have code : ∀ i : Fin 11, (PageType.all.get i).index = i := by decide
  obtain ⟨t, index⟩ : ∃ t : PageType, t.index = ⟨i, hi⟩ := ⟨_, code ⟨i, hi⟩⟩
  have at_t := same t
  unfold Usage.count at at_t
  rw [index] at at_t
  exact at_t

open VirtualAddress

namespace Machine

variable {c c' c'' : Machine} {p q page count : Nat} {r : PfnRecord} {s t : PageType}

/-- Busy pages of type `t`. -/
def busyPages (c : Machine) (t : PageType) : Finset Nat :=
  (Finset.range (c.parameters.highestPage + 1)).filter fun p =>
    (c.record p).busy = true ∧ (c.record p).pageType = t

/-- The usage counters count the busy pages. -/
def Counted (c : Machine) : Prop := ∀ t, c.usage.count t = (c.busyPages t).card

/-- The machines differ at most in records and usage counters. -/
structure SameTables (c c' : Machine) : Prop where
  parameters : c'.parameters = c.parameters
  layout : c'.layout = c.layout
  freeList : c'.freeList = c.freeList
  size : c'.ram.size = c.ram.size
  entry : ∀ p < c.ram.pages, (p < c.parameters.databasePage ∨
    c.parameters.databasePage + c.parameters.databasePages ≤ p) →
    ∀ i < 1024, c'.ram.entry p i = c.ram.entry p i

namespace SameTables

lemma refl (c : Machine) : c.SameTables c := ⟨rfl, rfl, rfl, rfl, fun _ _ _ _ _ => rfl⟩

lemma pages (h : c.SameTables c') : c'.ram.pages = c.ram.pages := by
  rw [Ram.pages, Ram.pages, h.size]

lemma trans (h : c.SameTables c') (h' : c'.SameTables c'') : c.SameTables c'' := by
  refine ⟨h'.parameters.trans h.parameters, h'.layout.trans h.layout,
    h'.freeList.trans h.freeList, h'.size.trans h.size, fun p hp outside i hi => ?_⟩
  rw [← h.parameters] at outside
  rw [h'.entry p (by rwa [h.pages]) outside i hi]
  rw [h.parameters] at outside
  exact h.entry p hp outside i hi

lemma pde (h : c.SameTables c') (mapped : c.Mapped) {i : Nat} (hi : i < 1024) :
    c'.pde i = c.pde i := h.entry 0xF mapped.large (Or.inl mapped.fit.directory) i hi

lemma pte (h : c.SameTables c') (mapped : c.Mapped) {i t : Nat} (table : c.Table i t) {j : Nat}
    (hj : j < 1024) : c'.pte t j = c.pte t j :=
  h.entry t (mapped.lt_pages table) (Or.inl (mapped.lt_database table)) j hj

lemma table_iff (h : c.SameTables c') (mapped : c.Mapped) {i t : Nat} :
    c'.Table i t ↔ c.Table i t :=
  ⟨fun table => table.congr fun _ hi => (h.pde mapped hi).symm,
    fun table => table.congr fun _ hi => h.pde mapped hi⟩

lemma wired (h : c.SameTables c') (wired : c.Wired) : c'.Wired :=
  wired.congr h.parameters h.pages (fun _ hi => h.pde wired.toMapped hi)
    fun _ _ table _ hj => h.pte wired.toMapped table hj

lemma setRecord (mapped : c.Mapped) (hp : p ≤ c.parameters.highestPage) (u : Usage) :
    c.SameTables { c.setRecord p r with usage := u } := by
  refine ⟨rfl, rfl, rfl, rfl, fun q hq outside i hi => ?_⟩
  have place := (mapped.record_place hp).1
  have same := mapped.entry_setRecord (r := r) hp hq hi
  rw [if_neg (by omega)] at same
  exact same

end SameTables

lemma card_busyPages_le (c : Machine) (t : PageType) :
    (c.busyPages t).card ≤ c.parameters.highestPage + 1 := by
  have := Finset.card_filter_le (Finset.range (c.parameters.highestPage + 1)) fun p =>
    (c.record p).busy = true ∧ (c.record p).pageType = t
  rwa [Finset.card_range] at this

lemma mem_busyPages : p ∈ c.busyPages t ↔ p ≤ c.parameters.highestPage ∧
    (c.record p).busy = true ∧ (c.record p).pageType = t := by
  rw [busyPages, Finset.mem_filter, Finset.mem_range, Nat.lt_succ_iff]

/-- The machine with page `p`, so far idle, recorded as busy of type `t`. -/
def mark (c : Machine) (p : Nat) (r : PfnRecord) (t : PageType) : Machine :=
  { c.setRecord p r with usage := c.usage.set t (c.usage.count t + 1) }

/-- The machine with page `p`, so far busy of type `t`, recorded as idle. -/
def unmark (c : Machine) (p : Nat) (t : PageType) : Machine :=
  { c.setRecord p .zero with usage := c.usage.set t (c.usage.count t - 1) }

/-- A changed record takes its page from one count to another. -/
lemma card_busyPages_setRecord (mapped : c.Mapped) (hp : p ≤ c.parameters.highestPage)
    (s : PageType) :
    ((c.setRecord p r).busyPages s).card +
        (decide ((c.record p).busy = true ∧ (c.record p).pageType = s)).toNat =
      (c.busyPages s).card + (decide (r.busy = true ∧ r.pageType = s)).toNat := by
  have record (q : Nat) (hq : q ≤ c.parameters.highestPage) :
      (c.setRecord p r).record q = if q = p then r else c.record q := mapped.record_setRecord hp hq
  have change := card_filter_change (s := Finset.range (c.parameters.highestPage + 1))
    (f := fun q => decide (((c.setRecord p r).record q).busy = true ∧
      ((c.setRecord p r).record q).pageType = s))
    (g := fun q => decide ((c.record q).busy = true ∧ (c.record q).pageType = s))
    (Finset.mem_range.mpr (Nat.lt_succ_of_le hp)) fun q hq ne => by
      rw [record q (Nat.le_of_lt_succ (Finset.mem_range.mp hq)), if_neg ne]
  simp only [decide_eq_true_eq] at change
  rw [record p hp, if_pos rfl] at change
  exact change

lemma Counted.mark (h : c.Counted) (mapped : c.Mapped) (hp : p ≤ c.parameters.highestPage)
    (idle : ¬ (c.record p).busy = true) (busy : r.busy = true) (type : r.pageType = t) :
    (c.mark p r t).Counted := by
  intro s
  have counted := h s
  have change := card_busyPages_setRecord (r := r) mapped hp s
  have before : decide ((c.record p).busy = true ∧ (c.record p).pageType = s) = false :=
    decide_eq_false fun is => idle is.1
  change (c.usage.set t (c.usage.count t + 1)).count s = ((c.setRecord p r).busyPages s).card
  rw [before, Bool.toNat_false] at change
  rw [Usage.count_set]
  split
  · next same =>
    subst same
    rw [decide_eq_true ⟨busy, type⟩, Bool.toNat_true] at change
    omega
  · next other =>
    rw [decide_eq_false fun is => other (is.2.symm.trans type), Bool.toNat_false] at change
    omega

lemma Counted.unmark (h : c.Counted) (mapped : c.Mapped) (hp : p ≤ c.parameters.highestPage)
    (busy : (c.record p).busy = true) (type : (c.record p).pageType = t) :
    (c.unmark p t).Counted := by
  intro s
  have counted := h s
  have change := card_busyPages_setRecord (r := .zero) mapped hp s
  have after : decide (PfnRecord.zero.busy = true ∧ PfnRecord.zero.pageType = s) = false :=
    decide_eq_false fun is => absurd (PfnRecord.busy_zero.symm.trans is.1) Bool.false_ne_true
  change (c.usage.set t (c.usage.count t - 1)).count s = ((c.setRecord p .zero).busyPages s).card
  rw [after, Bool.toNat_false] at change
  rw [Usage.count_set]
  split
  · next same =>
    subst same
    rw [decide_eq_true ⟨busy, type⟩, Bool.toNat_true] at change
    omega
  · next other =>
    rw [decide_eq_false fun is => other (is.2.symm.trans type), Bool.toNat_false] at change
    omega

end Machine

namespace Manager

open Machine

variable {c : Machine} {p page count : Nat} {r : PfnRecord} {t : PageType}

/-- The record that a page gets when it becomes busy. -/
def recordFor (t : PageType) (entry : VirtualAddress) : PfnRecord :=
  if t.isPageTable then (PfnRecord.busyAs t).described 0
  else (PfnRecord.busyAs t).described (entry.mappedByEntry.entryIndex * 2)

lemma busyRecord_eq (t : PageType) (entry : VirtualAddress) :
    busyRecord t entry = .ok (recordFor t entry) := by
  unfold busyRecord recordFor
  split
  · exact PfnRecord.withEntriesUsed_eq (by decide)
  · have lt : entry.mappedByEntry.entryIndex < 1024 := Nat.mod_lt _ (by decide)
    have even : (PfnRecord.busyAs t).info % 2 = 0 := by cases t <;> decide +kernel
    rw [PfnRecord.withEntryIndex_eq lt, even, Nat.zero_add]

lemma busy_recordFor (t : PageType) (entry : VirtualAddress) : (recordFor t entry).busy = true := by
  unfold recordFor
  split <;> rw [PfnRecord.busy_described, PfnRecord.busy_busyAs]

lemma pageType_recordFor (t : PageType) (entry : VirtualAddress) :
    (recordFor t entry).pageType = t := by
  unfold recordFor
  split <;> rw [PfnRecord.pageType_described, PfnRecord.pageType_busyAs]

lemma entriesUsed_recordFor (table : t.isPageTable = true) (entry : VirtualAddress) :
    (recordFor t entry).entriesUsed = 0 := by
  rw [recordFor, if_pos table]
  exact PfnRecord.entriesUsed_described (by decide)

/-- A page that is written as busy and counted. -/
lemma mark_yields (h : c.Wired) (counted : c.Counted) (hp : p ≤ c.parameters.highestPage) :
    Yields c (do writeRecord p r; countBusy t) () (c.mark p r t) := by
  have few := c.card_busyPages_le t
  have := h.fit.window
  refine (writeRecord_yields h hp).bind (Leads.change fun b => ?_)
  have sum : checkedAdd (c.usage.count t) 1 = .ok (c.usage.count t + 1) :=
    if_pos (by
      rw [counted t]
      omega)
  change (do let n ← checkedAdd (c.usage.count t) 1; _) = _
  rw [sum]
  rfl

/-- Marking a run of idle pages as busy. -/
theorem markBusyFrom_yields (h : c.Wired) (counted : c.Counted) (page count : Nat)
    (entry : VirtualAddress)
    (fits : page + count ≤ c.parameters.highestPage + 1)
    (idle : ∀ q, page ≤ q → q < page + count → ¬ (c.record q).busy = true) :
    ∃ c', Yields c (markBusyFrom t count page entry) () c' ∧ c.SameTables c' ∧ c'.Counted ∧
      ∀ q ≤ c.parameters.highestPage, c'.record q =
        if page ≤ q ∧ q < page + count then recordFor t (entry + (q - page) * 4)
        else c.record q := by
  induction count generalizing c page entry with
  | zero =>
    refine ⟨c, .pure, .refl c, counted, fun q _ => ?_⟩
    rw [if_neg (by omega)]
  | succ count ih =>
    have hp : page ≤ c.parameters.highestPage := by omega
    have record (q : Nat) (hq : q ≤ c.parameters.highestPage) :
        (c.mark page (recordFor t entry) t).record q =
          if q = page then recordFor t entry else c.record q :=
      h.toMapped.record_setRecord hp hq
    have same : c.SameTables (c.mark page (recordFor t entry) t) := .setRecord h.toMapped hp _
    obtain ⟨c', ran, same', counted', records⟩ :=
      ih (same.wired h) (counted.mark h.toMapped hp (idle page le_rfl (by omega))
        (busy_recordFor t entry) (pageType_recordFor t entry)) (page + 1)
        entry.nextEntry
        (by
          rw [same.parameters]
          omega)
        (fun q low high => by
          rw [record q (by omega), if_neg (by omega)]
          exact idle q (by omega) (by omega))
    refine ⟨c', ?_, same.trans same', counted', fun q hq => ?_⟩
    · have step := mark_yields (r := recordFor t entry) (t := t) h counted hp
      rw [markBusyFrom]
      refine (Leads.lift (busyRecord_eq t entry)).bind ?_
      have := step.bind (f := fun _ => markBusyFrom t count (page + 1) entry.nextEntry) ran
      rwa [bind_assoc] at this
    · rw [records q hq, record q hq]
      by_cases first : q = page
      · subst first
        rw [if_neg (by omega), if_pos rfl, if_pos (by omega)]
        have : entry + (q - q) * 4 = entry := by
          apply Address.ext
          have := entry.toNat_lt
          rw [Address.toNat_add]
          omega
        rw [this]
      · have next : entry.nextEntry + (q - (page + 1)) * 4 = entry + (q - page) * 4 ∨ q < page := by
          by_cases low : q < page
          · exact Or.inr low
          · left
            apply Address.ext
            rw [VirtualAddress.nextEntry, Address.toNat_add, Address.toNat_add, Address.toNat_add,
              MemoryMap.entryBytes]
            omega
        by_cases inside : page + 1 ≤ q ∧ q < page + 1 + count
        · rw [if_pos inside, if_pos (by omega)]
          rcases next with eq | low
          · rw [eq]
          · omega
        · rw [if_neg inside, if_neg first, if_neg (by omega)]

/-- Marking a run of busy pages as idle. -/
theorem markIdleFrom_yields (h : c.Wired) (counted : c.Counted) (page count : Nat)
    (fits : page + count ≤ c.parameters.highestPage + 1)
    (busy : ∀ q, page ≤ q → q < page + count → (c.record q).busy = true) :
    ∃ c', Yields c (markIdleFrom count page) () c' ∧ c.SameTables c' ∧ c'.Counted ∧
      ∀ q ≤ c.parameters.highestPage, c'.record q =
        if page ≤ q ∧ q < page + count then .zero else c.record q := by
  induction count generalizing c page with
  | zero =>
    refine ⟨c, .pure, .refl c, counted, fun q _ => ?_⟩
    rw [if_neg (by omega)]
  | succ count ih =>
    have hp : page ≤ c.parameters.highestPage := by omega
    have busy_page := busy page le_rfl (by omega)
    generalize type : (c.record page).pageType = t
    have record (q : Nat) (hq : q ≤ c.parameters.highestPage) :
        (c.unmark page t).record q = if q = page then .zero else c.record q :=
      h.toMapped.record_setRecord hp hq
    have same : c.SameTables (c.unmark page t) := .setRecord h.toMapped hp _
    obtain ⟨c', ran, same', counted', records⟩ :=
      ih (same.wired h) (counted.unmark h.toMapped hp busy_page type) (page + 1)
        (by
          rw [same.parameters]
          omega)
        (fun q low high => by
          rw [record q (by omega), if_neg (by omega)]
          exact busy q (by omega) (by omega))
    refine ⟨c', ?_, same.trans same', counted', fun q hq => ?_⟩
    · have used : 0 < c.usage.count t := by
        rw [counted t]
        exact Finset.card_pos.mpr ⟨page, mem_busyPages.mpr ⟨hp, busy_page, type⟩⟩
      have idle : Yields c (countIdle t page) ()
          { c with usage := c.usage.set t (c.usage.count t - 1) } := by
        refine Leads.change fun b => ?_
        change (do require (decide (0 < c.usage.count t)) _; _) = _
        rw [decide_eq_true used]
        rfl
      rw [markIdleFrom]
      refine (readRecord_yields h hp).bind ((Leads.require busy_page).bind ?_)
      rw [type]
      refine idle.bind (Leads.bind (a := ()) ?_ ran)
      exact writeRecord_yields (c := { c with usage := _ })
        (h.congr rfl rfl (fun _ _ => rfl) fun _ _ _ _ _ => rfl) hp
    · rw [records q hq, record q hq]
      by_cases first : q = page
      · subst first
        rw [if_neg (by omega), if_pos rfl, if_pos (by omega)]
      · by_cases inside : page + 1 ≤ q ∧ q < page + 1 + count
        · rw [if_pos inside, if_pos (by omega)]
        · rw [if_neg inside, if_neg first, if_neg (by omega)]

/-- A single page that becomes busy. -/
lemma markBusyPage_yields (h : c.Wired) (counted : c.Counted) (entry : VirtualAddress)
    (hp : p ≤ c.parameters.highestPage) (idle : (c.record p).busy = false) :
    ∃ c', Yields c (markBusy p p entry t) () c' ∧ c.SameTables c' ∧ c'.Counted ∧
      ∀ q ≤ c.parameters.highestPage, c'.record q =
        if q = p then recordFor t entry else c.record q := by
  obtain ⟨c', ran, same, counted', records⟩ := markBusyFrom_yields (t := t) h counted p 1 entry
    (Nat.succ_le_succ hp) fun q low high busy => by
      cases (by omega : p = q)
      rw [idle] at busy
      cases busy
  refine ⟨c', ?_, same, counted', fun q hq => ?_⟩
  · rw [markBusy, Nat.add_sub_cancel_left]
    exact ran
  · rw [records q hq]
    by_cases eq : q = p
    · subst eq
      have start : entry + (q - q) * 4 = entry := by
        apply Address.ext
        have := entry.toNat_lt
        rw [Address.toNat_add]
        omega
      rw [if_pos (by omega), if_pos rfl, start]
    · rw [if_neg (by omega), if_neg eq]

/-- A single page that becomes idle. -/
lemma markIdlePage_yields (h : c.Wired) (counted : c.Counted) (hp : p ≤ c.parameters.highestPage)
    (busy : (c.record p).busy = true) :
    ∃ c', Yields c (markIdle p p) () c' ∧ c.SameTables c' ∧ c'.Counted ∧
      ∀ q ≤ c.parameters.highestPage, c'.record q = if q = p then .zero else c.record q := by
  obtain ⟨c', ran, same, counted', records⟩ := markIdleFrom_yields h counted p 1
    (Nat.succ_le_succ hp) fun q low high => by
      cases (by omega : p = q)
      exact busy
  refine ⟨c', ?_, same, counted', fun q hq => ?_⟩
  · rw [markIdle, Nat.add_sub_cancel_left]
    exact ran
  · rw [records q hq]
    by_cases eq : q = p
    · rw [if_pos (by omega), if_pos eq]
    · rw [if_neg (by omega), if_neg eq]

end Manager

end ConsoleMemory
