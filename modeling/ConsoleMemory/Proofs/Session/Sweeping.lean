import ConsoleMemory.Proofs.Session.Releasing

/-!
# Sweeping in a session

In every state of a run, filling a range gives each of its zero entries a word of its own,
clearing it leaves none in use, and the records count what has changed. Nothing else changes.
So a range may as well be swept piece by piece (`sweeps_are_exact`).
-/

namespace ConsoleMemory

open VirtualAddress

/-- The entry of virtual page `n` lies in `[first, last]`. -/
def EntryWithin (first last : VirtualAddress) (n : Nat) : Prop :=
  first.toNat ≤ (entryOf n).toNat ∧ (entryOf n).toNat ≤ last.toNat

instance (first last : VirtualAddress) (n : Nat) : Decidable (EntryWithin first last n) :=
  inferInstanceAs (Decidable (_ ∧ _))

/-- How many entries `[first, last]` has, the first of which is aligned. -/
def entriesIn (first last : VirtualAddress) : Nat := (last.toNat + 4 - first.toNat) / 4

/-- Ranges of so many entries each, one after the other, make up `[first, last]`. -/
structure Splits (counts : List Nat) (first last : VirtualAddress) : Prop where
  positive : ∀ count ∈ counts, 0 < count
  whole : counts.sum = entriesIn first last

namespace Machine

variable {c c' c₁ c₂ : Machine} {first last : VirtualAddress} {template : Entry}
  {i j n page t : Nat}

/-- Entries in `[first, last]` of the table in page `t`, that of directory entry `i`, that are zero,
or those that are not. -/
def entriesWithin (c : Machine) (first last : VirtualAddress) (i t : Nat) (zero : Bool) :
    Finset Nat :=
  (Finset.range 1024).filter fun j =>
    EntryWithin first last (i * 1024 + j) ∧ (c.pte t j).isZero = zero

/-- The machine `c'` is `c` with the zero entries in `[first, last]` filled: each is given the
template with a page that is as far from `page` as the entry is from the first. -/
structure FillsExactly (c c' : Machine) (first last : VirtualAddress) (template : Entry)
    (page : Nat) : Prop extends c.SameRoles c', c.Recounts c' where
  filled : ∀ i t, c.Table i t → ∀ j < 1024, EntryWithin first last (i * 1024 + j) →
    (c.pte t j).isZero = true →
    template.withFrame (page + ((entryOf (i * 1024 + j)).toNat - first.toNat) / 4) =
      .ok (c'.pte t j)
  stays : ∀ i t, c.Table i t → ∀ j < 1024,
    ¬ (EntryWithin first last (i * 1024 + j) ∧ (c.pte t j).isZero = true) → c'.pte t j = c.pte t j
  used : ∀ i t, c.Table i t → (c'.record t).entriesUsed =
    (c.record t).entriesUsed + (c.entriesWithin first last i t true).card

/-- The machine `c'` is `c` with the entries in `[first, last]` cleared. -/
structure ClearsExactly (c c' : Machine) (first last : VirtualAddress) : Prop
    extends c.SameRoles c', c.Recounts c' where
  cleared : ∀ i t, c.Table i t → ∀ j < 1024, EntryWithin first last (i * 1024 + j) →
    c'.pte t j = .zero
  stays : ∀ i t, c.Table i t → ∀ j < 1024, ¬ EntryWithin first last (i * 1024 + j) →
    c'.pte t j = c.pte t j
  used : ∀ i t, c.Table i t → (c'.record t).entriesUsed +
    (c.entriesWithin first last i t false).card = (c.record t).entriesUsed

/-! ### What settles a machine -/

/-- Machines that differ from `c` at most in the entries and counts of its tables are the same if
those are. -/
lemma SameRoles.sameState (roles₁ : c.SameRoles c₁) (roles₂ : c.SameRoles c₂)
    (recounts₁ : c.Recounts c₁) (recounts₂ : c.Recounts c₂) (fit : c.parameters.Fit)
    (pte : ∀ i t, c.Table i t → ∀ j < 1024, c₂.pte t j = c₁.pte t j)
    (used : ∀ i t, c.Table i t → (c₂.record t).entriesUsed = (c₁.record t).entriesUsed) :
    c₁.SameState c₂ := by
  have parameters : c₂.parameters = c₁.parameters :=
    roles₂.parameters.trans roles₁.parameters.symm
  have record (p : Nat) (hp : p ≤ c.parameters.highestPage) : c₂.record p = c₁.record p := by
    by_cases table : ∃ i, c.Table i p
    · obtain ⟨i, table⟩ := table
      rw [recounts₂.tables i p table, used i p table, ← recounts₁.tables i p table]
    · have none := not_exists.mp table
      rw [recounts₂.others p hp none, recounts₁.others p hp none]
  -- A word belongs to a table, to a record or to another page.
  have word (s : Nat) (hs : s < c.ram.pages) (j : Nat) (hj : j < 1024) :
      c₂.ram.word s j = c₁.ram.word s j := by
    by_cases table : ∃ i, c.Table i s
    · obtain ⟨i, table⟩ := table
      exact congrArg Entry.bits (pte i s table j hj)
    by_cases outside : s < c.parameters.databasePage ∨
        c.parameters.databasePage + c.parameters.databasePages ≤ s
    · have none := not_exists.mp table
      exact congrArg Entry.bits ((roles₂.entry s hs none outside j hj).trans
        (roles₁.entry s hs none outside j hj).symm)
    · rw [← roles₁.parameters] at fit record outside
      exact word_database fit parameters record (by omega) hj
  have size := c.ram.size_eq
  refine ⟨⟨?_, ?_, ?_, ?_⟩, ?_, fun a inside => ?_⟩
  · rw [roles₂.freeList, roles₁.freeList]
  · rw [roles₂.freeList, roles₁.freeList]
  · rw [roles₂.freeList, roles₁.freeList]
  · rw [roles₂.usage, roles₁.usage]
  · rw [roles₂.size, roles₁.size]
  · rw [roles₁.size] at inside
    exact Ram.byteAt_eq_of_word (word (a / 4096) (by omega) _ (by omega))

/-- There is one way to fill a range exactly. -/
theorem FillsExactly.sameState (fit : c.parameters.Fit)
    (h₁ : c.FillsExactly c₁ first last template page)
    (h₂ : c.FillsExactly c₂ first last template page) : c₁.SameState c₂ := by
  refine h₁.toSameRoles.sameState h₂.toSameRoles h₁.toRecounts h₂.toRecounts fit
    (fun i t table j hj => ?_) fun i t table => ?_
  · by_cases fills : EntryWithin first last (i * 1024 + j) ∧ (c.pte t j).isZero = true
    · have written := h₁.filled i t table j hj fills.1 fills.2
      rw [h₂.filled i t table j hj fills.1 fills.2] at written
      exact Except.ok.inj written
    · rw [h₂.stays i t table j hj fills, h₁.stays i t table j hj fills]
  · rw [h₂.used i t table, h₁.used i t table]

/-- There is one way to clear a range exactly. -/
theorem ClearsExactly.sameState (fit : c.parameters.Fit) (h₁ : c.ClearsExactly c₁ first last)
    (h₂ : c.ClearsExactly c₂ first last) : c₁.SameState c₂ := by
  refine h₁.toSameRoles.sameState h₂.toSameRoles h₁.toRecounts h₂.toRecounts fit
    (fun i t table j hj => ?_) fun i t table => ?_
  · by_cases within : EntryWithin first last (i * 1024 + j)
    · rw [h₂.cleared i t table j hj within, h₁.cleared i t table j hj within]
    · rw [h₂.stays i t table j hj within, h₁.stays i t table j hj within]
  · have used₁ := h₁.used i t table
    have used₂ := h₂.used i t table
    omega

end Machine

namespace Manager

open Machine

variable {c c' : Machine} {first last : VirtualAddress} {template : Entry} {count i n page t : Nat}
  {counts : List Nat}

/-! ### Ranges as runs of virtual pages -/

namespace Spans

variable (spans : Spans first last n count)
include spans

lemma count_eq : count = entriesIn first last := by
  have reached := spans.within (count - 1)
  have passed := spans.within count
  unfold entriesIn
  omega

lemma within_iff (hn : i < 0x100000) : EntryWithin first last i ↔ n ≤ i ∧ i < n + count := by
  have start := spans.entry
  have none := spans.within 0
  have place := spans.within (i - n)
  rw [EntryWithin, toNat_entryOf hn]
  omega

lemma first_eq (some : 0 < count) (hn : n < 0x100000) : first = entryOf n := by
  apply Address.ext
  rw [toNat_entryOf hn, spans.entry some]

/-- The virtual pages of a range that may be swept have tables. -/
lemma sweeps (covers : c.Covers first last) (k : Nat) (low : n ≤ k) (high : k < n + count) :
    ∃ t, c.Sweeps k t := by
  have start := spans.entry (by omega)
  have inside := (spans.within (k - n)).mp (by omega)
  obtain ⟨k', t, place, table⟩ :=
    covers.entries (0xC0000000 + 4 * k) (by omega) (by omega) (by omega)
  cases (by omega : k = k')
  exact ⟨t, table⟩

lemma fits (covers : c.Covers first last) (some : 0 < count) : n + count ≤ 0x100000 := by
  obtain ⟨t, table⟩ := spans.sweeps covers (n + (count - 1)) (by omega) (by omega)
  have := table.lt
  omega

end Spans

lemma vacancies_eq_entriesWithin (spans : Spans first last n count) (hi : i < 1024) :
    vacancies c i t n count = c.entriesWithin first last i t true := by
  refine Finset.filter_congr fun j hj => and_congr_left fun _ => ?_
  have hj := Finset.mem_range.mp hj
  exact (spans.within_iff (by omega)).symm

lemma Filled.fillsExactly (h : Filled c c' template n page count) (recounts : c.Recounts c')
    (spans : Spans first last n count) (fits : page + count ≤ 0x100000) :
    c.FillsExactly c' first last template page := by
  refine ⟨h.roles, recounts, fun i t table j hj within zero => ?_, fun i t table j hj not => ?_,
    fun i t table => ?_⟩
  · have lt := table.lt
    have inside := (spans.within_iff (by omega)).mp within
    have start := spans.entry (by omega)
    have frame : page + ((entryOf (i * 1024 + j)).toNat - first.toNat) / 4 =
        i * 1024 + j + page - n := by
      rw [toNat_entryOf (by omega)]
      omega
    rw [h.pte i t table j hj, if_pos inside, fillWith, if_pos zero, frame]
    exact Entry.withFrame_eq (by omega)
  · have lt := table.lt
    rw [h.pte i t table j hj]
    split
    · next inside =>
      rw [fillWith, if_neg fun zero => not ⟨(spans.within_iff (by omega)).mpr inside, zero⟩]
    · rfl
  · rw [h.used i t table, vacancies_eq_entriesWithin spans table.lt]

/-- Entries in use before are those that are cleared and those in use afterwards. -/
lemma Swept.inUse_add (h : Swept c c' n count fun _ _ => .zero) (spans : Spans first last n count)
    (table : c.Table i t) :
    c'.inUse t + (c.entriesWithin first last i t false).card = c.inUse t := by
  have lt := table.lt
  have after : c'.usedEntries t =
      (c.usedEntries t).filter fun j => ¬ EntryWithin first last (i * 1024 + j) := by
    ext j
    rw [Finset.mem_filter, mem_usedEntries, mem_usedEntries, and_assoc]
    refine and_congr_right fun hj => ?_
    rw [h.pte i t table j hj, spans.within_iff (by omega)]
    split
    · next inside => simp [inside]
    · next outside => simp [outside]
  have gone : c.entriesWithin first last i t false =
      (c.usedEntries t).filter fun j => EntryWithin first last (i * 1024 + j) := by
    ext j
    rw [entriesWithin, Finset.mem_filter, Finset.mem_filter, mem_usedEntries, Finset.mem_range,
      Bool.not_eq_true, and_assoc, and_comm (a := EntryWithin _ _ _)]
  rw [← card_usedEntries, ← card_usedEntries, after, gone, Nat.add_comm,
    Finset.card_filter_add_card_filter_not]

lemma Swept.clearsExactly (h : Swept c c' n count fun _ _ => .zero) (kept : c.Kept)
    (recounts : c.Recounts c') (spans : Spans first last n count) :
    c.ClearsExactly c' first last := by
  refine ⟨h.roles, recounts, fun i t table j hj within => ?_, fun i t table j hj not => ?_,
    fun i t table => ?_⟩
  · have lt := table.lt
    rw [h.pte i t table j hj, if_pos ((spans.within_iff (by omega)).mp within)]
  · have lt := table.lt
    rw [h.pte i t table j hj, if_neg fun inside => not ((spans.within_iff (by omega)).mpr inside)]
  · rw [h.kept.used i t (h.roles.table_iff.mpr table), kept.used i t table,
      h.inUse_add spans table]

/-! ### Piece by piece -/

/-- Sweeps ranges one after the other from `first` on, of so many entries each. The first is meant
for `page`, and the pages go on from one range to the next. -/
def sweepPieces (sweep : VirtualAddress → VirtualAddress → Nat → Step Unit) :
    List Nat → VirtualAddress → Nat → Step Unit
  | [], _, _ => return
  | count :: counts, first, page => do
    sweep first (first + (count - 1) * 4) page
    sweepPieces sweep counts (first + count * 4) (page + count)

def fillPieces (template : Entry) : List Nat → VirtualAddress → Nat → Step Unit :=
  sweepPieces fun first last page => fillEntries first last template page

def clearPieces (counts : List Nat) (first : VirtualAddress) : Step Unit :=
  sweepPieces (fun first last _ => clearEntries first last) counts first 0

lemma sweepLength_entryOf (some : 0 < count) (fits : n + count ≤ 0x100000) :
    sweepLength (entryOf n) (entryOf (n + (count - 1))) = count := by
  unfold sweepLength
  rw [toNat_entryOf (by omega), toNat_entryOf (by omega), MemoryMap.entryBytes,
    if_neg (by omega), if_pos (by omega)]
  omega

/-- What each piece carries on from the ones before it, holds after all of them. -/
lemma sweepPieces_yields {sweep : VirtualAddress → VirtualAddress → Nat → Step Unit}
    (R : Machine → Nat → Prop) {done : Nat} (positive : ∀ count ∈ counts, 0 < count)
    (base : R c done)
    (piece : ∀ d k count, R d k → 0 < count → k + count ≤ done + counts.sum →
      ∃ d', Yields d (sweep (entryOf (n + k)) (entryOf (n + k + (count - 1))) (page + k)) () d' ∧
        R d' (k + count)) :
    ∃ c', Yields c (sweepPieces sweep counts (entryOf (n + done)) (page + done)) () c' ∧
      R c' (done + counts.sum) := by
  induction counts generalizing c done with
  | nil => exact ⟨c, .pure, base⟩
  | cons count counts ih =>
    rw [List.sum_cons, ← Nat.add_assoc] at piece ⊢
    obtain ⟨d, ran, next⟩ := piece c done count base (positive count List.mem_cons_self)
      (Nat.le_add_right _ _)
    obtain ⟨c', rest, last⟩ := ih (fun k mem => positive k (List.mem_cons_of_mem count mem)) next
      piece
    refine ⟨c', ?_, last⟩
    rw [sweepPieces, entryOf_add, entryOf_add, Nat.add_assoc n done count,
      Nat.add_assoc page done count]
    exact ran.bind rest

/-- A range that may be swept may be swept piece by piece. -/
lemma Spans.pieces_yield {sweep : VirtualAddress → VirtualAddress → Nat → Step Unit}
    (spans : Spans first last n count) (covers : c.Covers first last)
    (splits : Splits counts first last) (R : Machine → Nat → Prop) (base : R c 0)
    (piece : ∀ d k m, R d k → 0 < m → k + m ≤ count →
      ∃ d', Yields d (sweep (entryOf (n + k)) (entryOf (n + k + (m - 1))) (page + k)) () d' ∧
        R d' (k + m)) :
    ∃ c', Yields c (sweepPieces sweep counts first page) () c' ∧ R c' count := by
  have whole : counts.sum = count := splits.whole.trans spans.count_eq.symm
  rcases Nat.eq_zero_or_pos count with none | some
  · cases counts with
    | nil => exact ⟨c, .pure, none ▸ base⟩
    | cons m rest =>
      have := splits.positive m List.mem_cons_self
      rw [List.sum_cons] at whole
      omega
  · have below := spans.fits covers some
    have swept : ∃ c', Yields c (sweepPieces sweep counts (entryOf (n + 0)) (page + 0)) () c' ∧
        R c' (0 + counts.sum) :=
      sweepPieces_yields R splits.positive base (by rwa [whole, Nat.zero_add])
    rwa [whole, Nat.zero_add, Nat.add_zero, Nat.add_zero, ← spans.first_eq some (by omega)]
      at swept

section
variable (h : c.Kept) (covers : c.Covers first last) (spans : Spans first last n count)
  (splits : Splits counts first last)
include h covers spans splits

lemma fillPieces_yields (template : Entry) (fits : page + count ≤ 0x100000) :
    ∃ c', Yields c (fillPieces template counts first page) () c' ∧
      Filled c c' template n page count ∧ c.Recounts c' := by
  refine spans.pieces_yield covers splits
    (fun d k => Filled c d template n page k ∧ c.Recounts d)
    ⟨.refl h.toWired template n page, .refl c⟩
    fun d k m ⟨filled, recounts⟩ some inside => ?_
  have below := spans.fits covers (by omega)
  have cover (v : Nat) (low : n + k ≤ v) (high : v < n + k + m) : ∃ t, d.Sweeps v t := by
    obtain ⟨t, table⟩ := spans.sweeps covers v (by omega) (by omega)
    exact ⟨t, filled.sweeps table⟩
  have room (i t : Nat) (table : d.Table i t) :
      (d.record t).entriesUsed + (vacancies d i t (n + k) m).card ≤ 1024 := by
    have table := filled.roles.table_iff.mp table
    rw [filled.used i t table, filled.vacancies_eq table, h.used i t table, Nat.add_assoc,
      ← card_vacancies_add]
    exact inUse_add_vacancies_le c i t n (k + m)
  obtain ⟨d', ran, filled', recounts'⟩ :
      ∃ d', Yields d (fillFrom (entryOf (n + k)) template m (entryOf (n + k)) 0 (page + k)) () d' ∧
        Filled d d' template (n + k) (page + k) m ∧ d.Recounts d' :=
    fillFrom_yields (filled.roles.tabled h.tabled filled.wired) (n + k) m (page + k) 0 cover
      (by omega) room fun ne => absurd rfl ne
  refine ⟨d', ?_, filled.trans filled', recounts.trans filled.roles recounts'⟩
  rw [fillEntries, sweepLength_entryOf some (by omega)]
  exact ran

lemma clearPieces_yields : ∃ c', Yields c (clearPieces counts first) () c' ∧
    Swept c c' n count (fun _ _ => .zero) ∧ c.Recounts c' := by
  refine spans.pieces_yield covers splits
    (fun d k => Swept c d n k (fun _ _ => .zero) ∧ c.Recounts d)
    ⟨(Rewrites.refl h.toWired n _).swept h, .refl c⟩
    fun d k m ⟨swept, recounts⟩ some inside => ?_
  have below := spans.fits covers (by omega)
  obtain ⟨d', ran, swept', recounts'⟩ := clearFrom_yields (m := n + k) swept.kept (n + k) m 0
    (fun v low high => by
      obtain ⟨t, table⟩ := spans.sweeps covers v (by omega) (by omega)
      exact ⟨t, swept.rewrites.sweeps table⟩)
    fun ne => absurd rfl ne
  refine ⟨d', ?_, swept.trans swept', recounts.trans swept.roles recounts'⟩
  rw [clearEntries, sweepLength_entryOf some (by omega)]
  exact ran

end

end Manager

namespace Session.Rests

variable {s : Session} {c : Machine} {first last : VirtualAddress} {page : Nat}

/-- Filling a range is exact, and piece by piece it comes to the same. -/
lemma fill (h : s.Rests c none) (covers : c.Covers first last) (template : Entry)
    (fits : page + entriesIn first last ≤ 0x100000) :
    ∃ s₁, Manager.fillEntries first last template page s = .ok () s₁ ∧
      c.FillsExactly s₁.machine first last template page ∧
      ∀ counts, Splits counts first last →
        ∃ s₂, Manager.fillPieces template counts first page s = .ok () s₂ ∧
          s₁.machine.SameState s₂.machine := by
  have kept : c.Kept := h.stands
  have few (k : Nat) (le : first.toNat + 4 * k ≤ last.toNat) : page + k < 0x100000 := by
    unfold entriesIn at fits
    omega
  obtain ⟨c₁, n, count, ran, filled, recounts, spans⟩ :=
    Manager.fillEntries_yields kept covers template few
  rw [← spans.count_eq] at fits
  have exact₁ := filled.fillsExactly recounts spans fits
  obtain ⟨s₁, ran, shows⟩ := h.toShows.step_ok ran
  refine ⟨s₁, ran, by rwa [shows.machine_eq], fun counts splits => ?_⟩
  obtain ⟨c₂, ran₂, filled₂, recounts₂⟩ :=
    Manager.fillPieces_yields kept covers spans splits template fits
  obtain ⟨s₂, ran₂, shows₂⟩ := h.toShows.step_ok ran₂
  refine ⟨s₂, ran₂, ?_⟩
  rw [shows.machine_eq, shows₂.machine_eq]
  exact exact₁.sameState kept.fit (filled₂.fillsExactly recounts₂ spans fits)

/-- Clearing a range is exact, and piece by piece it comes to the same. -/
lemma clear (h : s.Rests c none) (covers : c.Covers first last) :
    ∃ s₁, Manager.clearEntries first last s = .ok () s₁ ∧
      c.ClearsExactly s₁.machine first last ∧
      ∀ counts, Splits counts first last →
        ∃ s₂, Manager.clearPieces counts first s = .ok () s₂ ∧
          s₁.machine.SameState s₂.machine := by
  have kept : c.Kept := h.stands
  obtain ⟨c₁, n, count, ran, swept, recounts, spans⟩ := Manager.clearEntries_yields kept covers
  have exact₁ := swept.clearsExactly kept recounts spans
  obtain ⟨s₁, ran, shows⟩ := h.toShows.step_ok ran
  refine ⟨s₁, ran, by rwa [shows.machine_eq], fun counts splits => ?_⟩
  obtain ⟨c₂, ran₂, swept₂, recounts₂⟩ := Manager.clearPieces_yields kept covers spans splits
  obtain ⟨s₂, ran₂, shows₂⟩ := h.toShows.step_ok ran₂
  refine ⟨s₂, ran₂, ?_⟩
  rw [shows.machine_eq, shows₂.machine_eq]
  exact exact₁.sameState kept.fit (swept₂.clearsExactly kept recounts₂ spans)

end Session.Rests

/-- In every state of a run, filling a range of entries that may be swept returns, and so does
clearing it. What becomes of each entry and of each count is settled by what it was and by its
place, and nothing else changes. Ranges that make up the range leave the same memory, one after the
other. -/
theorem sweeps_are_exact (l : Layout) {memory : GuestMemory}
    (size : l.parameters.ramSize ≤ memory.ram.size) (fresh : memory.tlb.Fresh)
    (trail : Array Note) :
    ∃ m s, Manager.create memory l l.parameters = .ok m ∧ Manager.boot ⟨m, trail⟩ = .ok () s ∧
      ∀ events s', Run s events none s' → ∀ first last, s'.machine.Covers first last →
        (∀ template page, page + entriesIn first last ≤ 0x100000 →
          ∃ s₁, Manager.fillEntries first last template page s' = .ok () s₁ ∧
            s'.machine.FillsExactly s₁.machine first last template page ∧
            ∀ counts, Splits counts first last →
              ∃ s₂, Manager.fillPieces template counts first page s' = .ok () s₂ ∧
                s₁.machine.SameState s₂.machine) ∧
        ∃ s₁, Manager.clearEntries first last s' = .ok () s₁ ∧
          s'.machine.ClearsExactly s₁.machine first last ∧
          ∀ counts, Splits counts first last →
            ∃ s₂, Manager.clearPieces counts first s' = .ok () s₂ ∧
              s₁.machine.SameState s₂.machine := by
  obtain ⟨c, comes⟩ := Session.exists_boot l size trail
  obtain ⟨m, s, created, booted, rests⟩ := comes memory.tlb fresh
  refine ⟨m, s, created, booted, fun events s' run first last covers => ?_⟩
  obtain ⟨c', rests', _⟩ := rests.run run
  rw [rests'.machine_eq] at covers ⊢
  exact ⟨fun template page fits => rests'.fill covers template fits, rests'.clear covers⟩

/-- When a console has come up, the table that maps the database has entries before those that show
it. Eight of them are filled at once, or three and then five. -/
theorem sweeps_are_exact_retail :
    ∃ m s s₁ s₂, Manager.create
        ⟨⟨0x4000000, .uniform 0x5A, by decide, by decide, by decide⟩, .caching []⟩
        .retail Layout.retail.parameters = .ok m ∧ Manager.boot ⟨m, #[]⟩ = .ok () s ∧
      s.machine.Covers (.ofNat 0xC020F000) (.ofNat 0xC020F01C) ∧
      Manager.fillEntries (.ofNat 0xC020F000) (.ofNat 0xC020F01C) ⟨0x63⟩ 0x100 s = .ok () s₁ ∧
      s.machine.FillsExactly s₁.machine (.ofNat 0xC020F000) (.ofNat 0xC020F01C) ⟨0x63⟩ 0x100 ∧
      Manager.fillPieces ⟨0x63⟩ [3, 5] (.ofNat 0xC020F000) 0x100 s = .ok () s₂ ∧
      s₁.machine.SameState s₂.machine := by
  have size : Layout.retail.parameters.ramSize ≤ (⟨⟨0x4000000, .uniform 0x5A, by decide, by decide,
      by decide⟩, .caching []⟩ : GuestMemory).ram.size := by decide
  obtain ⟨m, s, created, booted, exactly⟩ :=
    sweeps_are_exact .retail size Tlb.fresh_caching #[]
  obtain ⟨c, parameters, ⟨H, _, furnished⟩, comes⟩ :=
    Session.comes_up .retail Layout.retail.boots size #[]
  obtain ⟨m', s', created', booted', rests⟩ := comes _ Tlb.fresh_caching
  cases created.symm.trans created'
  cases booted.symm.trans booted'
  have first : (Address.ofNat 0xC020F000 : VirtualAddress).toNat = 0xC020F000 := by decide
  have last : (Address.ofNat 0xC020F01C : VirtualAddress).toNat = 0xC020F01C := by decide
  obtain ⟨t, table⟩ := (furnished.table_iff 0x20F).mpr (by
    rw [parameters]
    decide)
  have covers : s.machine.Covers (.ofNat 0xC020F000) (.ofNat 0xC020F01C) := by
    rw [rests.machine_eq]
    refine ⟨by decide, fun a low high aligned => ⟨(a - 0xC0000000) / 4, t, by omega, ?_, ?_⟩⟩
    · have index : (a - 0xC0000000) / 4 / 1024 = 0x20F := by omega
      exact index ▸ table
    · have before : (a - 0xC0000000) / 4 < 0x83C08 := by omega
      rw [Machine.ShowsDatabase, parameters]
      exact fun shown => absurd (Nat.lt_of_le_of_lt shown.1 before) (by decide)
  obtain ⟨s₁, ran, filled, pieces⟩ :=
    (exactly [] s .refl _ _ covers).1 ⟨0x63⟩ 0x100 (by decide)
  obtain ⟨s₂, ran₂, same⟩ := pieces [3, 5] ⟨by decide, by decide⟩
  exact ⟨m, s, s₁, s₂, created, booted, covers, ran, filled, ran₂, same⟩

end ConsoleMemory
