import ConsoleMemory.Proofs.Manager.Entries

/-!
# Filling entries

Filling counts every entry that was zero as in use, whatever word it writes. A
zero word leaves the entry as it was, so that the counts are right afterwards
just where none is written (`fillEntries_counts`).
-/

namespace ConsoleMemory

open VirtualAddress

namespace Machine

variable {c : Machine}

/-- The machine after an attempt to make the entry of virtual page `n` map a page. One entry more
counts as in use, even if the word written is zero. -/
def filled (c : Machine) (template : Entry) (t n page : Nat) : Machine :=
  if (c.pte t (n % 1024)).isZero then
    (c.setWord t (n % 1024) (template.framed page).bits).setRecord t
      ((c.record t).described ((c.record t).entriesUsed + 1))
  else c

lemma Wired.recounts_filled {template : Entry} {t n page : Nat} (h : c.Wired) (table : c.Sweeps n t)
    (room : (c.pte t (n % 1024)).isZero = true → (c.record t).entriesUsed < 1024) :
    c.Recounts (c.filled template t n page) := by
  unfold filled
  split
  · next zero =>
    have few := room zero
    exact h.recounts_describe table.table (Nat.mod_lt n (by decide)) table.other' (by omega)
  · exact .refl c

/-- The entries in use of the page table in page `t`. -/
def usedEntries (c : Machine) (t : Nat) : Finset Nat :=
  (Finset.range 1024).filter fun j => !(c.pte t j).isZero

lemma card_usedEntries (c : Machine) (t : Nat) : (c.usedEntries t).card = c.inUse t := rfl

lemma mem_usedEntries {t j : Nat} :
    j ∈ c.usedEntries t ↔ j < 1024 ∧ ¬ (c.pte t j).isZero = true := by
  rw [usedEntries, Finset.mem_filter, Finset.mem_range, Bool.not_eq_true', Bool.not_eq_true]

/-- The record of each page table counts its entries in use. -/
def CountsEntries (c : Machine) : Prop :=
  ∀ i t, c.Table i t → (c.record t).entriesUsed = c.inUse t

/-- A zero entry in `[first, last]` is given the zero word by filling the entries of the range, the
first for `page`. -/
def LeavesBlank (c : Machine) (first last : VirtualAddress) (template : Entry) (page : Nat) :
    Prop :=
  ∃ k n t, first.toNat + 4 * k ≤ last.toNat ∧ first.toNat + 4 * k = 0xC0000000 + 4 * n ∧
    c.Table (n / 1024) t ∧ (c.pte t (n % 1024)).isZero = true ∧
    (template.framed (page + k)).isZero = true

end Machine

namespace Manager

open Machine

variable {c c' : Machine} {m n t page count : Nat} {template : Entry} {first last : VirtualAddress}

theorem fillEntry_yields (h : c.Wired) (table : c.Sweeps n t) (hp : page < 0x100000)
    (room : (c.pte t (n % 1024)).isZero = true → (c.record t).entriesUsed < 1024) :
    Yields c (fillEntry template t (entryOf n) page) () (c.filled template t n page) := by
  refine (readTableEntry h.toMapped table.table).bind ?_
  unfold filled
  cases zero : (c.pte t (n % 1024)).isZero with
  | false => exact .pure
  | true =>
    have less := room zero
    simp only [if_true]
    refine (Leads.lift (Entry.withFrame_eq hp)).bind ?_
    refine replaceEntry_yields h.toMapped table.table ((readTableRecord h table).bind ?_)
    exact recount_yields h table (by omega)
      (decide_eq_true (by rw [MemoryMap.entriesPerPage]; omega))

/-- What filling makes of the entry of virtual page `k`, if that of `n` is meant for `page`. -/
def fillWith (template : Entry) (n page k : Nat) (e : Entry) : Entry :=
  if e.isZero then template.framed (k + page - n) else e

lemma fillWith_add (template : Entry) (n page count : Nat) :
    fillWith template (n + count) (page + count) = fillWith template n page := by
  funext k e
  unfold fillWith
  rw [show k + (page + count) - (n + count) = k + page - n by omega]

/-- Entries of the table in page `t`, that of directory entry `i`, that are zero and whose virtual
page is one of `count` from `n` on. -/
def vacancies (c : Machine) (i t n count : Nat) : Finset Nat :=
  (Finset.range 1024).filter fun j =>
    (n ≤ i * 1024 + j ∧ i * 1024 + j < n + count) ∧ (c.pte t j).isZero = true

/-- Those of them that get the zero word and stay zero. -/
def blanks (c : Machine) (template : Entry) (i t n page count : Nat) : Finset Nat :=
  (vacancies c i t n count).filter fun j =>
    (template.framed (i * 1024 + j + page - n)).isZero = true

lemma mem_vacancies {i j : Nat} : j ∈ vacancies c i t n count ↔ j < 1024 ∧
    (n ≤ i * 1024 + j ∧ i * 1024 + j < n + count) ∧ (c.pte t j).isZero = true := by
  rw [vacancies, Finset.mem_filter, Finset.mem_range]

lemma mem_blanks {i j : Nat} : j ∈ blanks c template i t n page count ↔
    j ∈ vacancies c i t n count ∧
      (template.framed (i * 1024 + j + page - n)).isZero = true := Finset.mem_filter

lemma vacancies_zero (c : Machine) (i t n : Nat) : vacancies c i t n 0 = ∅ := by
  refine Finset.eq_empty_of_forall_notMem fun j mem => ?_
  have inside := (mem_vacancies.mp mem).2.1
  omega

lemma vacancies_congr {i : Nat}
    (same : ∀ j < 1024, n ≤ i * 1024 + j → c'.pte t j = c.pte t j) :
    vacancies c' i t n count = vacancies c i t n count := by
  refine Finset.filter_congr fun j hj => and_congr_right fun inside => ?_
  rw [same j (Finset.mem_range.mp hj) inside.1]

lemma card_vacancies_add (c : Machine) (i t n count rest : Nat) :
    (vacancies c i t n (count + rest)).card =
      (vacancies c i t n count).card + (vacancies c i t (n + count) rest).card := by
  rw [← Finset.card_union_of_disjoint]
  · refine congrArg Finset.card (Finset.ext fun j => ?_)
    rw [Finset.mem_union, mem_vacancies, mem_vacancies, mem_vacancies]
    constructor
    · rintro ⟨hj, inside, zero⟩
      by_cases first : i * 1024 + j < n + count
      · exact Or.inl ⟨hj, ⟨inside.1, first⟩, zero⟩
      · exact Or.inr ⟨hj, by omega, zero⟩
    · rintro (⟨hj, inside, zero⟩ | ⟨hj, inside, zero⟩)
      · exact ⟨hj, by omega, zero⟩
      · exact ⟨hj, by omega, zero⟩
  · refine Finset.disjoint_left.mpr fun j first second => ?_
    have low := (mem_vacancies.mp first).2.1
    have high := (mem_vacancies.mp second).2.1
    omega

lemma card_vacancies_one (h : c.Mapped) {i s : Nat} (table : c.Sweeps n t) (named : c.Table i s) :
    (vacancies c i s n 1).card = if s = t ∧ (c.pte t (n % 1024)).isZero = true then 1 else 0 := by
  by_cases own : s = t
  · subst own
    cases h.distinct _ _ _ named table.table
    by_cases zero : (c.pte s (n % 1024)).isZero = true
    · have only : vacancies c (n / 1024) s n 1 = {n % 1024} := by
        ext j
        rw [mem_vacancies, Finset.mem_singleton]
        constructor
        · rintro ⟨hj, inside, _⟩
          omega
        · rintro rfl
          exact ⟨Nat.mod_lt n (by decide), by omega, zero⟩
      rw [only, if_pos ⟨rfl, zero⟩, Finset.card_singleton]
    · rw [if_neg fun both => zero both.2, Finset.card_eq_zero]
      refine Finset.eq_empty_of_forall_notMem fun j mem => ?_
      obtain ⟨hj, inside, vacant⟩ := mem_vacancies.mp mem
      have place : j = n % 1024 := by omega
      exact zero (place ▸ vacant)
  · rw [if_neg fun both => own both.1, Finset.card_eq_zero]
    refine Finset.eq_empty_of_forall_notMem fun j mem => ?_
    obtain ⟨hj, inside, _⟩ := mem_vacancies.mp mem
    have index : i = n / 1024 := by omega
    subst index
    exact own (named.frame.symm.trans table.table.frame)

lemma usedEntries_disjoint (c : Machine) (i t n count : Nat) :
    Disjoint (c.usedEntries t) (vacancies c i t n count) :=
  Finset.disjoint_left.mpr fun _ used vacant =>
    (mem_usedEntries.mp used).2 (mem_vacancies.mp vacant).2.2

/-- What filling the entries of `count` virtual pages from `n` on leaves, that of `n` for `page`.
Each entry that was zero counts as in use. -/
structure Filled (c c' : Machine) (template : Entry) (n page count : Nat) : Prop
    extends Rewrites c c' n count (fillWith template n page) where
  used : ∀ i t, c.Table i t → (c'.record t).entriesUsed =
    (c.record t).entriesUsed + (vacancies c i t n count).card
  record : ∀ p ≤ c.parameters.highestPage, (∀ i, ¬ c.Table i p) → c'.record p = c.record p

namespace Filled

lemma refl (h : c.Wired) (template : Entry) (n page : Nat) : Filled c c template n page 0 := by
  refine ⟨.refl h n _, fun i t _ => ?_, fun _ _ _ => rfl⟩
  rw [vacancies_zero, Finset.card_empty, Nat.add_zero]

/-- One entry after which the filling goes on. -/
lemma step (h : c.Wired) (table : c.Sweeps n t)
    (room : (c.pte t (n % 1024)).isZero = true → (c.record t).entriesUsed < 1024) :
    Filled c (c.filled template t n page) template n page 1 := by
  have mapped := h.toMapped
  unfold Machine.filled
  by_cases zero : (c.pte t (n % 1024)).isZero = true
  · have few := room zero
    rw [if_pos zero]
    have becomes : fillWith template n page n (c.pte t (n % 1024)) = template.framed page := by
      rw [fillWith, if_pos zero, Nat.add_sub_cancel_left]
    have record {p : Nat} (hp : p ≤ c.parameters.highestPage) :=
      h.record_describe (e := template.framed page) table.table (Nat.mod_lt n (by decide))
        table.other' ((c.record t).entriesUsed + 1) hp
    refine ⟨.describe h table becomes _, fun i s named => ?_, fun p hp none => ?_⟩
    · rw [record (h.table_le named), card_vacancies_one mapped table named]
      by_cases own : s = t
      · rw [if_pos own, if_pos ⟨own, zero⟩, own]
        exact PfnRecord.entriesUsed_described (by omega)
      · rw [if_neg own, if_neg fun both => own both.1, Nat.add_zero]
    · rw [record hp, if_neg]
      rintro rfl
      exact none _ table.table
  · rw [if_neg zero]
    refine ⟨.stay h table (if_neg zero), fun i s named => ?_, fun _ _ _ => rfl⟩
    rw [card_vacancies_one mapped table named, if_neg fun both => zero both.2, Nat.add_zero]

/-- Entries that are still to come are not touched. -/
lemma vacancies_eq (h : Filled c c' template n page count) {i : Nat} (table : c.Table i t)
    (rest : Nat) : vacancies c' i t (n + count) rest = vacancies c i t (n + count) rest :=
  vacancies_congr fun j hj later => by rw [h.pte i t table j hj, if_neg (by omega)]

lemma trans {d : Machine} {rest : Nat} (h : Filled c d template n page count)
    (h' : Filled d c' template (n + count) (page + count) rest) :
    Filled c c' template n page (count + rest) := by
  have later : Rewrites d c' (n + count) rest (fillWith template n page) :=
    fillWith_add template n page count ▸ h'.toRewrites
  refine ⟨h.toRewrites.trans later, fun i t table => ?_, fun p hp none => ?_⟩
  · rw [h'.used i t (h.roles.table_iff.mpr table), h.used i t table, h.vacancies_eq table,
      card_vacancies_add, Nat.add_assoc]
  · rw [h'.record p (by rwa [h.roles.parameters])
        fun i table => none i (h.roles.table_iff.mp table), h.record p hp none]

end Filled

/-- Filling goes through as long as the records have room for the entries that are zero. -/
theorem fillFrom_yields (h : c.Tabled) (n count page known : Nat)
    (cover : ∀ k, n ≤ k → k < n + count → ∃ t, c.Sweeps k t) (frames : page + count ≤ 0x100000)
    (room : ∀ i t, c.Table i t →
      (c.record t).entriesUsed + (vacancies c i t n count).card ≤ 1024)
    (same : n ≠ m → n % 1024 ≠ 0 → ∀ t, c.Sweeps n t → known = t) :
    ∃ c', Yields c (fillFrom (entryOf m) template count (entryOf n) known page) () c' ∧
      Filled c c' template n page count ∧ c.Recounts c' := by
  induction count generalizing c n page known with
  | zero => exact ⟨c, .pure, .refl h.toWired template n page, .refl c⟩
  | succ count ih =>
    obtain ⟨t, table⟩ := cover n le_rfl (by omega)
    have split {i s : Nat} : (vacancies c i s n (count + 1)).card =
        (vacancies c i s n 1).card + (vacancies c i s (n + 1) count).card := by
      rw [Nat.add_comm count 1, card_vacancies_add]
    have vacant (zero : (c.pte t (n % 1024)).isZero = true) : (c.record t).entriesUsed < 1024 := by
      have enough := room _ t table.table
      rw [split, card_vacancies_one h.toMapped table table.table, if_pos ⟨rfl, zero⟩] at enough
      omega
    have filled : Yields c (fillEntry template t (entryOf n) page) ()
        (c.filled template t n page) := fillEntry_yields h.toWired table (by omega) vacant
    have step : Filled c (c.filled template t n page) template n page 1 :=
      .step h.toWired table vacant
    obtain ⟨c', ran, rest, recounts⟩ := ih (step.roles.tabled h step.wired) (n + 1) (page + 1) t
      (fun k low high => by
        obtain ⟨s, named⟩ := cover k (by omega) (by omega)
        exact ⟨s, step.sweeps named⟩)
      (by omega)
      (fun i s named => by
        have named := step.roles.table_iff.mp named
        have enough := room i s named
        rw [split] at enough
        rw [step.used i s named, step.vacancies_eq named]
        omega)
      (fun _ inner s named => known_succ (step.sweeps table) inner named)
    refine ⟨c', ?_, Nat.add_comm 1 count ▸ step.trans rest,
      (h.toWired.recounts_filled table vacant).trans step.roles recounts⟩
    refine (tableAt_yields h table fun ne inner => same ne inner t table).bind (filled.bind ?_)
    have sum : checkedAdd page 1 = .ok (page + 1) := if_pos (by omega)
    refine (Leads.lift sum).bind ?_
    rw [nextEntry_entryOf]
    exact ran

namespace Filled

/-- An entry is zero if it was and did not get a word of its own. -/
lemma isZero_iff (h : Filled c c' template n page count) {i j : Nat} (table : c.Table i t)
    (hj : j < 1024) : (c'.pte t j).isZero = true ↔ (c.pte t j).isZero = true ∧
      (j ∈ vacancies c i t n count → j ∈ blanks c template i t n page count) := by
  rw [h.pte i t table j hj, mem_blanks, mem_vacancies]
  by_cases inside : n ≤ i * 1024 + j ∧ i * 1024 + j < n + count
  · rw [if_pos inside, fillWith]
    by_cases zero : (c.pte t j).isZero = true
    · rw [if_pos zero]
      exact ⟨fun stays => ⟨zero, fun vacant => ⟨vacant, stays⟩⟩,
        fun both => (both.2 ⟨hj, inside, zero⟩).2⟩
    · rw [if_neg zero]
      exact ⟨fun zero' => absurd zero' zero, fun both => both.1⟩
  · rw [if_neg inside]
    exact ⟨fun zero => ⟨zero, fun vacant => absurd vacant.2.1 inside⟩, fun both => both.1⟩

/-- Entries that were zero and did not stay so are in use from then on. -/
lemma inUse_add (h : Filled c c' template n page count) {i : Nat} (table : c.Table i t) :
    c'.inUse t + (blanks c template i t n page count).card =
      c.inUse t + (vacancies c i t n count).card := by
  have sub : blanks c template i t n page count ⊆ vacancies c i t n count :=
    Finset.filter_subset _ _
  have split : c'.usedEntries t =
      c.usedEntries t ∪ vacancies c i t n count \ blanks c template i t n page count := by
    ext j
    rw [Finset.mem_union, Finset.mem_sdiff, mem_usedEntries, mem_usedEntries]
    constructor
    · rintro ⟨hj, changed⟩
      rw [h.isZero_iff table hj, not_and_or, Classical.not_imp] at changed
      exact changed.imp_left fun old => ⟨hj, old⟩
    · rintro (⟨hj, old⟩ | filled)
      · exact ⟨hj, fun zero => old ((h.isZero_iff table hj).mp zero).1⟩
      · have hj := (mem_vacancies.mp filled.1).1
        exact ⟨hj, fun zero => filled.2 (((h.isZero_iff table hj).mp zero).2 filled.1)⟩
  have apart : Disjoint (c.usedEntries t)
      (vacancies c i t n count \ blanks c template i t n page count) :=
    (usedEntries_disjoint c i t n count).mono_right Finset.sdiff_subset
  rw [← card_usedEntries, split, Finset.card_union_of_disjoint apart, Nat.add_assoc,
    Finset.card_sdiff_add_card_eq_card sub, card_usedEntries]

variable (h : Filled c c' template n page count) (kept : c.Kept)
include h kept

/-- From counts that are right, filling leaves counts that exceed the entries in use by those that
stay blank. -/
lemma used_eq {i : Nat} (table : c.Table i t) : (c'.record t).entriesUsed =
    c'.inUse t + (blanks c template i t n page count).card := by
  rw [h.used i t table, kept.used i t table, h.inUse_add table]

/-- Where nothing stays blank, the invariant holds. -/
theorem kept_of_solid (solid : ∀ i t, c.Table i t → blanks c template i t n page count = ∅) :
    c'.Kept := by
  refine h.roles.kept kept h.wired (fun p hp zero => ?_) fun i t table => ?_
  · rw [h.record p hp fun i table => kept.record_ne_zero table zero, zero]
  · rw [h.used_eq kept table, solid i t table, Finset.card_empty, Nat.add_zero]

end Filled

/-! ### Ranges -/

/-- Entries in use and entries that are zero fit into one table. -/
lemma inUse_add_vacancies_le (c : Machine) (i t n count : Nat) :
    c.inUse t + (vacancies c i t n count).card ≤ 1024 := by
  rw [← card_usedEntries, ← Finset.card_union_of_disjoint (usedEntries_disjoint c i t n count)]
  refine (Finset.card_le_card (Finset.union_subset ?_ ?_)).trans_eq (Finset.card_range 1024)
  · exact Finset.filter_subset _ _
  · exact Finset.filter_subset _ _

/-- Filling the entries of a range. -/
theorem fillEntries_yields (h : c.Kept) (covers : c.Covers first last) (template : Entry)
    (frames : ∀ k, first.toNat + 4 * k ≤ last.toNat → page + k < 0x100000) :
    ∃ c' n count, Yields c (fillEntries first last template page) () c' ∧
      Filled c c' template n page count ∧ c.Recounts c' ∧ Spans first last n count := by
  by_cases le : first.toNat ≤ last.toNat
  · obtain ⟨n, rfl, length, cover⟩ := sweepLength_eq covers le
    have last_frame := frames ((last.toNat - (entryOf n).toNat) / 4) (by omega)
    obtain ⟨t, table⟩ := cover n le_rfl (by omega)
    obtain ⟨c', ran, filled, recounts⟩ :=
      fillFrom_yields (m := n) h.tabled n _ page 0 cover (by omega)
      (fun i t table => by
        rw [h.used i t table]
        exact inUse_add_vacancies_le c i t n _)
      fun ne => absurd rfl ne
    refine ⟨c', n, _, ?_, filled, recounts, fun k => by omega, fun _ => toNat_entryOf table.lt⟩
    rw [fillEntries, length]
    exact ran
  · refine ⟨c, 0, 0, ?_, .refl h.toWired template 0 page, .refl c, fun k => by omega,
      fun none => by omega⟩
    rw [fillEntries, sweepLength, if_pos (by omega)]
    exact .pure

/-- What stays blank, said of the range. -/
lemma leavesBlank_iff (spans : Spans first last n count) :
    c.LeavesBlank first last template page ↔
      ∃ i t, c.Table i t ∧ (blanks c template i t n page count).Nonempty := by
  constructor
  · rintro ⟨k, v, t, inside, place, table, zero, blank⟩
    have hk := (spans.within k).mpr inside
    have start := spans.entry (by omega)
    refine ⟨v / 1024, t, table, v % 1024, mem_blanks.mpr ⟨mem_vacancies.mpr
      ⟨Nat.mod_lt v (by decide), by omega, zero⟩, ?_⟩⟩
    have frame : v / 1024 * 1024 + v % 1024 + page - n = page + k := by omega
    rw [frame]
    exact blank
  · rintro ⟨i, t, table, j, mem⟩
    obtain ⟨vacant, blank⟩ := mem_blanks.mp mem
    obtain ⟨hj, inside, zero⟩ := mem_vacancies.mp vacant
    have start := spans.entry (by omega)
    have within := (spans.within (i * 1024 + j - n)).mp (by omega)
    have index : (i * 1024 + j) / 1024 = i := by omega
    have rest : (i * 1024 + j) % 1024 = j := by omega
    have frame : i * 1024 + j + page - n = page + (i * 1024 + j - n) := by omega
    rw [frame] at blank
    exact ⟨i * 1024 + j - n, i * 1024 + j, t, within, by omega, index.symm ▸ table,
      rest.symm ▸ zero, blank⟩

/-- Filling a range returns, and it leaves the counts right just where no entry stays blank. -/
theorem fillEntries_counts (h : c.Kept) (covers : c.Covers first last) (template : Entry)
    (frames : ∀ k, first.toNat + 4 * k ≤ last.toNat → page + k < 0x100000) :
    ∃ c', Yields c (fillEntries first last template page) () c' ∧
      (c'.CountsEntries ↔ ¬ c.LeavesBlank first last template page) ∧
      (¬ c.LeavesBlank first last template page → c'.Kept) := by
  obtain ⟨c', n, count, ran, filled, _, spans⟩ := fillEntries_yields h covers template frames
  have solid_of (solid : ¬ c.LeavesBlank first last template page) :
      ∀ i t, c.Table i t → blanks c template i t n page count = ∅ := by
    intro i t table
    by_contra some
    exact solid ((leavesBlank_iff spans).mpr
      ⟨i, t, table, Finset.nonempty_iff_ne_empty.mpr some⟩)
  refine ⟨c', ran, ⟨fun counts blank => ?_, fun solid => ?_⟩,
    fun solid => filled.kept_of_solid h (solid_of solid)⟩
  · obtain ⟨i, t, table, some⟩ := (leavesBlank_iff spans).mp blank
    have used := filled.used_eq h table
    rw [counts i t (filled.roles.table_iff.mpr table)] at used
    have := Finset.card_pos.mpr some
    omega
  · exact (filled.kept_of_solid h (solid_of solid)).used

end Manager

end ConsoleMemory
