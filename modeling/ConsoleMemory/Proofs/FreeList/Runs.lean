import ConsoleMemory.Pfn
import Mathlib.Algebra.GroupWithZero.Nat
import Mathlib.Data.Finset.Card
import Mathlib.Order.Interval.Finset.Nat
import Mathlib.Tactic.Lemma

/-!
# Maximal runs of a set of pages

A set of pages is written as the ascending list of its maximal runs, with a
gap after each run. The list is determined by the set (`Runs.unique`). Taking
pages out of one run leaves what lies below and above them; returning pages
between two runs joins them with each run they touch.
-/

namespace ConsoleMemory.Block

/-- First page after the block. -/
def past (b : Block) : Nat := b.start + b.size

/-- What is left of the block without the `count` pages from `page` on. -/
def without (b : Block) (page count : Nat) : List Block :=
  (if b.start < page then [⟨b.start, page - b.start⟩] else []) ++
    if page + count < b.past then [⟨page + count, b.past - (page + count)⟩] else []

/-- The block is a run of pages of `S` that no page of `S` continues on either side. -/
structure IsMaximal (S : Finset Nat) (b : Block) : Prop where
  positive : 0 < b.size
  inside : ∀ p ∈ b, p ∈ S
  closed_above : b.past ∉ S
  closed_below : ∀ p, p + 1 = b.start → p ∉ S

/-- The blocks hold the pages of `S`, ascend and leave a page between each other. -/
structure Runs (blocks : List Block) (S : Finset Nat) : Prop where
  positive : ∀ b ∈ blocks, 0 < b.size
  apart : blocks.Pairwise fun a b => a.past < b.start
  mem : ∀ p, p ∈ S ↔ ∃ b ∈ blocks, p ∈ b

namespace Runs

variable {blocks before after : List Block} {S : Finset Nat}

lemma nil : Runs [] ∅ := ⟨nofun, .nil, by simp⟩

lemma singleton {n : Nat} (h : 0 < n) : Runs [⟨0, n⟩] (Finset.range n) := by
  refine ⟨by simpa using h, List.pairwise_singleton _ _, ?_⟩
  intro p
  simp [mem_def]

theorem ascending (h : Runs blocks S) : blocks.Pairwise fun a b => a.start < b.start :=
  h.apart.imp fun {a _} lt => Nat.lt_of_le_of_lt (Nat.le_add_right a.start a.size) lt

lemma nodup (h : Runs blocks S) : blocks.Nodup :=
  h.ascending.imp fun {a b} lt (e : a = b) => by subst e; omega

/-- Two blocks that share a page, or of which one continues the other, are the same. -/
lemma eq_of_touching (h : Runs blocks S) {a b : Block} (ha : a ∈ blocks) (hb : b ∈ blocks)
    (le : a.start ≤ b.past) (ge : b.start ≤ a.past) : a = b := by
  by_contra ne
  have : Std.Symm fun a b : Block => a.past < b.start ∨ b.past < a.start := ⟨fun _ _ => Or.symm⟩
  have apart := (h.apart.imp Or.inl : blocks.Pairwise fun a b =>
    a.past < b.start ∨ b.past < a.start).forall ha hb ne
  omega

theorem isMaximal (h : Runs blocks S) {b : Block} (hb : b ∈ blocks) : b.IsMaximal S := by
  have pos := h.positive b hb
  refine ⟨pos, fun p hp => (h.mem p).mpr ⟨b, hb, hp⟩, ?_, ?_⟩
  · intro hp
    obtain ⟨a, ha, hpa⟩ := (h.mem _).mp hp
    have same := h.eq_of_touching ha hb hpa.1 (by simp only [past, mem_def] at *; omega)
    simp only [same, mem_def, past] at hpa
    omega
  · intro p hp hpS
    obtain ⟨a, ha, hpa⟩ := (h.mem p).mp hpS
    have same := h.eq_of_touching ha hb (by simp only [past, mem_def] at *; omega)
      (by simp only [past, mem_def] at *; omega)
    simp only [same, mem_def] at hpa
    omega

/-- Consecutive pages of the set lie in one block. -/
theorem exists_block (h : Runs blocks S) {t n : Nat} (pos : 0 < n)
    (free : ∀ p, t ≤ p → p < t + n → p ∈ S) :
    ∃ b ∈ blocks, b.start ≤ t ∧ t + n ≤ b.past := by
  induction n with
  | zero => omega
  | succ n ih =>
    by_cases hn : n = 0
    · obtain ⟨b, hb, hp⟩ := (h.mem t).mp (free t (by omega) (by omega))
      refine ⟨b, hb, hp.1, ?_⟩
      simp only [past, mem_def] at *
      omega
    · obtain ⟨b, hb, start, stop⟩ := ih (by omega) fun p hp hp' => free p hp (by omega)
      have next := free (t + n) (by omega) (by omega)
      have ne : t + n ≠ b.past := fun e => (h.isMaximal hb).closed_above (e ▸ next)
      exact ⟨b, hb, start, by omega⟩

theorem mem_iff_isMaximal (h : Runs blocks S) {b : Block} : b ∈ blocks ↔ b.IsMaximal S := by
  refine ⟨h.isMaximal, fun maximal => ?_⟩
  obtain ⟨a, ha, start, stop⟩ := h.exists_block maximal.positive fun p hp hp' =>
    maximal.inside p ⟨hp, hp'⟩
  have other := h.isMaximal ha
  have same_start : a.start = b.start := by
    by_contra ne
    refine maximal.closed_below (b.start - 1) (by omega) ?_
    exact other.inside _ ⟨by omega, by simp only [past] at stop; omega⟩
  have same_past : a.past = b.past := by
    by_contra ne
    refine maximal.closed_above (other.inside _ ⟨?_, ?_⟩)
    · simp only [past]
      omega
    · change b.past < a.past
      change b.past ≤ a.past at stop
      omega
  have : a = b := by
    cases a
    cases b
    simp only [past, Block.mk.injEq] at *
    omega
  exact this ▸ ha

theorem unique {others : List Block} (h : Runs blocks S) (h' : Runs others S) :
    blocks = others := by
  have perm : blocks.Perm others := (List.perm_ext_iff_of_nodup h.nodup h'.nodup).mpr fun b =>
    h.mem_iff_isMaximal.trans h'.mem_iff_isMaximal.symm
  exact perm.eq_of_pairwise (fun a b _ _ hab hba => by omega) h.ascending h'.ascending

/-! ### Editing the list -/

/-- Some blocks in the middle give way to others that keep a page away from the rest. -/
lemma splice {old new : List Block} {T : Finset Nat} (h : Runs (before ++ old ++ after) S)
    (positive : ∀ b ∈ new, 0 < b.size) (apart : new.Pairwise fun a b => a.past < b.start)
    (below : ∀ a ∈ before, ∀ b ∈ new, a.past < b.start)
    (above : ∀ a ∈ new, ∀ b ∈ after, a.past < b.start)
    (across : ∀ a ∈ before, ∀ b ∈ after, a.past < b.start)
    (mem : ∀ p, p ∈ T ↔ (∃ b ∈ before, p ∈ b) ∨ (∃ b ∈ new, p ∈ b) ∨ ∃ b ∈ after, p ∈ b) :
    Runs (before ++ new ++ after) T := by
  rw [List.append_assoc] at h ⊢
  obtain ⟨first, rest, _⟩ := List.pairwise_append.mp h.apart
  obtain ⟨_, last, _⟩ := List.pairwise_append.mp rest
  refine ⟨?_, ?_, ?_⟩
  · intro b hb
    rcases List.mem_append.mp hb with hb | hb
    · exact h.positive b (List.mem_append_left _ hb)
    rcases List.mem_append.mp hb with hb | hb
    · exact positive b hb
    · exact h.positive b (List.mem_append_right _ (List.mem_append_right _ hb))
  · refine List.pairwise_append.mpr ⟨first, List.pairwise_append.mpr ⟨apart, last, above⟩, ?_⟩
    intro a ha b hb
    rcases List.mem_append.mp hb with hb | hb
    · exact below a ha b hb
    · exact across a ha b hb
  · intro p
    rw [mem p]
    simp only [List.mem_append, or_and_right, exists_or]

lemma mem_without {b c : Block} {page count : Nat} (h : c ∈ b.without page count) :
    (c = ⟨b.start, page - b.start⟩ ∧ b.start < page) ∨
      (c = ⟨page + count, b.past - (page + count)⟩ ∧ page + count < b.past) := by
  rcases List.mem_append.mp h with h | h
  · split at h
    · next lt => exact Or.inl ⟨List.mem_singleton.mp h, lt⟩
    · cases h
  · split at h
    · next lt => exact Or.inr ⟨List.mem_singleton.mp h, lt⟩
    · cases h

lemma exists_mem_without {b : Block} {page count p : Nat} (start : b.start ≤ page)
    (stop : page + count ≤ b.past) :
    (∃ c ∈ b.without page count, p ∈ c) ↔ p ∈ b ∧ ¬ (page ≤ p ∧ p < page + count) := by
  constructor
  · rintro ⟨c, hc, hp⟩
    rcases mem_without hc with ⟨rfl, lt⟩ | ⟨rfl, lt⟩
    · simp only [mem_def, past] at *
      omega
    · simp only [mem_def, past] at *
      omega
  · rintro ⟨hp, out⟩
    by_cases lt : p < page
    · refine ⟨⟨b.start, page - b.start⟩, ?_, ?_⟩
      · have : b.start < page := Nat.lt_of_le_of_lt hp.1 lt
        simp [without, this]
      · simp only [mem_def] at *
        omega
    · refine ⟨⟨page + count, b.past - (page + count)⟩, ?_, ?_⟩
      · have : page + count < b.past := by
          simp only [mem_def, past] at *
          omega
        simp [without, this]
      · simp only [mem_def, past] at *
        omega

theorem withdraw {b : Block} {page count : Nat} (h : Runs (before ++ b :: after) S)
    (pos : 0 < count) (start : b.start ≤ page) (stop : page + count ≤ b.past) :
    Runs (before ++ b.without page count ++ after) (S \ Finset.Ico page (page + count)) := by
  have cross := (List.pairwise_append.mp h.apart).2.2
  have next := (List.pairwise_cons.mp (List.pairwise_append.mp h.apart).2.1).1
  have h' : Runs (before ++ [b] ++ after) S := by simpa using h
  refine h'.splice ?_ ?_ ?_ ?_ ?_ ?_
  · intro c hc
    rcases mem_without hc with ⟨rfl, lt⟩ | ⟨rfl, lt⟩
    · exact Nat.sub_pos_of_lt lt
    · exact Nat.sub_pos_of_lt lt
  · unfold without
    split <;> split <;> simp [past]
    omega
  · intro a ha c hc
    have := cross a ha b List.mem_cons_self
    rcases mem_without hc with ⟨rfl, _⟩ | ⟨rfl, _⟩
    · exact this
    · change a.past < page + count
      omega
  · intro c hc a ha
    have := next a ha
    rcases mem_without hc with ⟨rfl, _⟩ | ⟨rfl, _⟩
    · simp only [past] at *
      omega
    · simp only [past] at *
      omega
  · intro a ha c hc
    exact cross a ha c (List.mem_cons_of_mem _ hc)
  · intro p
    rw [Finset.mem_sdiff, Finset.mem_Ico, h.mem p, exists_mem_without start stop]
    constructor
    · rintro ⟨⟨c, hc, hp⟩, out⟩
      rcases List.mem_append.mp hc with hc | hc
      · exact Or.inl ⟨c, hc, hp⟩
      rcases List.mem_cons.mp hc with rfl | hc
      · exact Or.inr (Or.inl ⟨hp, out⟩)
      · exact Or.inr (Or.inr ⟨c, hc, hp⟩)
    · rintro (⟨c, hc, hp⟩ | ⟨hp, out⟩ | ⟨c, hc, hp⟩)
      · have := cross c hc b List.mem_cons_self
        refine ⟨⟨c, List.mem_append_left _ hc, hp⟩, ?_⟩
        simp only [mem_def, past] at *
        omega
      · exact ⟨⟨b, by simp, hp⟩, out⟩
      · have := next c hc
        refine ⟨⟨c, by simp [hc], hp⟩, ?_⟩
        simp only [mem_def, past] at *
        omega

/-- What a block joined from a run and the neighbours it touches holds. -/
lemma mem_joined {left right : Option Block} {run joined : Block} {p : Nat}
    (pos : 0 < run.size) (touch_left : ∀ b ∈ left, b.past = run.start)
    (touch_right : ∀ b ∈ right, run.past = b.start)
    (start : joined.start = left.elim run.start Block.start)
    (stop : joined.past = right.elim run.past Block.past) :
    p ∈ joined ↔
      (∃ b ∈ left.toList, p ∈ b) ∨ (run.start ≤ p ∧ p < run.past) ∨ ∃ b ∈ right.toList, p ∈ b := by
  have one : p ∈ joined ↔ joined.start ≤ p ∧ p < joined.past := Iff.rfl
  have run_past : run.past = run.start + run.size := rfl
  rw [one, start, stop]
  cases left with
  | none =>
    cases right with
    | none => simp
    | some d =>
      have := touch_right d rfl
      simp only [Option.toList_none, Option.toList_some, List.mem_singleton, exists_eq_left,
        List.not_mem_nil, false_and, exists_false, false_or, mem_def, Option.elim_none,
        Option.elim_some, past] at *
      omega
  | some b =>
    have := touch_left b rfl
    cases right with
    | none =>
      simp only [Option.toList_none, Option.toList_some, List.mem_singleton, exists_eq_left,
        List.not_mem_nil, false_and, exists_false, or_false, mem_def, Option.elim_none,
        Option.elim_some, past] at *
      omega
    | some d =>
      have := touch_right d rfl
      simp only [Option.toList_some, List.mem_singleton, exists_eq_left, mem_def,
        Option.elim_some, past] at *
      omega

/-- A run that is returned between the blocks below and above it is joined with each of the two
neighbours that it touches. -/
theorem deposit {left right : Option Block} {run joined : Block}
    (h : Runs (before ++ (left.toList ++ right.toList) ++ after) S) (pos : 0 < run.size)
    (touch_left : ∀ b ∈ left, b.past = run.start) (touch_right : ∀ b ∈ right, run.past = b.start)
    (below : ∀ a ∈ before, a.past < run.start) (above : ∀ b ∈ after, run.past < b.start)
    (start : joined.start = left.elim run.start Block.start)
    (stop : joined.past = right.elim run.past Block.past) :
    Runs (before ++ [joined] ++ after) (S ∪ Finset.Ico run.start run.past) := by
  have joined_mem : ∀ {p}, p ∈ joined ↔ _ := mem_joined pos touch_left touch_right start stop
  have cross := (List.pairwise_append.mp h.apart).2.2
  have first := (List.pairwise_append.mp (List.pairwise_append.mp h.apart).1).2.2
  refine h.splice ?_ (List.pairwise_singleton _ _) ?_ ?_ ?_ ?_
  · intro b hb
    cases List.mem_singleton.mp hb
    have inside : run.start ∈ joined :=
      joined_mem.mpr (Or.inr (Or.inl ⟨Nat.le_refl _, Nat.lt_add_of_pos_right pos⟩))
    rw [mem_def] at inside
    omega
  · intro a ha b hb
    cases List.mem_singleton.mp hb
    cases left with
    | none => exact start ▸ below a ha
    | some d => exact start ▸ first a ha d (by simp)
  · intro a ha b hb
    cases List.mem_singleton.mp ha
    cases right with
    | none => exact stop ▸ above b hb
    | some d => exact stop ▸ cross d (by simp) b hb
  · intro a ha b hb
    exact cross a (List.mem_append_left _ ha) b hb
  · intro p
    have inner : (∃ b ∈ [joined], p ∈ b) ↔ p ∈ joined := by simp
    rw [inner, joined_mem, Finset.mem_union, Finset.mem_Ico, h.mem p]
    simp only [List.mem_append, or_and_right, exists_or, or_comm, or_left_comm]

/-- The sizes of the blocks add up to the number of pages. -/
theorem sum_size (h : Runs blocks S) : (blocks.map Block.size).sum = S.card := by
  induction blocks generalizing S with
  | nil =>
    have : S = ∅ := Finset.eq_empty_of_forall_notMem fun p hp => by simpa using (h.mem p).mp hp
    simp [this]
  | cons b rest ih =>
    have pos := h.positive b List.mem_cons_self
    have below : Finset.Ico b.start b.past ⊆ S := fun p hp =>
      (h.mem p).mpr ⟨b, List.mem_cons_self, Finset.mem_Ico.mp hp⟩
    have tail : Runs rest (S \ Finset.Ico b.start b.past) := by
      have h' : Runs ([] ++ b :: rest) S := h
      simpa [without, past] using h'.withdraw pos (Nat.le_refl b.start) (Nat.le_refl _)
    rw [List.map_cons, List.sum_cons, ih tail, Finset.card_sdiff_of_subset below, Nat.card_Ico]
    have := Finset.card_le_card below
    rw [Nat.card_Ico] at this
    simp only [past] at *
    omega

end Runs

end ConsoleMemory.Block
