import ConsoleMemory.Proofs.FreeList.Returning

/-!
# Charging runs to pools

A run is charged to the pool of its first page, as a whole. Whether the pool
can answer for it is the only thing that the set of free pages leaves open:
`remove_outcome` and `insert_outcome` say what the two operations come to.
-/

namespace ConsoleMemory.FreeList

open Finset (Ico)

variable {l : FreeList} {r : PageRequest} {S : Finset Nat}

section Charges
variable {page count : Nat} {chain : Chain Block}

/-- Free pages of the pool that a run from `page` on is charged to. -/
def pool (l : FreeList) (page : Nat) : Nat := if l.isDebugger page then l.debugger else l.general

/-- The list with `n` free pages in the pool that a run from `page` on is charged to. -/
def withPool (l : FreeList) (page n : Nat) : FreeList :=
  if l.isDebugger page then { l with debugger := n } else { l with general := n }

@[simp] lemma pageCount_withPool (page n : Nat) : (l.withPool page n).pageCount = l.pageCount := by
  unfold withPool
  split <;> rfl

@[simp] lemma boundary_withPool (page n : Nat) : (l.withPool page n).boundary = l.boundary := by
  unfold withPool
  split <;> rfl

lemma discharge_eq :
    l.discharge page count =
      if count ≤ l.pool page then .ok (l.withPool page (l.pool page - count))
      else .error .overflow := by
  unfold discharge pool withPool
  cases l.isDebugger page
  · simp only [checkedSub, Bool.false_eq_true, if_false]
    split <;> rfl
  · simp only [checkedSub, if_true]
    split <;> rfl

lemma Keeps.card_withdrawn (inside : ∀ p, page ≤ p → p < page + count → p ∈ S) :
    (S \ Ico page (page + count)).card = S.card - count ∧ count ≤ S.card := by
  have sub : Ico page (page + count) ⊆ S := fun p hp =>
    inside p (Finset.mem_Ico.mp hp).1 (Finset.mem_Ico.mp hp).2
  have le := Finset.card_le_card sub
  rw [Finset.card_sdiff_of_subset sub, Nat.card_Ico]
  rw [Nat.card_Ico] at le
  omega

lemma Keeps.card_returned (outside : ∀ p, page ≤ p → p < page + count → p ∉ S) :
    (S ∪ Ico page (page + count)).card = S.card + count := by
  rw [Finset.card_union_of_disjoint, Nat.card_Ico, Nat.add_sub_cancel_left]
  refine Finset.disjoint_right.mpr fun p hp => ?_
  exact outside p (Finset.mem_Ico.mp hp).1 (Finset.mem_Ico.mp hp).2

/-- A run that leaves the set is taken off its pool. -/
lemma Keeps.withdraw (h : l.Keeps S) (tiles : Tiles chain (S \ Ico page (page + count)))
    (inside : ∀ p, page ≤ p → p < page + count → p ∈ S) (enough : count ≤ l.pool page) :
    ({ l with chain }.withPool page (l.pool page - count)).Keeps
      (S \ Ico page (page + count)) := by
  have balanced := h.balanced
  have roomy := h.roomy
  have within : ∀ p ∈ S \ Ico page (page + count), p < l.pageCount := fun p hp =>
    h.within p (Finset.mem_sdiff.mp hp).1
  have card := Keeps.card_withdrawn inside
  have same : ({ l with chain } : FreeList).isDebugger page = l.isDebugger page := rfl
  unfold withPool pool at *
  rw [same]
  split
  · next debugger =>
    rw [if_pos debugger] at enough
    exact ⟨tiles, within, h.bounded, by dsimp only; omega, by dsimp only; omega⟩
  · next general =>
    rw [if_neg general] at enough
    exact ⟨tiles, within, h.bounded, by dsimp only; omega, roomy⟩

/-- The pool that a run from `page` on is charged to has room for `count` pages more. -/
def HasRoom (l : FreeList) (page count : Nat) : Prop :=
  l.isDebugger page = true → l.debugger + count ≤ l.pageCount - l.boundary.getD l.pageCount

/-- A run that joins the set is added to its pool; only the debugger's pool can lack room. -/
lemma Keeps.deposit (h : l.Keeps S) (tiles : Tiles chain (S ∪ Ico page (page + count)))
    (outside : ∀ p, page ≤ p → p < page + count → p ∉ S) (fits : page + count ≤ l.pageCount) :
    (l.HasRoom page count →
        { l with chain }.charge page count =
            .ok ({ l with chain }.withPool page (l.pool page + count)) ∧
          ({ l with chain }.withPool page (l.pool page + count)).Keeps
            (S ∪ Ico page (page + count))) ∧
      (¬ l.HasRoom page count →
        { l with chain }.charge page count =
          .error (.refused (.debuggerPoolOverflow (l.debugger + count)))) := by
  have balanced := h.balanced
  have roomy := h.roomy
  have bounded := h.bounded
  have card := Keeps.card_returned outside
  have within : ∀ p ∈ S ∪ Ico page (page + count), p < l.pageCount := by
    intro p hp
    rcases Finset.mem_union.mp hp with hp | hp
    · exact h.within p hp
    · exact Nat.lt_of_lt_of_le (Finset.mem_Ico.mp hp).2 fits
  have card_le : S.card + count ≤ l.pageCount := by
    have sub : S ∪ Ico page (page + count) ⊆ Finset.range l.pageCount := fun p hp =>
      Finset.mem_range.mpr (within p hp)
    simpa [card] using Finset.card_le_card sub
  have same : ({ l with chain } : FreeList).isDebugger page = l.isDebugger page := rfl
  have sum : ∀ n ≤ S.card, checkedAdd n count = .ok (n + count) := fun n hn =>
    checkedAdd_of_lt (by omega)
  have not_over : l.debugger + count ≤ l.pageCount := by omega
  have general_small : l.general ≤ l.pageCount := by omega
  unfold HasRoom withPool pool charge
  rw [same]
  cases debugger : l.isDebugger page with
  | false =>
    have general_sum : l.general + count ≤ l.pageCount := by omega
    refine ⟨fun _ => ⟨?_, ?_⟩, fun none => absurd (fun t => nomatch t) none⟩
    · simp only [sum l.general (by omega), Bool.false_eq_true, if_false, require, general_sum,
        decide_true, if_true, bind, Except.bind, pure, Except.pure]
      cases boundary : l.boundary with
      | none => rfl
      | some b =>
        rw [boundary, Option.getD_some] at roomy
        simp only [roomy, decide_true, if_true]
    · refine ⟨tiles, within, bounded, ?_, roomy⟩
      simp only [Bool.false_eq_true, if_false, card]
      omega
  | true =>
    obtain ⟨b, boundary⟩ : ∃ b, l.boundary = some b := by
      cases boundary : l.boundary with
      | none => simp [isDebugger, boundary] at debugger
      | some b => exact ⟨b, rfl⟩
    have steps : l.debugger ≤ S.card := by omega
    simp only [sum l.debugger steps, if_true, require, general_small, decide_true, bind,
      Except.bind, pure, Except.pure, boundary, Option.getD_some, forall_const]
    refine ⟨fun room => ⟨?_, ?_⟩, fun full => ?_⟩
    · simp only [room, decide_true, if_true]
    · refine ⟨tiles, within, bounded, ?_, by simpa using room⟩
      simp only [card]
      omega
    · simp only [full, decide_false, Bool.false_eq_true, if_false]

end Charges

/-! ### The two operations -/

/-- What taking pages can come to. -/
theorem remove_outcome (h : l.Keeps S) (pos : 0 < r.count) (legal : r.Legal) :
    l.choice? r = none ∧ l.remove r = .ok (none, l) ∨
      ∃ page, l.choice? r = some page ∧ r.Serves S page ∧
        ((∃ chain, l.remove r =
              .ok (some page, { l with chain }.withPool page (l.pool page - r.count)) ∧
            ({ l with chain }.withPool page (l.pool page - r.count)).Keeps
              (S \ Ico page (page + r.count))) ∧ r.count ≤ l.pool page ∨
          l.remove r = .error .overflow ∧ l.pool page < r.count) := by
  rcases remove_cases h pos legal with none | ⟨page, chain, chosen, serves, tiles, remove_eq⟩
  · exact Or.inl none
  have same : ({ l with chain } : FreeList).pool page = l.pool page := rfl
  refine Or.inr ⟨page, chosen, serves, ?_⟩
  rw [remove_eq, discharge_eq, same]
  by_cases enough : r.count ≤ l.pool page
  · rw [if_pos enough]
    exact Or.inl ⟨⟨chain, rfl, h.withdraw tiles serves.free enough⟩, enough⟩
  · rw [if_neg enough]
    exact Or.inr ⟨rfl, Nat.lt_of_not_le enough⟩

/-- What returning pages can come to. -/
theorem insert_outcome (h : l.Keeps S) {first last : Nat} (le : first ≤ last)
    (inside : last < l.pageCount) :
    (∃ p, first ≤ p ∧ p ≤ last ∧ p ∈ S) ∧
        (∃ b ∈ l.blocks, (∃ p ∈ b, first ≤ p ∧ p ≤ last) ∧
          l.insert first last = .error (.fatal (.doubleFree first last b))) ∨
      (∀ p, first ≤ p → p ≤ last → p ∉ S) ∧
        ((∃ chain, l.insert first last =
              .ok ({ l with chain }.withPool first (l.pool first + (last - first + 1))) ∧
            ({ l with chain }.withPool first (l.pool first + (last - first + 1))).Keeps
              (S ∪ Ico first (last + 1))) ∧ l.HasRoom first (last - first + 1) ∨
          (∃ n, l.insert first last = .error (.refused (.debuggerPoolOverflow n))) ∧
            ¬ l.HasRoom first (last - first + 1)) := by
  rcases insert_cases h le inside with ⟨disjoint, chain, tiles, insert_eq⟩ | clash
  · have size : first + (last - first + 1) = last + 1 := by omega
    rw [← size] at tiles ⊢
    obtain ⟨room, full⟩ := h.deposit tiles (fun p hp hp' => disjoint p hp (by omega)) (by omega)
    refine Or.inr ⟨disjoint, ?_⟩
    rw [insert_eq]
    by_cases has : l.HasRoom first (last - first + 1)
    · exact Or.inl ⟨⟨chain, room has⟩, has⟩
    · exact Or.inr ⟨⟨_, full has⟩, has⟩
  · exact Or.inl clash

/-! ### Given pages -/

variable {l' : FreeList} {limit : Nat}

lemma isDebugger_eq_false {page : Nat} (low : ∀ b, l.boundary = some b → page < b) :
    l.isDebugger page = false := by
  unfold isDebugger
  cases boundary : l.boundary with
  | none => rfl
  | some b => exact decide_eq_false (Nat.not_le_of_lt (low b boundary))

/-- What is left of the free pages when page `t`, the highest of `S` up to `limit`, is taken. -/
structure Loses (l : FreeList) (S : Finset Nat) (limit t : Nat) (l' : FreeList) : Prop where
  mem : t ∈ S
  le : t ≤ limit
  highest : ∀ p ∈ S, p ≤ limit → p ≤ t
  keeps : l'.Keeps (S \ Ico t (t + 1))
  pageCount : l'.pageCount = l.pageCount
  boundary : l'.boundary = l.boundary
  general : l'.general + 1 = l.general
  debugger : l'.debugger = l.debugger

/-- A single page below the debugger's boundary is there while the general pool is not empty, unless
all free pages are too high. -/
lemma Keeps.remove_page (h : l.Keeps S) (general : 0 < l.general)
    (low : ∀ b, l.boundary = some b → limit < b) :
    l.remove { count := 1, first := 0, last := limit } = .ok (none, l) ∧ (∀ p ∈ S, limit < p) ∨
      ∃ t l', l.remove { count := 1, first := 0, last := limit } = .ok (some t, l') ∧
        l.Loses S limit t l' := by
  have legal : PageRequest.Legal { count := 1, first := 0, last := limit } := Or.inl rfl
  have highest {p : Nat} (hp : p ∈ S) (le : p ≤ limit) :
      ∃ t, l.choice? { count := 1, first := 0, last := limit } = some t ∧ p ≤ t := by
    refine choice?_highest h Nat.one_pos (Nat.dvd_refl 1) ⟨fun q low high => ?_, Nat.zero_le p,
      Nat.succ_le_succ le, Nat.one_dvd p⟩
    cases Nat.le_antisymm low (Nat.le_of_lt_succ high)
    exact hp
  rcases remove_outcome h Nat.one_pos legal with ⟨chosen, none⟩ | ⟨t, chosen, serves, served⟩
  · refine Or.inl ⟨none, fun p hp => Nat.lt_of_not_le fun le => ?_⟩
    obtain ⟨t, some, _⟩ := highest hp le
    rw [chosen] at some
    cases some
  · have le : t ≤ limit := Nat.le_of_succ_le_succ serves.last
    have own : l.isDebugger t = false :=
      isDebugger_eq_false fun b boundary => Nat.lt_of_le_of_lt le (low b boundary)
    have pool_eq : l.pool t = l.general := by
      rw [pool, own]
      rfl
    rcases served with ⟨⟨chain, eq, keeps⟩, _⟩ | ⟨_, short⟩
    · refine Or.inr ⟨t, _, eq, serves.free t le_rfl (Nat.lt_succ_self t), le,
        fun p hp low => ?_, keeps, pageCount_withPool _ _, boundary_withPool _ _, ?_, ?_⟩
      · obtain ⟨t', some, le⟩ := highest hp low
        cases chosen.symm.trans some
        exact le
      · rw [withPool, pool_eq]
        change (if l.isDebugger t then _ else _ : FreeList).general + 1 = _
        rw [own]
        change l.general - 1 + 1 = l.general
        omega
      · rw [withPool]
        change (if l.isDebugger t then _ else _ : FreeList).debugger = _
        rw [own]
        rfl
    · rw [pool_eq] at short
      exact absurd short (by
        change ¬ l.general < 1
        omega)

/-- A single page below the debugger's boundary can always be returned. -/
lemma Keeps.insert_page (h : l.Keeps S) {t : Nat} (inside : t < l.pageCount) (taken : t ∉ S)
    (low : ∀ b, l.boundary = some b → t < b) :
    ∃ l', l.insert t t = .ok l' ∧ l'.Keeps (S ∪ Ico t (t + 1)) ∧ l'.pageCount = l.pageCount ∧
      l'.boundary = l.boundary ∧ l'.general = l.general + 1 := by
  have own := isDebugger_eq_false low
  rcases insert_outcome h (le_refl t) inside with ⟨⟨p, le, ge, hp⟩, _⟩ | ⟨_, returned | full⟩
  · cases Nat.le_antisymm le ge
    exact absurd hp taken
  · obtain ⟨⟨chain, eq, keeps⟩, _⟩ := returned
    refine ⟨_, eq, keeps, pageCount_withPool _ _, boundary_withPool _ _, ?_⟩
    rw [withPool, pool, own]
    change (if l.isDebugger t then _ else _ : FreeList).general = _
    rw [own, Nat.sub_self]
    rfl
  · refine absurd (fun debugger => ?_) full.2
    rw [own] at debugger
    cases debugger

/-- A run that is free and starts below the debugger's boundary can be taken just where it is, if
the general pool answers for it. -/
lemma Keeps.remove_run (h : l.Keeps S) (first count : Nat) (pos : 0 < count)
    (free : ∀ p, first ≤ p → p < first + count → p ∈ S)
    (low : ∀ b, l.boundary = some b → first < b) (enough : count ≤ l.general) :
    ∃ l', l.remove { count, first, last := first + count - 1 } = .ok (some first, l') ∧
      l'.Keeps (S \ Ico first (first + count)) ∧ l'.pageCount = l.pageCount ∧
      l'.boundary = l.boundary ∧ l'.general + count = l.general ∧ l'.debugger = l.debugger := by
  have own := isDebugger_eq_false low
  have legal : PageRequest.Legal { count, first, last := first + count - 1 } := Or.inl rfl
  have pool_eq : l.pool first = l.general := by
    rw [pool, own]
    rfl
  have fits : first + count ≤ first + count - 1 + 1 := by omega
  obtain ⟨page, chosen, le⟩ := choice?_highest h (r := ⟨count, 0, first, first + count - 1⟩) pos
    (Nat.one_dvd count) (t := first) ⟨free, le_refl first, fits, Nat.one_dvd first⟩
  rcases remove_outcome h pos legal with ⟨none, _⟩ | ⟨page', chosen', serves, served⟩
  · rw [chosen] at none
    cases none
  cases chosen.symm.trans chosen'
  have stop := serves.last
  cases Nat.le_antisymm le (by
    change page + count ≤ first + count - 1 + 1 at stop
    omega)
  rcases served with ⟨⟨chain, eq, keeps⟩, _⟩ | ⟨_, short⟩
  · refine ⟨_, eq, keeps, pageCount_withPool _ _, boundary_withPool _ _, ?_, ?_⟩
    · rw [withPool, pool_eq]
      change (if l.isDebugger first then _ else _ : FreeList).general + count = _
      rw [own]
      change l.general - count + count = l.general
      omega
    · rw [withPool]
      change (if l.isDebugger first then _ else _ : FreeList).debugger = _
      rw [own]
      rfl
  · rw [pool_eq] at short
    exact absurd short (Nat.not_lt_of_le enough)

lemma Keeps.card_le (h : l.Keeps S) : S.card ≤ l.pageCount := by
  have sub : S ⊆ Finset.range l.pageCount := fun p hp => Finset.mem_range.mpr (h.within p hp)
  have le := Finset.card_le_card sub
  rwa [Finset.card_range] at le

/-- Charging pages of one pool to the other leaves the free pages as they are. -/
lemma Keeps.movePages (h : l.Keeps S) (pages : Nat) (enough : pages ≤ l.debugger) :
    ∃ l', l.movePages pages = .ok l' ∧ l'.Keeps S ∧ l'.pageCount = l.pageCount ∧
      l'.boundary = l.boundary ∧ l'.debugger + pages = l.debugger := by
  have card := h.card_le
  have bounded := h.bounded
  have balanced := h.balanced
  have roomy := h.roomy
  refine ⟨{ l with debugger := l.debugger - pages, general := l.general + pages }, ?_,
    ⟨h.tiles, h.within, h.bounded, by dsimp only; omega, by dsimp only; omega⟩, rfl, rfl,
    Nat.sub_add_cancel enough⟩
  rw [FreeList.movePages, decide_eq_true enough, checkedAdd_of_lt (by omega)]
  rfl

end ConsoleMemory.FreeList
