import ConsoleMemory.Proofs.FreeList.Taking

/-!
# Returning pages

A return is refused exactly where a page of it is free already, and only the
blocks next to it are looked at: the order of the blocks makes up for the
rest. Otherwise the run joins the set, merged with the neighbours it touches.
-/

namespace ConsoleMemory.FreeList

open Finset (Ico)

variable {l : FreeList} {S : Finset Nat}

/-- Entries split where the blocks start to lie at or above a page. -/
lemma exists_split {entries : List (Nat × Block)} (runs : Block.Runs (entries.map Prod.snd) S)
    (first : Nat) :
    ∃ before after, entries = before ++ after ∧ (∀ e ∈ before, e.2.start < first) ∧
      ∀ e ∈ after, first ≤ e.2.start := by
  have ascending := List.pairwise_map.mp runs.ascending
  clear runs
  induction entries with
  | nil => exact ⟨[], [], rfl, nofun, nofun⟩
  | cons e rest ih =>
    obtain ⟨next, tail⟩ := List.pairwise_cons.mp ascending
    by_cases lt : e.2.start < first
    · obtain ⟨before, after, rfl, lower, upper⟩ := ih tail
      refine ⟨e :: before, after, rfl, ?_, upper⟩
      intro d hd
      rcases List.mem_cons.mp hd with rfl | hd
      · exact lt
      · exact lower d hd
    · refine ⟨[], e :: rest, rfl, nofun, ?_⟩
      intro d hd
      rcases List.mem_cons.mp hd with rfl | hd
      · omega
      · have := next d hd
        omega

lemma slotBlock?_eq {c : Chain Block} {entries : List (Nat × Block)} (h : c.Holds entries)
    {e : Nat × Block} (he : e ∈ entries) : slotBlock? c e.1 = some e := by
  rw [slotBlock?, h.item e he]
  rfl

lemma before?_eq {c : Chain Block} {before after : List (Nat × Block)} {first : Nat}
    (h : c.Holds (before ++ after)) (lower : ∀ e ∈ before, e.2.start < first)
    (upper : ∀ e ∈ after, first ≤ e.2.start) : before? c first = before.getLast? := by
  have all : (((before ++ after).map Prod.fst).reverse).filterMap (slotBlock? c) =
      (before ++ after).reverse := by
    rw [← List.map_reverse, List.filterMap_map]
    have each : ∀ e ∈ (before ++ after).reverse, (slotBlock? c ∘ Prod.fst) e = some e := fun e he =>
      slotBlock?_eq h (List.mem_reverse.mp he)
    rw [List.filterMap_congr each, List.filterMap_some]
  rw [before?, h.backward_eq, all, List.reverse_append, List.find?_append]
  have above : after.reverse.find? (fun e => decide (e.2.start < first)) = none := by
    rw [List.find?_eq_none]
    intro e he
    have := upper e (List.mem_reverse.mp he)
    simpa using this
  rw [above, Option.none_or]
  rcases List.eq_nil_or_concat before with rfl | ⟨init, e, rfl⟩
  · rfl
  · simp [lower e (by simp)]

/-- The neighbour below a returned run, set apart if the run continues it. -/
lemma exists_left {before : List (Nat × Block)} {first : Nat}
    (apart : before.Pairwise fun d e => d.2.past < e.2.start)
    (low : ∀ e ∈ before, e.2.past ≤ first) :
    ∃ init left, before = init ++ left.toList ∧
      (before.getLast?.filter fun (_, b) => b.start + b.size == first) = left ∧
      (∀ e ∈ left, e.2.past = first) ∧ ∀ e ∈ init, e.2.past < first := by
  rcases List.eq_nil_or_concat before with rfl | ⟨init, e, rfl⟩
  · exact ⟨[], none, rfl, rfl, nofun, nofun⟩
  rw [List.concat_eq_append] at *
  have below : ∀ d ∈ init, d.2.past < e.2.start := fun d hd =>
    (List.pairwise_append.mp apart).2.2 d hd e (by simp)
  have start_le : e.2.start ≤ e.2.past := Nat.le_add_right _ _
  have stop := low e (by simp)
  by_cases touch : e.2.past = first
  · refine ⟨init, some e, rfl, ?_, ?_, ?_⟩
    · simpa [Option.filter, Block.past] using touch
    · rintro d ⟨⟩
      exact touch
    · intro d hd
      have := below d hd
      omega
  · refine ⟨init ++ [e], none, by simp, ?_, nofun, ?_⟩
    · simpa [Option.filter, Block.past] using touch
    · intro d hd
      rcases List.mem_append.mp hd with hd | hd
      · have := below d hd
        omega
      · cases List.mem_singleton.mp hd
        omega

/-- The neighbour above a returned run, set apart if it continues the run. -/
lemma exists_right {after : List (Nat × Block)} {next : Nat}
    (apart : after.Pairwise fun d e => d.2.past < e.2.start)
    (high : ∀ e ∈ after, next ≤ e.2.start) :
    ∃ right rest, after = right.toList ++ rest ∧
      (after.head?.filter fun (_, b) => b.start == next) = right ∧
      (∀ e ∈ right, e.2.start = next) ∧ ∀ e ∈ rest, next < e.2.start := by
  cases after with
  | nil => exact ⟨none, [], rfl, rfl, nofun, nofun⟩
  | cons e rest =>
    have above := (List.pairwise_cons.mp apart).1
    have start_le : e.2.start ≤ e.2.past := Nat.le_add_right _ _
    have start := high e List.mem_cons_self
    by_cases touch : e.2.start = next
    · refine ⟨some e, rest, rfl, ?_, ?_, ?_⟩
      · simpa [Option.filter] using touch
      · rintro d ⟨⟩
        exact touch
      · intro d hd
        have := above d hd
        omega
    · refine ⟨none, e :: rest, rfl, ?_, nofun, ?_⟩
      · simpa [Option.filter] using touch
      · intro d hd
        rcases List.mem_cons.mp hd with rfl | hd
        · omega
        · have := above d hd
          omega

section Joining
variable {c : Chain Block} {init rest : List (Nat × Block)} {below above : Option (Nat × Block)}
  {i j first last : Nat} {b d : Block}

/-- A run that touches no neighbour becomes a block of its own. -/
lemma join_neither (holds : c.Holds (init ++ rest)) (below_eq : init.getLast? = below)
    (left_eq : (below.filter fun (_, b) => b.start + b.size == first) = none)
    (right_eq : (above.filter fun (_, b) => b.start == last + 1) = none) :
    ∃ chain slot, join c below above first last = .ok chain ∧
      chain.Holds (init ++ (slot, ⟨first, last - first + 1⟩) :: rest) := by
  unfold join
  simp only [left_eq, right_eq]
  subst below_eq
  rcases List.eq_nil_or_concat init with rfl | ⟨init, ⟨slot, b⟩, rfl⟩
  · obtain ⟨slot, holds'⟩ := holds.pushFront ⟨first, last - first + 1⟩
    exact ⟨_, slot, rfl, holds'⟩
  · rw [List.concat_eq_append, List.append_assoc, List.singleton_append] at holds
    obtain ⟨slot', holds'⟩ := holds.insertAfter ⟨first, last - first + 1⟩
    refine ⟨c.insertAfter slot ⟨first, last - first + 1⟩, slot', ?_, by simpa using holds'⟩
    simp
    rfl

/-- A run that touches the block above extends it downwards. -/
lemma join_above (holds : c.Holds (init ++ (j, d) :: rest))
    (left_eq : (below.filter fun (_, b) => b.start + b.size == first) = none)
    (right_eq : (above.filter fun (_, b) => b.start == last + 1) = some (j, d))
    (small : d.size + (last - first + 1) < 0x100000000) :
    ∃ chain, join c below above first last = .ok chain ∧
      chain.Holds (init ++ (j, ⟨first, d.size + (last - first + 1)⟩) :: rest) := by
  refine ⟨c.setItem j ⟨first, d.size + (last - first + 1)⟩, ?_, holds.setItem _⟩
  unfold join
  simp only [left_eq, right_eq, checkedAdd_of_lt small]
  rfl

/-- A run that touches the block below extends it upwards. -/
lemma join_below (holds : c.Holds (init ++ (i, b) :: rest))
    (left_eq : (below.filter fun (_, b) => b.start + b.size == first) = some (i, b))
    (right_eq : (above.filter fun (_, b) => b.start == last + 1) = none)
    (small : b.size + (last - first + 1) < 0x100000000) :
    ∃ chain, join c below above first last = .ok chain ∧
      chain.Holds (init ++ (i, ⟨b.start, b.size + (last - first + 1)⟩) :: rest) := by
  refine ⟨c.setItem i ⟨b.start, b.size + (last - first + 1)⟩, ?_, holds.setItem _⟩
  unfold join
  simp only [left_eq, right_eq, checkedAdd_of_lt small]
  rfl

/-- A run that touches both neighbours closes the gap between them. -/
lemma join_both (holds : c.Holds (init ++ (i, b) :: (j, d) :: rest))
    (left_eq : (below.filter fun (_, b) => b.start + b.size == first) = some (i, b))
    (right_eq : (above.filter fun (_, b) => b.start == last + 1) = some (j, d))
    (small : b.size + (last - first + 1) + d.size < 0x100000000) :
    ∃ chain, join c below above first last = .ok chain ∧
      chain.Holds (init ++ (i, ⟨b.start, b.size + (last - first + 1) + d.size⟩) :: rest) := by
  have grown := holds.setItem ⟨b.start, b.size + (last - first + 1) + d.size⟩
  rw [List.append_cons] at grown
  refine ⟨(c.setItem i ⟨b.start, b.size + (last - first + 1) + d.size⟩).unlink j, ?_,
    by simpa using grown.unlink⟩
  have once : checkedAdd b.size (last - first + 1) = .ok (b.size + (last - first + 1)) :=
    checkedAdd_of_lt (by omega)
  unfold join
  simp only [left_eq, right_eq, once, checkedAdd_of_lt small, bind, Except.bind]
  rfl

/-- The block that a run is joined to reaches from the neighbour below to the one above. -/
lemma join_holds {left right : Option (Nat × Block)} (le : first ≤ last)
    (holds : c.Holds (init ++ left.toList ++ (right.toList ++ rest)))
    (left_eq :
      ((init ++ left.toList).getLast?.filter fun (_, b) => b.start + b.size == first) = left)
    (right_eq : ((right.toList ++ rest).head?.filter fun (_, b) => b.start == last + 1) = right)
    (touch_left : ∀ e ∈ left, e.2.past = first) (touch_right : ∀ e ∈ right, e.2.start = last + 1)
    (fits : ∀ e ∈ right, e.2.past < 0x100000000) (small : last + 1 < 0x100000000) :
    ∃ chain slot joined,
      join c (init ++ left.toList).getLast? (right.toList ++ rest).head? first last = .ok chain ∧
      chain.Holds (init ++ (slot, joined) :: rest) ∧
      joined.start = (left.map Prod.snd).elim first Block.start ∧
      joined.past = (right.map Prod.snd).elim (last + 1) Block.past := by
  have past_eq (b : Block) : b.past = b.start + b.size := rfl
  cases left with
  | none =>
    cases right with
    | none =>
      obtain ⟨chain, slot, eq, holds'⟩ := join_neither (by simpa using holds) rfl
        (by simpa using left_eq) right_eq
      refine ⟨chain, slot, _, by simpa using eq, holds', rfl, ?_⟩
      change first + (last - first + 1) = last + 1
      omega
    | some e =>
      have start := touch_right e rfl
      have stop := fits e rfl
      rw [past_eq] at stop
      obtain ⟨chain, eq, holds'⟩ := join_above (by simpa using holds) left_eq right_eq (by omega)
      refine ⟨chain, e.1, _, eq, holds', rfl, ?_⟩
      change first + (e.2.size + (last - first + 1)) = e.2.start + e.2.size
      omega
  | some e =>
    have stop_left := touch_left e rfl
    rw [past_eq] at stop_left
    cases right with
    | none =>
      obtain ⟨chain, eq, holds'⟩ := join_below (by simpa using holds) left_eq right_eq (by omega)
      refine ⟨chain, e.1, _, eq, holds', rfl, ?_⟩
      change e.2.start + (e.2.size + (last - first + 1)) = last + 1
      omega
    | some e' =>
      have start := touch_right e' rfl
      have stop := fits e' rfl
      rw [past_eq] at stop
      obtain ⟨chain, eq, holds'⟩ := join_both (by simpa using holds) left_eq right_eq (by omega)
      refine ⟨chain, e.1, _, eq, holds', rfl, ?_⟩
      change e.2.start + (e.2.size + (last - first + 1) + e'.2.size) = e'.2.start + e'.2.size
      omega

end Joining

/-- A run that keeps clear of all blocks is joined with the neighbours it touches. -/
theorem join_tiles {c : Chain Block} {before after : List (Nat × Block)} {first last : Nat}
    (holds : c.Holds (before ++ after))
    (runs : Block.Runs ((before ++ after).map Prod.snd) S) (le : first ≤ last)
    (low : ∀ e ∈ before, e.2.past ≤ first) (high : ∀ e ∈ after, last + 1 ≤ e.2.start)
    (fits : ∀ e ∈ before ++ after, e.2.past < 0x100000000) (small : last + 1 < 0x100000000) :
    ∃ chain, join c before.getLast? after.head? first last = .ok chain ∧
      Tiles chain (S ∪ Ico first (last + 1)) := by
  have apart := List.pairwise_append.mp (List.pairwise_map.mp runs.apart)
  obtain ⟨init, left, rfl, left_eq, touch_left, below⟩ := exists_left apart.1 low
  obtain ⟨right, rest, rfl, right_eq, touch_right, above⟩ := exists_right apart.2.1 high
  obtain ⟨chain, slot, joined, eq, holds', start, stop⟩ := join_holds le holds left_eq right_eq
    touch_left touch_right (fun e mem => fits e (by simp [Option.mem_def.mp mem])) small
  have run_past : Block.past ⟨first, last - first + 1⟩ = last + 1 := by
    change first + (last - first + 1) = last + 1
    omega
  have split : Block.Runs (init.map Prod.snd ++
      ((left.map Prod.snd).toList ++ (right.map Prod.snd).toList) ++ rest.map Prod.snd) S := by
    cases left <;> cases right <;> simpa using runs
  have new : Block.Runs (init.map Prod.snd ++ [joined] ++ rest.map Prod.snd)
      (S ∪ Ico first (last + 1)) := by
    rw [← run_past] at stop ⊢
    refine split.deposit (Nat.succ_pos _) ?_ ?_ ?_ ?_ start stop
    · intro b hb
      obtain ⟨e, he, rfl⟩ := Option.map_eq_some_iff.mp hb
      exact touch_left e he
    · intro b hb
      obtain ⟨e, he, rfl⟩ := Option.map_eq_some_iff.mp hb
      rw [run_past, touch_right e he]
    · intro b hb
      obtain ⟨e, he, rfl⟩ := List.mem_map.mp hb
      exact below e he
    · intro b hb
      obtain ⟨e, he, rfl⟩ := List.mem_map.mp hb
      rw [run_past]
      exact above e he
  exact ⟨chain, eq, _, holds', by simpa using new⟩

/-- The block that follows a neighbour, or the first one where there is none below. -/
def above? (c : Chain Block) : Option (Nat × Block) → Option (Nat × Block)
  | some (slot, _) => (c.next? slot).bind (slotBlock? c)
  | none => c.head.bind (slotBlock? c)

lemma above?_getLast? {c : Chain Block} {before after : List (Nat × Block)}
    (h : c.Holds (before ++ after)) : above? c before.getLast? = after.head? := by
  have head : (after.head?.map Prod.fst).bind (slotBlock? c) = after.head? := by
    cases after with
    | nil => rfl
    | cons e rest => exact slotBlock?_eq h (by simp)
  rcases List.eq_nil_or_concat before with rfl | ⟨init, e, rfl⟩
  · rw [← head, List.getLast?_nil, above?, h.linked.head_eq]
    simp
  · rw [List.concat_eq_append, List.append_assoc] at h
    rw [← head, List.concat_eq_append, List.getLast?_append, List.getLast?_singleton,
      Option.some_or, above?, h.next?_eq]
    rfl

section Neighbours
variable {first last : Nat} {below above : Option (Nat × Block)}

lemma insert_of_clash_below (le : first ≤ last) (small : last < 0x100000000 - 1)
    {e : Nat × Block} (below_eq : before? l.chain first = some e)
    (positive : 0 < e.2.size) (bounded : e.2.past < 0x100000000) (clash : first < e.2.past) :
    l.insert first last = .error (.fatal (.doubleFree first last e.2)) := by
  have size : checkedAdd (last - first) 1 = .ok (last - first + 1) :=
    checkedAdd_of_lt (by omega)
  have beyond : ¬ e.2.past - 1 < first := by omega
  unfold insert
  simp only [require, le, decide_true, if_true, size, below_eq, Block.last_eq positive bounded,
    beyond, decide_false, Bool.false_eq_true, if_false, bind, Except.bind]

lemma insert_of_clear_below (le : first ≤ last) (small : last < 0x100000000 - 1)
    (below_eq : before? l.chain first = below) (above_eq : above? l.chain below = above)
    (clear : ∀ e ∈ below, 0 < e.2.size ∧ e.2.past < 0x100000000 ∧ e.2.past ≤ first) :
    l.insert first last = (do
      if let some (_, b) := above then
        require (last < b.start) (.fatal (.doubleFree first last b))
      let chain ← join l.chain below above first last
      { l with chain }.charge first (last - first + 1)) := by
  have size : checkedAdd (last - first) 1 = .ok (last - first + 1) :=
    checkedAdd_of_lt (by omega)
  cases below with
  | none =>
    subst above_eq
    rw [insert, decide_eq_true le, size, below_eq]
    rfl
  | some e =>
    obtain ⟨positive, bounded, stop⟩ := clear e rfl
    subst above_eq
    have under : e.2.past - 1 < first := by
      have : e.2.past = e.2.start + e.2.size := rfl
      omega
    rw [insert, decide_eq_true le, size, below_eq]
    change (do
      let last' ← e.2.last
      require (decide (last' < first)) _
      _) = _
    rw [Block.last_eq positive bounded]
    change (do
      require (decide (e.2.past - 1 < first)) _
      _) = _
    rw [decide_eq_true under]
    rfl

end Neighbours

/-- Where the last block below a page ends before it, all of them do. -/
lemma past_le_of_getLast? {before : List (Nat × Block)} {first : Nat}
    (apart : before.Pairwise fun d e => d.2.past < e.2.start)
    (clear : ¬ ∃ e ∈ before.getLast?, first < e.2.past) : ∀ e ∈ before, e.2.past ≤ first := by
  intro e he
  rcases List.eq_nil_or_concat before with rfl | ⟨init, d, rfl⟩
  · cases he
  rw [List.concat_eq_append] at *
  have stop : d.2.past ≤ first := by
    by_contra lt
    exact clear ⟨d, by simp, by omega⟩
  rcases List.mem_append.mp he with he | he
  · have := (List.pairwise_append.mp apart).2.2 e he d (by simp)
    have : d.2.past = d.2.start + d.2.size := rfl
    omega
  · cases List.mem_singleton.mp he
    exact stop

/-- Where the first block above a page starts after it, all of them do. -/
lemma lt_start_of_head? {after : List (Nat × Block)} {last : Nat}
    (apart : after.Pairwise fun d e => d.2.past < e.2.start)
    (clear : ¬ ∃ e ∈ after.head?, e.2.start ≤ last) : ∀ e ∈ after, last < e.2.start := by
  intro e he
  cases after with
  | nil => cases he
  | cons d rest =>
    have start : last < d.2.start := by
      by_contra ge
      exact clear ⟨d, rfl, by omega⟩
    rcases List.mem_cons.mp he with rfl | he
    · exact start
    · have := (List.pairwise_cons.mp apart).1 e he
      have : d.2.past = d.2.start + d.2.size := rfl
      omega

/-- A return is refused where it holds a page that is free already; otherwise the run joins the
set, provided its pool has room for it. -/
theorem insert_cases (h : l.Keeps S) {first last : Nat} (le : first ≤ last)
    (inside : last < l.pageCount) :
    (∀ p, first ≤ p → p ≤ last → p ∉ S) ∧
        (∃ chain, Tiles chain (S ∪ Ico first (last + 1)) ∧
          l.insert first last = { l with chain }.charge first (last - first + 1)) ∨
      (∃ p, first ≤ p ∧ p ≤ last ∧ p ∈ S) ∧
        ∃ b ∈ l.blocks, (∃ p ∈ b, first ≤ p ∧ p ≤ last) ∧
          l.insert first last = .error (.fatal (.doubleFree first last b)) := by
  obtain ⟨entries, holds, runs⟩ := h.tiles
  obtain ⟨before, after, rfl, lower, upper⟩ := exists_split runs first
  have blocks_eq : l.blocks = (before ++ after).map Prod.snd := holds.toList_eq
  have bounded := h.bounded
  have mem : ∀ e ∈ before ++ after, e.2 ∈ l.blocks := fun e he =>
    blocks_eq ▸ List.mem_map_of_mem he
  have past_le : ∀ e ∈ before ++ after, e.2.past ≤ l.pageCount := fun e he =>
    h.past_le (mem e he)
  have free : ∀ e ∈ before ++ after, ∀ p ∈ e.2, p ∈ S := fun e he =>
    (h.runs.isMaximal (mem e he)).inside
  have positive : ∀ e ∈ before ++ after, 0 < e.2.size := fun e he =>
    h.runs.positive e.2 (mem e he)
  have apart := List.pairwise_append.mp (List.pairwise_map.mp runs.apart)
  have below_eq := before?_eq holds lower upper
  have above_eq := above?_getLast? holds
  -- The block below must end before the run, the one above must start after it.
  by_cases clash_below : ∃ e ∈ before.getLast?, first < e.2.past
  · obtain ⟨e, he, clash⟩ := clash_below
    have mem_before := List.mem_of_getLast? he
    have mem_all : e ∈ before ++ after := List.mem_append_left _ mem_before
    have shared : first ∈ e.2 := ⟨Nat.le_of_lt (lower e mem_before), clash⟩
    refine Or.inr ⟨⟨first, Nat.le_refl _, le, free e mem_all first shared⟩, e.2, mem e mem_all,
      ⟨first, shared, Nat.le_refl _, le⟩, ?_⟩
    exact insert_of_clash_below le (by omega) (below_eq.trans he) (positive e mem_all)
      (Nat.lt_of_le_of_lt (past_le e mem_all) bounded) clash
  have low := past_le_of_getLast? apart.1 clash_below
  have insert_eq := insert_of_clear_below (l := l) le (by omega) below_eq above_eq fun e he =>
    have he := List.mem_of_getLast? he
    have mem_all : e ∈ before ++ after := List.mem_append_left _ he
    ⟨positive e mem_all, Nat.lt_of_le_of_lt (past_le e mem_all) bounded, low e he⟩
  by_cases clash_above : ∃ e ∈ after.head?, e.2.start ≤ last
  · obtain ⟨e, he, clash⟩ := clash_above
    have mem_after := List.mem_of_head? he
    have mem_all : e ∈ before ++ after := List.mem_append_right _ mem_after
    have shared : e.2.start ∈ e.2 :=
      ⟨Nat.le_refl _, Nat.lt_add_of_pos_right (positive e mem_all)⟩
    refine Or.inr ⟨⟨e.2.start, upper e mem_after, clash, free e mem_all _ shared⟩, e.2,
      mem e mem_all, ⟨e.2.start, shared, upper e mem_after, clash⟩, ?_⟩
    have late : ¬ last < e.2.start := by omega
    rw [insert_eq, Option.mem_def.mp he]
    simp only [require, late, decide_false, Bool.false_eq_true, if_false, bind, Except.bind]
  have high := lt_start_of_head? apart.2.1 clash_above
  obtain ⟨chain, joined, tiles⟩ := join_tiles holds runs le low high
    (fun e he => Nat.lt_of_le_of_lt (past_le e he) bounded) (by omega)
  refine Or.inl ⟨?_, chain, tiles, ?_⟩
  · intro p hp hp' mem_S
    obtain ⟨b, hb, hpb⟩ := (runs.mem p).mp mem_S
    obtain ⟨e, he, rfl⟩ := List.mem_map.mp hb
    rcases List.mem_append.mp he with he | he
    · have := low e he
      exact absurd hpb.2 (by simp only [Block.past] at this; omega)
    · have := high e he
      exact absurd hpb.1 (by omega)
  · rw [insert_eq, joined]
    cases ha : after.head? with
    | none => rfl
    | some e =>
      have start : last < e.2.start := high e (List.mem_of_head? ha)
      simp only [require, start, decide_true, if_true, bind, Except.bind]

end ConsoleMemory.FreeList
