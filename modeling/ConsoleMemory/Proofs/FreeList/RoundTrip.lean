import ConsoleMemory.Proofs.FreeList.Alignment

/-!
# Returning what was taken

Runs that are taken one after the other are lent by the list: they lie apart in
the pages that it kept, and each is charged to the pool of its first page. What
is lent does not depend on the order of the runs, and returning any one of them
leaves the rest lent, so they can be returned in every order.
-/

namespace ConsoleMemory.FreeList

open Finset (Ico)

/-- Requests that are all served, one after the other, take the runs, the latest first. -/
inductive Takes (x : FreeList) : List Block → FreeList → Prop where
  | refl : Takes x [] x
  | take {runs : List Block} {l l' : FreeList} {r : PageRequest} {page : Nat} :
      Takes x runs l → l.remove r = .ok (some page, l') → Takes x (⟨page, r.count⟩ :: runs) l'

/-- Returns the runs in the order of the list. -/
def returnAll (l : FreeList) (runs : List Block) : Except Abort FreeList :=
  runs.foldlM (fun l b => l.insert b.start (b.past - 1)) l

/-- The pages of the runs. -/
def pagesOf (runs : List Block) : Finset Nat :=
  runs.foldr (fun b pages => Ico b.start b.past ∪ pages) ∅

/-- Free pages of the debugger's pool, or of the general one. -/
def counter (l : FreeList) (debugger : Bool) : Nat := if debugger then l.debugger else l.general

/-- Pages of the runs that are charged to the debugger's pool, or to the general one. -/
def charged (l : FreeList) (debugger : Bool) (runs : List Block) : Nat :=
  ((runs.filter fun b => l.isDebugger b.start == debugger).map Block.size).sum

variable {highest : Nat} {boundary : Option Nat} {l l' start x : FreeList} {r : PageRequest}
  {S : Finset Nat} {b : Block} {runs order : List Block} {events : List Event} {page : Nat}

lemma mem_pagesOf {p : Nat} : p ∈ pagesOf runs ↔ ∃ b ∈ runs, p ∈ b := by
  induction runs with
  | nil => simp [pagesOf]
  | cons b runs ih =>
    have split : p ∈ pagesOf (b :: runs) ↔ p ∈ Ico b.start b.past ∨ p ∈ pagesOf runs :=
      Finset.mem_union
    have here : p ∈ Ico b.start b.past ↔ p ∈ b := Finset.mem_Ico
    rw [split, here, ih, List.exists_mem_cons_iff]

lemma charged_cons (l : FreeList) (debugger : Bool) (b : Block) (runs : List Block) :
    l.charged debugger (b :: runs) =
      (if l.isDebugger b.start = debugger then b.size else 0) + l.charged debugger runs := by
  unfold charged
  rw [List.filter_cons]
  by_cases same : l.isDebugger b.start = debugger
  · rw [if_pos (beq_iff_eq.mpr same), if_pos same, List.map_cons, List.sum_cons]
  · rw [if_neg (mt beq_iff_eq.mp same), if_neg same, Nat.zero_add]

lemma pool_eq_counter (l : FreeList) (page : Nat) : l.pool page = l.counter (l.isDebugger page) :=
  rfl

/-- A charge changes the counter of its own pool. -/
lemma counter_withPool (chain : Chain Block) (page n : Nat) (debugger : Bool) :
    ({ l with chain }.withPool page n).counter debugger =
      if l.isDebugger page = debugger then n else l.counter debugger := by
  have same : ({ l with chain } : FreeList).isDebugger page = l.isDebugger page := rfl
  unfold withPool counter
  rw [same]
  cases l.isDebugger page <;> cases debugger <;> rfl

/-- The list keeps the pages of `S` but for those of the runs, which are lent. -/
structure Lent (x : FreeList) (S : Finset Nat) (runs : List Block) (l : FreeList) : Prop where
  keeps : l.Keeps (S \ pagesOf runs)
  pageCount : l.pageCount = x.pageCount
  boundary : l.boundary = x.boundary
  positive : ∀ b ∈ runs, 0 < b.size
  inside : ∀ b ∈ runs, ∀ p ∈ b, p ∈ S
  apart : runs.Pairwise fun a b => ∀ p ∈ a, p ∉ b
  booked : ∀ debugger, l.counter debugger + x.charged debugger runs = x.counter debugger

lemma Lent.isDebugger (h : Lent x S runs l) (page : Nat) :
    l.isDebugger page = x.isDebugger page := by
  rw [FreeList.isDebugger, h.boundary, FreeList.isDebugger]

lemma Keeps.lent_nil (h : x.Keeps S) : Lent x S [] x := by
  refine ⟨?_, rfl, rfl, nofun, nofun, .nil, fun _ => rfl⟩
  rw [pagesOf, List.foldr_nil, Finset.sdiff_empty]
  exact h

/-- A run that is taken is lent with those before. -/
lemma Lent.take (h : Lent x S runs l) (ok : l.remove r = .ok (some page, l')) :
    Lent x S (⟨page, r.count⟩ :: runs) l' := by
  obtain ⟨pos, serves, keeps, chain, rfl, enough⟩ := h.keeps.of_remove_some ok
  have free {p : Nat} (hp : p ∈ (⟨page, r.count⟩ : Block)) : p ∈ S ∧ p ∉ pagesOf runs :=
    Finset.mem_sdiff.mp (serves.free p hp.1 hp.2)
  refine ⟨?_, ?_, ?_, ?_, ?_, ?_, fun debugger => ?_⟩
  · have pages : S \ pagesOf (⟨page, r.count⟩ :: runs) =
        (S \ pagesOf runs) \ Ico page (page + r.count) := by
      rw [sdiff_sdiff_left, sup_comm]
      rfl
    exact pages ▸ keeps
  · rw [pageCount_withPool]
    exact h.pageCount
  · rw [boundary_withPool]
    exact h.boundary
  · exact List.forall_mem_cons.mpr ⟨pos, h.positive⟩
  · exact List.forall_mem_cons.mpr ⟨fun p hp => (free hp).1, h.inside⟩
  · refine List.pairwise_cons.mpr ⟨fun b hb p hp mem => ?_, h.apart⟩
    exact (free hp).2 (mem_pagesOf.mpr ⟨b, hb, mem⟩)
  · have booked := h.booked debugger
    rw [pool_eq_counter] at enough
    rw [counter_withPool, charged_cons, pool_eq_counter, ← h.isDebugger]
    split
    · next same =>
      rw [same] at enough ⊢
      dsimp only
      omega
    · omega

/-- A run that is lent can be returned, and the others remain lent. -/
lemma Lent.give (h : Lent x S (b :: runs) l) (kept : x.Keeps S) :
    ∃ l', l.insert b.start (b.past - 1) = .ok l' ∧ Lent x S runs l' := by
  have past_eq : b.past = b.start + b.size := rfl
  have pos := h.positive b List.mem_cons_self
  have size : b.past - 1 - b.start + 1 = b.size := by omega
  have stop : b.past - 1 + 1 = b.past := by omega
  have within : b.past - 1 < l.pageCount := by
    rw [h.pageCount]
    exact kept.within _ (h.inside b List.mem_cons_self _ ⟨by omega, by omega⟩)
  obtain ⟨others, rest_apart⟩ := List.pairwise_cons.mp h.apart
  rcases insert_outcome h.keeps (by omega : b.start ≤ b.past - 1) within with clash | returned
  · obtain ⟨⟨p, low, high, mem⟩, _⟩ := clash
    refine absurd (mem_pagesOf.mpr ⟨b, List.mem_cons_self, low, ?_⟩) (Finset.mem_sdiff.mp mem).2
    omega
  obtain ⟨_, ⟨⟨chain, ok, keeps⟩, _⟩ | ⟨_, full⟩⟩ := returned
  · refine ⟨_, ok, ?_, ?_, ?_, ?_, ?_, rest_apart, fun debugger => ?_⟩
    · have pages : S \ pagesOf runs = S \ pagesOf (b :: runs) ∪ Ico b.start (b.past - 1 + 1) := by
        ext p
        rw [Finset.mem_union, Finset.mem_sdiff, Finset.mem_sdiff, mem_pagesOf, mem_pagesOf,
          List.exists_mem_cons_iff, stop, Finset.mem_Ico]
        constructor
        · rintro ⟨mem, out⟩
          by_cases own : p ∈ b
          · exact Or.inr own
          · exact Or.inl ⟨mem, not_or.mpr ⟨own, out⟩⟩
        · rintro (⟨mem, out⟩ | own)
          · exact ⟨mem, (not_or.mp out).2⟩
          · refine ⟨h.inside b List.mem_cons_self p own, ?_⟩
            rintro ⟨a, ha, mem⟩
            exact others a ha p own mem
      exact pages ▸ keeps
    · rw [pageCount_withPool]
      exact h.pageCount
    · rw [boundary_withPool]
      exact h.boundary
    · exact fun a ha => h.positive a (List.mem_cons_of_mem b ha)
    · exact fun a ha => h.inside a (List.mem_cons_of_mem b ha)
    · have booked := h.booked debugger
      rw [charged_cons, ← h.isDebugger] at booked
      rw [counter_withPool, pool_eq_counter, size]
      split
      · next same =>
        rw [if_pos same] at booked
        rw [same]
        omega
      · next other =>
        rw [if_neg other] at booked
        omega
  -- The pool had room for all that it had before the first run was taken.
  · refine absurd (fun debugger => ?_) full
    have booked : l.debugger + x.charged true (b :: runs) = x.debugger := h.booked true
    have roomy := kept.roomy
    rw [h.isDebugger] at debugger
    rw [charged_cons, if_pos debugger] at booked
    rw [h.pageCount, h.boundary, size]
    omega

lemma Lent.perm (h : Lent x S runs l) (same : order.Perm runs) : Lent x S order l := by
  have mem {b : Block} : b ∈ order ↔ b ∈ runs := same.mem_iff
  have pages : pagesOf order = pagesOf runs := by
    ext p
    rw [mem_pagesOf, mem_pagesOf]
    simp only [mem]
  have charged_eq (debugger : Bool) : x.charged debugger order = x.charged debugger runs :=
    ((same.filter _).map Block.size).sum_eq
  refine ⟨pages ▸ h.keeps, h.pageCount, h.boundary, fun b hb => h.positive b (mem.mp hb),
    fun b hb => h.inside b (mem.mp hb), ?_,
    fun debugger => charged_eq debugger ▸ h.booked debugger⟩
  refine (same.pairwise_iff ?_).mpr h.apart
  exact fun apart p hb ha => apart p ha hb

lemma Takes.lent (h : Takes x runs l) (kept : x.Keeps S) : Lent x S runs l := by
  induction h with
  | refl => exact kept.lent_nil
  | take _ ok ih => exact ih.take ok

lemma Lent.returnAll (h : Lent x S runs l) (kept : x.Keeps S) :
    ∃ l', l.returnAll runs = .ok l' ∧ Lent x S [] l' := by
  induction runs generalizing l with
  | nil => exact ⟨l, rfl, h⟩
  | cons b runs ih =>
    obtain ⟨l₁, ok, rest⟩ := h.give kept
    obtain ⟨l₂, returned, done⟩ := ih rest
    refine ⟨l₂, ?_, done⟩
    rw [FreeList.returnAll, List.foldlM_cons, ok]
    exact returned

/-- A list that has lent nothing is the same again. -/
lemma Lent.settled (h : Lent x S [] l) (kept : x.Keeps S) :
    l.blocks = x.blocks ∧ l.general = x.general ∧ l.debugger = x.debugger := by
  have keeps : l.Keeps S := by
    have := h.keeps
    rwa [pagesOf, List.foldr_nil, Finset.sdiff_empty] at this
  exact ⟨keeps.runs.unique kept.runs, h.booked false, h.booked true⟩

/-- Returning runs that were taken, each as a whole and in any order, undoes the taking of them: the
blocks and both pools are as they were. -/
theorem return_undoes_take (new : IsNew highest boundary S start) (run : Reaches start events x)
    (taken : Takes x runs l) (same : order.Perm runs) :
    ∃ l', l.returnAll order = .ok l' ∧
      l'.blocks = x.blocks ∧ l'.general = x.general ∧ l'.debugger = x.debugger := by
  obtain ⟨kept, _⟩ := run.keeps (new.keeps new.small).1
  obtain ⟨l', ok, done⟩ := ((taken.lent kept).perm same).returnAll kept
  exact ⟨l', ok, done.settled kept⟩

/-- Three runs of sixteen pages, one of them across the debugger's boundary, are returned with the
second one first and the first one last. -/
theorem return_undoes_take_sixteen :
    ∃ start l l', IsNew 15 (some 8) (Finset.range 16) start ∧ Reaches start [] start ∧
      Takes start [⟨4, 2⟩, ⟨6, 4⟩, ⟨13, 3⟩] l ∧
      List.Perm [⟨6, 4⟩, ⟨4, 2⟩, ⟨13, 3⟩] [⟨4, 2⟩, ⟨6, 4⟩, (⟨13, 3⟩ : Block)] ∧
      l.blocks = [⟨0, 4⟩, ⟨10, 3⟩] ∧ l.general = 2 ∧ l.debugger = 5 ∧
      l.returnAll [⟨6, 4⟩, ⟨4, 2⟩, ⟨13, 3⟩] = .ok l' ∧
      l'.blocks = [⟨0, 16⟩] ∧ l'.general = 8 ∧ l'.debugger = 8 := by
  have new : IsNew 15 (some 8) (Finset.range 16)
      ⟨Chain.empty.pushFront ⟨0, 16⟩, 16, some 8, 8, 8⟩ := Or.inr ⟨rfl, rfl⟩
  have first : Takes ⟨Chain.empty.pushFront ⟨0, 16⟩, 16, some 8, 8, 8⟩ [⟨13, 3⟩] _ :=
    .take (r := ⟨3, 0, 0, 15⟩) .refl rfl
  have second : Takes _ [⟨6, 4⟩, ⟨13, 3⟩] _ := .take (r := ⟨4, 2, 6, 9⟩) first rfl
  have third : Takes _ [⟨4, 2⟩, ⟨6, 4⟩, ⟨13, 3⟩] _ := .take (r := ⟨2, 2, 0, 5⟩) second rfl
  have same : List.Perm [⟨6, 4⟩, ⟨4, 2⟩, ⟨13, 3⟩] [⟨4, 2⟩, ⟨6, 4⟩, (⟨13, 3⟩ : Block)] :=
    .swap _ _ _
  obtain ⟨l', ok, blocks, general, debugger⟩ := return_undoes_take new .refl third same
  exact ⟨_, _, l', new, .refl, third, same, rfl, rfl, rfl, ok, blocks, general, debugger⟩

end ConsoleMemory.FreeList
