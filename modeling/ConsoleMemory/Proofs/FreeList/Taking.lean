import ConsoleMemory.FreeList.Basic
import ConsoleMemory.Proofs.FreeList.Links
import ConsoleMemory.Proofs.FreeList.Runs

/-!
# Taking pages

A free list keeps a set of pages: its chain holds the maximal runs of the set
and its two counters add up to the number of pages. A request takes a run that
lies in the set, or leaves the list alone where no block has room. A request
for whole steps is placed as high as it fits (`PageRequest.spot?_highest`).
-/

namespace ConsoleMemory

open Finset (Ico)

lemma checkedAdd_of_lt {a b : Nat} (h : a + b < 0x100000000) : checkedAdd a b = .ok (a + b) :=
  if_pos h

lemma checkedSub_of_le {a b : Nat} (h : b ≤ a) : checkedSub a b = .ok (a - b) := if_pos h

lemma Block.last_eq {b : Block} (pos : 0 < b.size) (bounded : b.past < 0x100000000) :
    b.last = .ok (b.past - 1) := by
  have sum : checkedAdd b.start b.size = .ok b.past := checkedAdd_of_lt bounded
  rw [Block.last, sum]
  exact checkedSub_of_le (by simp only [past]; omega)

namespace PageRequest

/-- Alignments are powers of two, or zero for none. -/
def Legal (r : PageRequest) : Prop := r.alignment = 0 ∨ isPowerOfTwo r.alignment = true

/-- The run of the request can start at page `t` of the block. -/
structure Fits (r : PageRequest) (b : Block) (t : Nat) : Prop where
  start : b.start ≤ t
  stop : t + r.count ≤ b.past
  first : r.first ≤ t
  last : t + r.count ≤ r.last + 1
  aligned : r.step ∣ t

/-- The run of the request that starts at page `t` lies in `S` and in the range asked for. -/
structure Serves (r : PageRequest) (S : Finset Nat) (t : Nat) : Prop where
  free : ∀ p, t ≤ p → p < t + r.count → p ∈ S
  first : r.first ≤ t
  last : t + r.count ≤ r.last + 1
  aligned : r.step ∣ t

variable {r : PageRequest} {b : Block} {t : Nat}

lemma step_pos (r : PageRequest) : 0 < r.step :=
  Nat.lt_of_lt_of_le Nat.one_pos (Nat.le_max_right _ _)

lemma count_le_rounded (r : PageRequest) : r.count ≤ r.rounded := by
  have pos := r.step_pos
  have := Nat.lt_div_mul_add (a := r.count + (r.step - 1)) pos
  simp only [rounded]
  omega

lemma rounded_of_dvd (h : r.step ∣ r.count) : r.rounded = r.count := by
  obtain ⟨k, hk⟩ := h
  have pos := r.step_pos
  have : (r.step * k + (r.step - 1)) / r.step = k := by
    rw [Nat.mul_add_div pos, Nat.div_eq_of_lt (by omega), Nat.add_zero]
  rw [rounded, hk, this, Nat.mul_comm]

/-- Where the request is placed in a block: as high as whole steps below the end allow. -/
def spot? (r : PageRequest) (b : Block) : Option Nat :=
  let high := min (b.past - 1) r.last
  let top := (high + 1) / r.step * r.step
  if b.size < r.count ∨ high < max b.start r.first ∨ high - max b.start r.first + 1 < r.count ∨
      top < max b.start r.first + r.rounded then none
  else some (top - r.rounded)

theorem place?_eq (pos : 0 < r.count) (bounded : b.past < 0x100000000) :
    r.place? b = .ok (r.spot? b) := by
  unfold place? spot?
  by_cases small : b.size < r.count
  · simp [small]
    rfl
  · rw [Block.last_eq (by omega) bounded]
    simp only [small, if_false, false_or, bind, Except.bind, pure, Except.pure]
    split
    · next h =>
      rw [if_pos]
      simp only [Bool.or_eq_true, decide_eq_true_eq] at h
      omega
    · next h =>
      simp only [Bool.or_eq_true, decide_eq_true_eq, not_or] at h
      split
      · next lt => rw [if_pos (by omega)]
      · next ge => rw [if_neg (by omega)]

theorem fits_of_spot? (pos : 0 < r.count) (h : r.spot? b = some t) : r.Fits b t := by
  unfold spot? at h
  dsimp only at h
  have size : b.past = b.start + b.size := rfl
  have below := Nat.div_mul_le_self (min (b.past - 1) r.last + 1) r.step
  have rounding := r.count_le_rounded
  split at h
  · cases h
  · next ok =>
    cases h
    refine ⟨by omega, by omega, by omega, by omega, ?_⟩
    exact Nat.dvd_sub (Nat.dvd_mul_left _ _) (Nat.dvd_mul_left _ _)

/-- A request for whole steps is placed as high as it fits. -/
theorem spot?_highest (pos : 0 < r.count) (whole : r.step ∣ r.count) (fits : r.Fits b t) :
    ∃ t', r.spot? b = some t' ∧ t ≤ t' := by
  obtain ⟨start, stop, first, last, aligned⟩ := fits
  have size : b.past = b.start + b.size := rfl
  have le_top : t + r.count ≤ (min (b.past - 1) r.last + 1) / r.step * r.step := by
    obtain ⟨k, hk⟩ := Nat.dvd_add aligned whole
    rw [hk, Nat.mul_comm r.step k]
    refine Nat.mul_le_mul_right _ ((Nat.le_div_iff_mul_le r.step_pos).mpr ?_)
    rw [Nat.mul_comm k, ← hk]
    omega
  refine ⟨_, if_neg ?_, ?_⟩
  · rw [rounded_of_dvd whole]
    omega
  · rw [rounded_of_dvd whole]
    omega

lemma Legal.step_eq_pow (h : r.Legal) : ∃ k, r.step = 2 ^ k := by
  rcases h with zero | power
  · exact ⟨0, by rw [step, zero]; rfl⟩
  · have power' : r.alignment ≠ 0 ∧ r.alignment &&& (r.alignment - 1) = 0 := by
      simpa [isPowerOfTwo] using power
    obtain ⟨k, hk⟩ := Nat.ne_zero_and_sub_one_eq_zero_iff_isPowerOfTwo.mp power'
    exact ⟨k, by rw [step, Nat.max_eq_left (Nat.pos_of_ne_zero power'.1), hk]⟩

/-- A request whose whole steps pass the largest page number fits no block. -/
lemma spot?_eq_none_of_huge (pos : 0 < r.count) (legal : r.Legal)
    (huge : 0x100000000 ≤ r.count + (r.step - 1)) (bounded : b.past < 0x100000000) :
    r.spot? b = none := by
  have rounded : 0x100000000 ≤ r.rounded := by
    obtain ⟨k, step⟩ := legal.step_eq_pow
    rcases Nat.le_total k 32 with le | le
    · obtain ⟨m, hm⟩ : r.step ∣ 0x100000000 := step ▸ Nat.pow_dvd_pow 2 le
      have := Nat.div_le_div_right (c := r.step) huge
      rw [hm, Nat.mul_div_cancel_left m r.step_pos] at this
      have := Nat.mul_le_mul_right r.step this
      rwa [Nat.mul_comm m, ← hm] at this
    · have one : 1 ≤ (r.count + (r.step - 1)) / r.step :=
        (Nat.one_le_div_iff r.step_pos).mpr (by omega)
      have := Nat.mul_le_mul_right r.step one
      have := Nat.pow_le_pow_right Nat.two_pos le
      simp only [PageRequest.rounded]
      omega
  have size : b.past = b.start + b.size := rfl
  have below := Nat.div_mul_le_self (min (b.past - 1) r.last + 1) r.step
  refine if_pos ?_
  omega

lemma Fits.serves {S : Finset Nat} (h : r.Fits b t) (inside : ∀ p ∈ b, p ∈ S) :
    r.Serves S t := by
  refine ⟨fun p hp hp' => inside p ⟨Nat.le_trans h.start hp, ?_⟩, h.first, h.last, h.aligned⟩
  exact Nat.lt_of_lt_of_le hp' h.stop

end PageRequest

/-- The chain holds the maximal runs of `S`. -/
def Tiles (c : Chain Block) (S : Finset Nat) : Prop :=
  ∃ entries, c.Holds entries ∧ Block.Runs (entries.map Prod.snd) S

namespace FreeList

variable {l : FreeList} {r : PageRequest} {S : Finset Nat}

/-- The pages of `S`, all of them pages of the memory, are free and accounted for. -/
structure Keeps (l : FreeList) (S : Finset Nat) : Prop where
  tiles : Tiles l.chain S
  within : ∀ p ∈ S, p < l.pageCount
  bounded : l.pageCount < 0x100000000
  balanced : l.general + l.debugger = S.card
  /-- The debugger's pool never outgrows its part of the memory. -/
  roomy : l.debugger ≤ l.pageCount - l.boundary.getD l.pageCount

lemma Keeps.runs (h : l.Keeps S) : Block.Runs l.blocks S := by
  obtain ⟨entries, holds, runs⟩ := h.tiles
  rwa [blocks, holds.toList_eq]

lemma Keeps.past_le (h : l.Keeps S) {b : Block} (hb : b ∈ l.blocks) : b.past ≤ l.pageCount := by
  have pos := h.runs.positive b hb
  have last : b.past - 1 ∈ S :=
    (h.runs.isMaximal hb).inside _ ⟨by simp only [Block.past]; omega, by
      simp only [Block.past]
      omega⟩
  have := h.within _ last
  omega

lemma search_eq {entries : List (Nat × Block)} (pos : 0 < r.count)
    (item : ∀ e ∈ entries, l.chain.item? e.1 = some e.2)
    (bounded : ∀ e ∈ entries, e.2.past < 0x100000000) :
    l.search r (entries.map Prod.fst) = .ok none ∧ (∀ e ∈ entries, r.spot? e.2 = none) ∨
      ∃ before e after page, entries = before ++ e :: after ∧ r.spot? e.2 = some page ∧
        (∀ d ∈ before, r.spot? d.2 = none) ∧
        l.search r (entries.map Prod.fst) = .ok (some (e.1, e.2, page)) := by
  induction entries with
  | nil => exact Or.inl ⟨rfl, nofun⟩
  | cons e rest ih =>
    have step : l.search r ((e :: rest).map Prod.fst) =
        (r.spot? e.2).elim (l.search r (rest.map Prod.fst))
          fun page => .ok (some (e.1, e.2, page)) := by
      rw [List.map_cons, search, item e List.mem_cons_self]
      simp only [PageRequest.place?_eq pos (bounded e List.mem_cons_self)]
      cases r.spot? e.2 <;> rfl
    cases spot : r.spot? e.2 with
    | some page => exact Or.inr ⟨[], e, rest, page, rfl, spot, nofun, by rw [step, spot]; rfl⟩
    | none =>
      rw [step, spot, Option.elim_none]
      rcases ih (fun d hd => item d (List.mem_cons_of_mem e hd))
        (fun d hd => bounded d (List.mem_cons_of_mem e hd)) with ⟨found, none_fit⟩ | found
      · refine Or.inl ⟨found, ?_⟩
        intro d hd
        rcases List.mem_cons.mp hd with rfl | hd
        · exact spot
        · exact none_fit d hd
      · obtain ⟨before, d, after, page, rfl, fits, none_fit, found⟩ := found
        refine Or.inr ⟨e :: before, d, after, page, rfl, fits, ?_, found⟩
        intro a ha
        rcases List.mem_cons.mp ha with rfl | ha
        · exact spot
        · exact none_fit a ha

lemma carve_holds {c : Chain Block} {before after : List (Nat × Block)} {slot : Nat} {b : Block}
    (h : c.Holds (before ++ (slot, b) :: after)) (page count : Nat) :
    ∃ entries, (carve c slot b page count).Holds entries ∧
      entries.map Prod.snd =
        before.map Prod.snd ++ b.without page count ++ after.map Prod.snd := by
  unfold carve Block.without
  have past_eq : b.start + b.size = b.past := rfl
  simp only [Nat.sub_pos_iff_lt, past_eq]
  by_cases below : b.start < page
  · rw [if_pos below, if_pos below]
    have kept := h.setItem ⟨b.start, page - b.start⟩
    by_cases above : page + count < b.past
    · rw [if_pos above, if_pos above]
      obtain ⟨new, h'⟩ := kept.insertAfter ⟨page + count, b.past - (page + count)⟩
      exact ⟨_, h', by simp⟩
    · rw [if_neg above, if_neg above]
      exact ⟨_, kept, by simp⟩
  · rw [if_neg below, if_neg below]
    by_cases above : page + count < b.past
    · rw [if_pos above, if_pos above]
      exact ⟨_, h.setItem _, by simp⟩
    · rw [if_neg above, if_neg above]
      exact ⟨_, h.unlink, by simp⟩

/-- The page at which the list serves the request: in the highest block that has room. -/
def choice? (l : FreeList) (r : PageRequest) : Option Nat := l.blocks.reverse.findSome? r.spot?

/-- A request for whole steps is served at the highest page at which it can be. -/
theorem choice?_highest (h : l.Keeps S) (pos : 0 < r.count) (whole : r.step ∣ r.count) {t : Nat}
    (serves : r.Serves S t) : ∃ page, l.choice? r = some page ∧ t ≤ page := by
  obtain ⟨b, hb, start, stop⟩ := h.runs.exists_block pos serves.free
  obtain ⟨t', spot, le⟩ :=
    PageRequest.spot?_highest pos whole ⟨start, stop, serves.first, serves.last, serves.aligned⟩
  cases choice : l.choice? r with
  | none =>
    have none_fit := List.findSome?_eq_none_iff.mp choice b (List.mem_reverse.mpr hb)
    rw [spot] at none_fit
    cases none_fit
  | some page =>
    refine ⟨page, rfl, ?_⟩
    obtain ⟨above, d, below, order, chosen, none_fit⟩ := List.findSome?_eq_some_iff.mp choice
    have mem : b ∈ above ++ d :: below := by
      rw [← order]
      exact List.mem_reverse.mpr hb
    rcases List.mem_append.mp mem with higher | mem
    · have none_fit := none_fit b higher
      rw [spot] at none_fit
      cases none_fit
    rcases List.mem_cons.mp mem with rfl | lower
    · cases spot.symm.trans chosen
      exact le
    · have apart := h.runs.apart
      rw [← List.pairwise_reverse, order] at apart
      have apart := List.rel_of_pairwise_cons (List.pairwise_append.mp apart).2.1 lower
      have fits := PageRequest.fits_of_spot? pos chosen
      have := fits.start
      omega

/-- A request is refused where no block has room; otherwise a run leaves the set, provided its pool
can answer for it. -/
theorem remove_cases (h : l.Keeps S) (pos : 0 < r.count) (legal : r.Legal) :
    l.choice? r = none ∧ l.remove r = .ok (none, l) ∨
      ∃ page chain, l.choice? r = some page ∧ r.Serves S page ∧
        Tiles chain (S \ Ico page (page + r.count)) ∧
        l.remove r = do
          return (some page, ← { l with chain }.discharge page r.count) := by
  obtain ⟨entries, holds, runs⟩ := h.tiles
  have blocks_eq : l.blocks = entries.map Prod.snd := holds.toList_eq
  have choice_eq : l.choice? r = entries.reverse.findSome? fun e => r.spot? e.2 := by
    rw [choice?, blocks_eq, ← List.map_reverse, List.findSome?_map]
    rfl
  have legal' : (r.alignment == 0 || isPowerOfTwo r.alignment) = true := by
    rcases legal with zero | power
    · simp [zero]
    · simp [power]
  have item : ∀ e ∈ entries.reverse, l.chain.item? e.1 = some e.2 := fun e he =>
    holds.item e (List.mem_reverse.mp he)
  have bounded : ∀ e ∈ entries.reverse, e.2.past < 0x100000000 := by
    intro e he
    have mem : e.2 ∈ l.blocks := by
      rw [blocks_eq]
      exact List.mem_map_of_mem (List.mem_reverse.mp he)
    exact Nat.lt_of_le_of_lt (h.past_le mem) h.bounded
  unfold remove
  rw [if_neg (by omega), legal', choice_eq]
  simp only [require, if_true, bind, Except.bind]
  by_cases huge : 0x100000000 ≤ r.count + (r.step - 1)
  · refine Or.inl ⟨List.findSome?_eq_none_iff.mpr fun e he => ?_, if_pos huge⟩
    exact PageRequest.spot?_eq_none_of_huge pos legal huge (bounded e he)
  rw [if_neg huge, holds.backward_eq, ← List.map_reverse]
  rcases search_eq pos item bounded with ⟨found, none_fit⟩ | found
  · rw [found]
    exact Or.inl ⟨List.findSome?_eq_none_iff.mpr none_fit, rfl⟩
  obtain ⟨above, ⟨slot, b⟩, below, page, split, spot, none_above, found⟩ := found
  have order : entries = below.reverse ++ (slot, b) :: above.reverse := by
    rw [← List.reverse_reverse entries, split]
    simp
  rw [order] at holds
  have runs' : Block.Runs (below.reverse.map Prod.snd ++ b :: above.reverse.map Prod.snd) S := by
    rw [order] at runs
    simpa using runs
  have fits := PageRequest.fits_of_spot? pos spot
  obtain ⟨entries', holds', items'⟩ := carve_holds holds page r.count
  refine Or.inr ⟨page, carve l.chain slot b page r.count, ?_, ?_, ⟨entries', holds', ?_⟩, ?_⟩
  · exact List.findSome?_eq_some_iff.mpr ⟨above, (slot, b), below, split, spot, none_above⟩
  · exact fits.serves (runs'.isMaximal (by simp)).inside
  · rw [items']
    exact runs'.withdraw pos fits.start fits.stop
  · rw [found]

end FreeList

end ConsoleMemory
