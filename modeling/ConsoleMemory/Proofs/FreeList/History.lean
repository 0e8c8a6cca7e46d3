import ConsoleMemory.Proofs.FreeList.Charging

/-!
# Histories of a free list

A history records which runs were taken and returned since the start. The set
of free pages is a function of the history alone; the list that carries it out
shows exactly the maximal runs of that set, in ascending order.
-/

namespace ConsoleMemory.FreeList

open Finset (Ico)

/-- What happened to a free list. -/
inductive Event where
  | taken (first count : Nat)
  | returned (first last : Nat)
  /-- Pages of the debugger's pool were charged to the general one. -/
  | recharged (pages : Nat)
deriving DecidableEq, Repr

/-- The free pages after a history, its latest event first, that starts with those of `S`. -/
def pagesAfter (S : Finset Nat) : List Event → Finset Nat
  | [] => S
  | .taken first count :: earlier => pagesAfter S earlier \ Ico first (first + count)
  | .returned first last :: earlier => pagesAfter S earlier ∪ Ico first (last + 1)
  | .recharged _ :: earlier => pagesAfter S earlier

/-- The list is what the calls of a history, none of which aborts, make of `start`. -/
inductive Reaches (start : FreeList) : List Event → FreeList → Prop where
  | refl : Reaches start [] start
  | take {earlier : List Event} {l l' : FreeList} {r : PageRequest} {page : Nat} :
      Reaches start earlier l → r.Legal → l.remove r = .ok (some page, l') →
      Reaches start (.taken page r.count :: earlier) l'
  | refuse {earlier : List Event} {l l' : FreeList} {r : PageRequest} :
      Reaches start earlier l → r.Legal → l.remove r = .ok (none, l') → Reaches start earlier l'
  | put {earlier : List Event} {l l' : FreeList} {first last : Nat} :
      Reaches start earlier l → first ≤ last → last < start.pageCount →
      l.insert first last = .ok l' → Reaches start (.returned first last :: earlier) l'
  | recharge {earlier : List Event} {l l' : FreeList} {pages : Nat} :
      Reaches start earlier l → l.movePages pages = .ok l' →
      Reaches start (.recharged pages :: earlier) l'

/-- A new list for the pages up to `highest`, with none of them free or all. -/
def IsNew (highest : Nat) (boundary : Option Nat) (S : Finset Nat) (l : FreeList) : Prop :=
  empty highest boundary = .ok l ∧ S = ∅ ∨
    full highest boundary = .ok l ∧ S = Finset.range (highest + 1)

variable {highest : Nat} {boundary : Option Nat} {l l' start : FreeList} {r : PageRequest}
  {S : Finset Nat} {events : List Event}

lemma empty_eq (small : highest < 0xFFFFFFFF) :
    empty highest boundary = .ok ⟨.empty, highest + 1, boundary, 0, 0⟩ := by
  rw [empty, checkedAdd_of_lt (by omega)]
  rfl

lemma full_eq (small : highest < 0xFFFFFFFF) :
    full highest boundary = .ok ⟨Chain.empty.pushFront ⟨0, highest + 1⟩, highest + 1, boundary,
      min (highest + 1) (boundary.getD (highest + 1)),
      highest + 1 - min (highest + 1) (boundary.getD (highest + 1))⟩ := by
  rw [full, empty_eq small]
  rfl

lemma IsNew.small (new : IsNew highest boundary S l) :
    highest < 0xFFFFFFFF := by
  by_contra large
  have overflow : checkedAdd highest 1 = .error .overflow := if_neg (by omega)
  have failed : empty highest boundary = .error .overflow := by
    rw [empty, overflow]
    rfl
  rcases new with ⟨ok, _⟩ | ⟨ok, _⟩
  · rw [failed] at ok
    cases ok
  · rw [full, failed] at ok
    cases ok

lemma IsNew.keeps (h : IsNew highest boundary S l) (small : highest < 0xFFFFFFFF) :
    l.Keeps S ∧ l.pageCount = highest + 1 ∧ l.boundary = boundary := by
  rcases h with ⟨new, rfl⟩ | ⟨new, rfl⟩
  · rw [empty_eq small] at new
    cases new
    exact ⟨⟨⟨[], Chain.Holds.empty, Block.Runs.nil⟩, by simp, by dsimp only; omega, rfl,
      Nat.zero_le _⟩, rfl, rfl⟩
  · rw [full_eq small] at new
    cases new
    obtain ⟨slot, holds⟩ :=
      (Chain.Holds.empty (α := Block)).pushFront ⟨0, highest + 1⟩
    refine ⟨⟨⟨_, holds, Block.Runs.singleton (Nat.succ_pos _)⟩, ?_, ?_, ?_, ?_⟩, rfl, rfl⟩
    · exact fun p hp => Finset.mem_range.mp hp
    · dsimp only
      omega
    · rw [Finset.card_range]
      dsimp only
      omega
    · dsimp only
      omega

lemma movePages_eq_ok {pages : Nat} (h : l.movePages pages = .ok l') :
    pages ≤ l.debugger ∧
      l' = { l with debugger := l.debugger - pages, general := l.general + pages } := by
  obtain ⟨enough, h⟩ := require_bind_eq_ok.mp h
  have enough := of_decide_eq_true enough
  unfold checkedAdd at h
  split at h
  · cases h
    exact ⟨enough, rfl⟩
  · cases h

lemma remove_zero (h : r.count = 0) : l.remove r = .ok (none, l) := by
  rw [remove, if_pos h]
  rfl

/-- A request with any other alignment ends the program. -/
lemma legal_of_remove {o : Option Nat} (pos : 0 < r.count) (ok : l.remove r = .ok (o, l')) :
    r.Legal := by
  rw [remove, if_neg (by omega)] at ok
  have legal := (require_bind_eq_ok.mp ok).1
  rw [Bool.or_eq_true, beq_iff_eq] at legal
  exact legal

lemma Keeps.of_remove_some {page : Nat} (h : l.Keeps S) (ok : l.remove r = .ok (some page, l')) :
    0 < r.count ∧ r.Serves S page ∧ l'.Keeps (S \ Ico page (page + r.count)) ∧
      ∃ chain, l' = { l with chain }.withPool page (l.pool page - r.count) ∧
        r.count ≤ l.pool page := by
  rcases Nat.eq_zero_or_pos r.count with zero | pos
  · rw [remove_zero zero] at ok
    cases ok
  have legal := legal_of_remove pos ok
  rcases remove_outcome h pos legal with ⟨_, none⟩ | ⟨page', _, serves, served | short⟩
  · rw [none] at ok
    cases ok
  · obtain ⟨⟨chain, eq, keeps⟩, enough⟩ := served
    rw [eq] at ok
    cases ok
    exact ⟨pos, serves, keeps, chain, rfl, enough⟩
  · rw [short.1] at ok
    cases ok

lemma Keeps.of_remove_none (h : l.Keeps S) (ok : l.remove r = .ok (none, l')) : l' = l := by
  rcases Nat.eq_zero_or_pos r.count with zero | pos
  · rw [remove_zero zero] at ok
    cases ok
    rfl
  have legal := legal_of_remove pos ok
  rcases remove_outcome h pos legal with ⟨_, none⟩ | ⟨_, _, _, ⟨⟨_, eq, _⟩, _⟩ | short⟩
  · rw [none] at ok
    cases ok
    rfl
  · rw [eq] at ok
    cases ok
  · rw [short.1] at ok
    cases ok

lemma Keeps.of_insert {first last : Nat} (h : l.Keeps S) (le : first ≤ last)
    (inside : last < l.pageCount) (ok : l.insert first last = .ok l') :
    (∀ p, first ≤ p → p ≤ last → p ∉ S) ∧ l'.Keeps (S ∪ Ico first (last + 1)) ∧
      ∃ chain, l' = { l with chain }.withPool first (l.pool first + (last - first + 1)) := by
  rcases insert_outcome h le inside with ⟨_, _, _, _, clash⟩ | ⟨disjoint, returned | ⟨⟨_, full⟩, _⟩⟩
  · rw [clash] at ok
    cases ok
  · obtain ⟨⟨chain, eq, keeps⟩, _⟩ := returned
    rw [eq] at ok
    cases ok
    exact ⟨disjoint, keeps, chain, rfl⟩
  · rw [full] at ok
    cases ok

/-- After every history the list keeps the pages that the history leaves free. -/
theorem Reaches.keeps (run : Reaches start events l) (new : start.Keeps S) :
    l.Keeps (pagesAfter S events) ∧ l.pageCount = start.pageCount ∧
      l.boundary = start.boundary := by
  induction run with
  | refl => exact ⟨new, rfl, rfl⟩
  | take _ legal ok ih =>
    obtain ⟨keeps, count, bound⟩ := ih
    obtain ⟨_, _, keeps', chain, rfl, _⟩ := keeps.of_remove_some ok
    exact ⟨keeps', by simpa using count, by simpa using bound⟩
  | refuse _ legal ok ih =>
    obtain ⟨keeps, count, bound⟩ := ih
    cases keeps.of_remove_none ok
    exact ⟨keeps, count, bound⟩
  | put _ le inside ok ih =>
    obtain ⟨keeps, count, bound⟩ := ih
    obtain ⟨_, keeps', chain, rfl⟩ := keeps.of_insert le (count ▸ inside) ok
    exact ⟨keeps', by simpa using count, by simpa using bound⟩
  | recharge _ ok ih =>
    obtain ⟨keeps, count, bound⟩ := ih
    obtain ⟨enough, rfl⟩ := movePages_eq_ok ok
    have balanced := keeps.balanced
    have roomy := keeps.roomy
    exact ⟨⟨keeps.tiles, keeps.within, keeps.bounded, by dsimp only [pagesAfter]; omega,
      by dsimp only; omega⟩, count, bound⟩

/-- The blocks are the maximal runs of `S`, each once and in ascending order. -/
def Lists (blocks : List Block) (S : Finset Nat) : Prop :=
  blocks.Pairwise (fun a b => a.past < b.start) ∧ ∀ b, b ∈ blocks ↔ b.IsMaximal S

lemma Keeps.lists (h : l.Keeps S) : Lists l.blocks S :=
  ⟨h.runs.apart, fun _ => h.runs.mem_iff_isMaximal⟩

lemma Keeps.remove_of_no_boundary (h : l.Keeps S) (none : l.boundary = none) (legal : r.Legal) :
    ∃ answer, l.remove r = .ok answer := by
  rcases Nat.eq_zero_or_pos r.count with zero | pos
  · exact ⟨_, remove_zero zero⟩
  rcases remove_outcome h pos legal with ⟨_, refused⟩ | ⟨page, _, serves, ⟨⟨_, eq, _⟩, _⟩ | short⟩
  · exact ⟨_, refused⟩
  · exact ⟨_, eq⟩
  -- A single pool has all free pages, so it cannot lack those of a run that is free.
  · have roomy := h.roomy
    have balanced := h.balanced
    have enough := (Keeps.card_withdrawn serves.free).2
    have pool : l.pool page = l.general := by simp [FreeList.pool, isDebugger, none]
    rw [none, Option.getD_none] at roomy
    omega

lemma Keeps.insert_of_no_boundary (h : l.Keeps S) (none : l.boundary = none) {first last : Nat}
    (le : first ≤ last) (inside : last < l.pageCount)
    (disjoint : ∀ p, first ≤ p → p ≤ last → p ∉ S) :
    ∃ l', l.insert first last = .ok l' := by
  rcases insert_outcome h le inside with ⟨⟨p, hp, hp', mem⟩, _⟩ | ⟨_, returned | ⟨_, full⟩⟩
  · exact absurd mem (disjoint p hp hp')
  · obtain ⟨⟨_, eq, _⟩, _⟩ := returned
    exact ⟨_, eq⟩
  · refine absurd (fun debugger => ?_) full
    simp [isDebugger, none] at debugger

/-- A free list refines a set of pages, over every history of calls that do not abort. -/
theorem reaches_refines_pages (small : highest < 0xFFFFFFFF) :
    (∃ l, IsNew highest boundary ∅ l) ∧
      (∃ l, IsNew highest boundary (Finset.range (highest + 1)) l) ∧
      ∀ start S, IsNew highest boundary S start →
        ∀ events l, Reaches start events l →
          Lists l.blocks (pagesAfter S events) ∧
          l.general + l.debugger = (pagesAfter S events).card ∧
          (∀ first last l', first ≤ last → last ≤ highest → l.insert first last = .ok l' →
            (∀ p, first ≤ p → p ≤ last → p ∉ pagesAfter S events) ∧
              Lists l'.blocks (pagesAfter S events ∪ Ico first (last + 1))) ∧
          (∀ r page l', r.Legal → l.remove r = .ok (some page, l') →
            (∀ p, page ≤ p → p < page + r.count →
              p ∈ pagesAfter S events ∧ r.first ≤ p ∧ p ≤ r.last) ∧
            (r.alignment ≠ 0 → r.alignment ∣ page) ∧
            Lists l'.blocks (pagesAfter S events \ Ico page (page + r.count))) ∧
          (∀ r l', r.Legal → l.remove r = .ok (none, l') → l' = l) ∧
          (boundary = none →
            (∀ r, r.Legal → ∃ answer, l.remove r = .ok answer) ∧
            ∀ first last, first ≤ last → last ≤ highest →
              (∀ p, first ≤ p → p ≤ last → p ∉ pagesAfter S events) →
              ∃ l', l.insert first last = .ok l') := by
  refine ⟨⟨_, Or.inl ⟨empty_eq small, rfl⟩⟩, ⟨_, Or.inr ⟨full_eq small, rfl⟩⟩, ?_⟩
  intro start S new events l run
  obtain ⟨new_keeps, new_count, new_bound⟩ := new.keeps small
  obtain ⟨keeps, count, bound⟩ := run.keeps new_keeps
  have inside : ∀ {last : Nat}, last ≤ highest → last < l.pageCount := fun le => by omega
  refine ⟨keeps.lists, keeps.balanced, ?_, ?_, ?_, ?_⟩
  · intro first last l' le within ok
    obtain ⟨disjoint, keeps', _⟩ := keeps.of_insert le (inside within) ok
    exact ⟨disjoint, keeps'.lists⟩
  · intro r page l' legal ok
    obtain ⟨_, serves, keeps', _⟩ := keeps.of_remove_some ok
    refine ⟨fun p hp hp' => ⟨serves.free p hp hp', ?_, ?_⟩, ?_, keeps'.lists⟩
    · exact Nat.le_trans serves.first hp
    · have := serves.last
      omega
    · intro aligned
      have step : r.step = r.alignment := Nat.max_eq_left (Nat.pos_of_ne_zero aligned)
      exact step ▸ serves.aligned
  · intro r l' legal ok
    exact keeps.of_remove_none ok
  · intro none
    have none' : l.boundary = .none := bound.trans (new_bound.trans none)
    exact ⟨fun r legal => keeps.remove_of_no_boundary none' legal,
      fun first last le within => keeps.insert_of_no_boundary none' le (inside within)⟩

/-- A run across the boundary is taken and its lower half returned. -/
theorem reaches_refines_pages_sixteen :
    ∃ start l, 15 < 0xFFFFFFFF ∧ IsNew 15 (some 8) (Finset.range 16) start ∧
      Reaches start [.returned 6 7, .taken 6 4] l ∧ l.blocks = [⟨0, 8⟩, ⟨10, 6⟩] ∧
      Lists l.blocks (pagesAfter (Finset.range 16) [.returned 6 7, .taken 6 4]) := by
  have new : IsNew 15 (some 8) (Finset.range 16)
      ⟨Chain.empty.pushFront ⟨0, 16⟩, 16, some 8, 8, 8⟩ := Or.inr ⟨rfl, rfl⟩
  have taken : Reaches ⟨Chain.empty.pushFront ⟨0, 16⟩, 16, some 8, 8, 8⟩ [.taken 6 4] _ :=
    .take (r := ⟨4, 2, 6, 9⟩) .refl (Or.inr rfl) rfl
  have run : Reaches _ [.returned 6 7, .taken 6 4] _ := .put taken (by decide) (by decide) rfl
  exact ⟨_, _, by decide, new, run, rfl,
    ((reaches_refines_pages (by decide)).2.2 _ _ new _ _ run).1⟩

end ConsoleMemory.FreeList
