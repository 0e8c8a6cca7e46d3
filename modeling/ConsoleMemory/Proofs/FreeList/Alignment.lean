import Mathlib.Order.Bounds.Basic
import ConsoleMemory.Proofs.FreeList.History

/-!
# What an aligned request finds

A list sets whole steps aside below an aligned end, however few pages are asked
for. It therefore finds for a request what it would find for one with the count
rounded up to whole steps: a run of the count alone, aligned and free, may be
refused.
-/

namespace ConsoleMemory

open Finset (Ico)

namespace PageRequest

/-- The request for whole steps, with the count rounded up. -/
def wholeSteps (r : PageRequest) : PageRequest := { r with count := r.rounded }

variable {r : PageRequest} {b : Block} {S : Finset Nat} {page t : Nat}

lemma step_dvd_count_wholeSteps (r : PageRequest) : r.wholeSteps.step ∣ r.wholeSteps.count :=
  Nat.dvd_mul_left _ _

lemma wholeSteps_of_dvd (whole : r.step ∣ r.count) : r.wholeSteps = r := by
  rw [wholeSteps, rounded_of_dvd whole]

/-- The place of a request in a block has whole steps above it. -/
lemma spot?_wholeSteps (pos : 0 < r.count) : r.wholeSteps.spot? b = r.spot? b := by
  have same : r.wholeSteps.rounded = r.rounded := rounded_of_dvd r.step_dvd_count_wholeSteps
  have le := r.count_le_rounded
  have below := Nat.div_mul_le_self (min (b.past - 1) r.last + 1) r.step
  have size : b.past = b.start + b.size := rfl
  unfold spot?
  rw [same]
  simp only [wholeSteps, step] at *
  refine if_congr ?_ rfl rfl
  omega

end PageRequest

namespace FreeList

variable {highest : Nat} {l start : FreeList} {r : PageRequest} {S : Finset Nat}
  {events : List Event}

lemma choice?_wholeSteps (l : FreeList) (pos : 0 < r.count) :
    l.choice? r.wholeSteps = l.choice? r := by
  have same : r.wholeSteps.spot? = r.spot? := funext fun _ => PageRequest.spot?_wholeSteps pos
  rw [choice?, choice?, same]

/-- The list serves a request for whole steps at a page where it can be served. -/
lemma Keeps.serves_of_choice? {page : Nat} (h : l.Keeps S) (pos : 0 < r.count)
    (chosen : l.choice? r = some page) : r.Serves S page := by
  obtain ⟨b, hb, spot⟩ := List.exists_of_findSome?_eq_some chosen
  have maximal := h.runs.isMaximal (List.mem_reverse.mp hb)
  exact (PageRequest.fits_of_spot? pos spot).serves maximal.inside

/-- The list chooses the highest page at which it can serve the request for whole steps. -/
theorem Keeps.choice?_eq_some_iff {page : Nat} (h : l.Keeps S) (pos : 0 < r.count) :
    l.choice? r = some page ↔ IsGreatest {t | r.wholeSteps.Serves S t} page := by
  have pos' : 0 < r.wholeSteps.count := Nat.lt_of_lt_of_le pos r.count_le_rounded
  have highest {t : Nat} (serves : r.wholeSteps.Serves S t) :=
    choice?_highest h pos' r.step_dvd_count_wholeSteps serves
  rw [← choice?_wholeSteps l pos]
  constructor
  · intro chosen
    refine ⟨h.serves_of_choice? pos' chosen, fun t serves => ?_⟩
    obtain ⟨page', chosen', le⟩ := highest serves
    cases chosen.symm.trans chosen'
    exact le
  · rintro ⟨serves, upper⟩
    obtain ⟨page', chosen', le⟩ := highest serves
    have ge := upper (h.serves_of_choice? pos' chosen')
    rw [chosen', Nat.le_antisymm ge le]

theorem Keeps.choice?_eq_none_iff (h : l.Keeps S) (pos : 0 < r.count) :
    l.choice? r = none ↔ ∀ t, ¬ r.wholeSteps.Serves S t := by
  have pos' : 0 < r.wholeSteps.count := Nat.lt_of_lt_of_le pos r.count_le_rounded
  rw [← choice?_wholeSteps l pos]
  constructor
  · intro none t serves
    obtain ⟨_, chosen, _⟩ := choice?_highest h pos' r.step_dvd_count_wholeSteps serves
    rw [none] at chosen
    cases chosen
  · intro unserved
    cases chosen : l.choice? r.wholeSteps with
    | none => rfl
    | some page => exact absurd (h.serves_of_choice? pos' chosen) (unserved page)

/-- A list with one pool gives the highest aligned page from which on the count, rounded up to whole
steps, is free in the range, and nothing where there is none. -/
theorem remove_serves_whole_steps (new : IsNew highest none S start)
    (run : Reaches start events l) (legal : r.Legal) (pos : 0 < r.count) :
    ∃ answer l', l.remove r = .ok (answer, l') ∧
      (∀ page, answer = some page ↔
        IsGreatest {t | r.wholeSteps.Serves (pagesAfter S events) t} page) ∧
      (answer = none ↔ ∀ t, ¬ r.wholeSteps.Serves (pagesAfter S events) t) ∧
      (r.step ∣ r.count → (answer = none ↔ ∀ t, ¬ r.Serves (pagesAfter S events) t)) := by
  obtain ⟨new_keeps, _, new_bound⟩ := new.keeps new.small
  obtain ⟨keeps, _, bound⟩ := run.keeps new_keeps
  obtain ⟨⟨answer, l'⟩, ok⟩ := keeps.remove_of_no_boundary (bound.trans new_bound) legal
  have chosen : l.choice? r = answer := by
    rcases remove_outcome keeps pos legal with ⟨none, refused⟩ | ⟨page, some, _, served | short⟩
    · cases refused.symm.trans ok
      exact none
    · obtain ⟨⟨_, taken, _⟩, _⟩ := served
      cases taken.symm.trans ok
      exact some
    · cases short.1.symm.trans ok
  refine ⟨answer, l', ok, fun page => ?_, ?_, fun whole => ?_⟩
  · rw [← chosen]
    exact keeps.choice?_eq_some_iff pos
  · rw [← chosen]
    exact keeps.choice?_eq_none_iff pos
  · rw [← chosen, keeps.choice?_eq_none_iff pos, PageRequest.wholeSteps_of_dvd whole]

/-- Two pages at a multiple of four are refused where only those two are in the range. -/
theorem remove_serves_whole_steps_sixteen :
    ∃ start answer l', IsNew 15 none (Finset.range 16) start ∧ Reaches start [] start ∧
      PageRequest.Legal ⟨2, 4, 4, 5⟩ ∧ start.remove ⟨2, 4, 4, 5⟩ = .ok (answer, l') ∧
      (answer = none ↔ ∀ t, ¬ PageRequest.Serves ⟨4, 4, 4, 5⟩ (Finset.range 16) t) := by
  have new : IsNew 15 none (Finset.range 16) ⟨Chain.empty.pushFront ⟨0, 16⟩, 16, none, 16, 0⟩ :=
    Or.inr ⟨rfl, rfl⟩
  obtain ⟨answer, l', ok, _, refused, _⟩ :=
    remove_serves_whole_steps new .refl (r := ⟨2, 4, 4, 5⟩) (Or.inr rfl) (by decide)
  exact ⟨_, answer, l', new, .refl, Or.inr rfl, ok, refused⟩

/-- A run that is aligned, free and inside the range is not always found: the whole step that is
set aside below the end of the range would begin below its start. -/
theorem aligned_run_refused_sixteen :
    ∃ start, IsNew 15 none (Finset.range 16) start ∧ Reaches start [] start ∧
      PageRequest.Legal ⟨2, 4, 4, 5⟩ ∧
      PageRequest.Serves ⟨2, 4, 4, 5⟩ (pagesAfter (Finset.range 16) []) 4 ∧
      start.remove ⟨2, 4, 4, 5⟩ = .ok (none, start) := by
  refine ⟨⟨Chain.empty.pushFront ⟨0, 16⟩, 16, none, 16, 0⟩, Or.inr ⟨rfl, rfl⟩, .refl, Or.inr rfl,
    ⟨fun p low high => ?_, by decide, by decide, by decide⟩, rfl⟩
  exact Finset.mem_range.mpr (Nat.lt_trans high (by decide))

/-- The run of the request that starts at page `t` is aligned, free in the list and inside the range
asked for. -/
structure Offers (l : FreeList) (r : PageRequest) (t : Nat) : Prop where
  free : ∀ p, t ≤ p → p < t + r.count → p ∈ l ∧ r.first ≤ p ∧ p ≤ r.last
  aligned : r.alignment ≠ 0 → r.alignment ∣ t

lemma Keeps.offers_iff {t : Nat} (h : l.Keeps S) (pos : 0 < r.count) :
    l.Offers r t ↔ r.Serves S t := by
  constructor
  · rintro ⟨free, aligned⟩
    have stop := (free (t + r.count - 1) (by omega) (by omega)).2.2
    refine ⟨fun p low high => (h.runs.mem p).mpr (free p low high).1,
      (free t le_rfl (by omega)).2.1, by omega, ?_⟩
    rcases Nat.eq_zero_or_pos r.alignment with none | some
    · rw [PageRequest.step, none]
      exact Nat.one_dvd t
    · rw [PageRequest.step, Nat.max_eq_left some]
      exact aligned (by omega)
  · intro serves
    have first := serves.first
    have last := serves.last
    refine ⟨fun p low high => ⟨(h.runs.mem p).mp (serves.free p low high), by omega, by omega⟩,
      fun some => ?_⟩
    have step : r.step = r.alignment := Nat.max_eq_left (Nat.pos_of_ne_zero some)
    exact step ▸ serves.aligned

/-- A request for whole steps gets the highest run on offer: over all blocks of a list with one
pool, not just in the block that the search meets first. -/
theorem remove_takes_highest {t : Nat} (new : IsNew highest none S start)
    (run : Reaches start events l) (pos : 0 < r.count)
    (whole : r.alignment = 0 ∨ isPowerOfTwo r.alignment = true ∧ r.alignment ∣ r.count)
    (offered : l.Offers r t) :
    ∃ page l', l.remove r = .ok (some page, l') ∧ IsGreatest {t | l.Offers r t} page := by
  obtain ⟨new_keeps, _, new_bound⟩ := new.keeps new.small
  obtain ⟨keeps, _, bound⟩ := run.keeps new_keeps
  have legal : r.Legal := whole.imp_right And.left
  have step_dvd : r.step ∣ r.count := by
    rcases whole with none | ⟨power, dvd⟩
    · rw [PageRequest.step, none]
      exact Nat.one_dvd r.count
    · have positive : 0 < r.alignment := Nat.pos_of_ne_zero fun zero => by
        rw [zero] at power
        exact absurd power (by decide)
      rw [PageRequest.step, Nat.max_eq_left positive]
      exact dvd
  have offers_eq : {t | l.Offers r t} = {t | r.wholeSteps.Serves (pagesAfter S events) t} := by
    rw [PageRequest.wholeSteps_of_dvd step_dvd]
    exact Set.ext fun t => keeps.offers_iff pos
  obtain ⟨⟨answer, l'⟩, ok⟩ := keeps.remove_of_no_boundary (bound.trans new_bound) legal
  rcases remove_outcome keeps pos legal with ⟨unserved, _⟩ | ⟨page, chosen, _, served | short⟩
  · have refused := (keeps.choice?_eq_none_iff pos).mp unserved t
    rw [PageRequest.wholeSteps_of_dvd step_dvd] at refused
    exact absurd ((keeps.offers_iff pos).mp offered) refused
  · obtain ⟨⟨_, taken, _⟩, _⟩ := served
    exact ⟨page, _, taken, offers_eq ▸ (keeps.choice?_eq_some_iff pos).mp chosen⟩
  · cases short.1.symm.trans ok

/-- Of sixteen pages, four are taken out of the middle; two aligned pages of the first eleven are
then found at the end of the upper block. -/
theorem remove_takes_highest_sixteen :
    ∃ start l page l', IsNew 15 none (Finset.range 16) start ∧ Reaches start [.taken 4 4] l ∧
      l.blocks = [⟨0, 4⟩, ⟨8, 8⟩] ∧ l.Offers ⟨2, 2, 0, 10⟩ 2 ∧
      l.remove ⟨2, 2, 0, 10⟩ = .ok (some page, l') ∧
      IsGreatest {t | l.Offers ⟨2, 2, 0, 10⟩ t} page := by
  have new : IsNew 15 none (Finset.range 16) ⟨Chain.empty.pushFront ⟨0, 16⟩, 16, none, 16, 0⟩ :=
    Or.inr ⟨rfl, rfl⟩
  obtain ⟨l, run, blocks⟩ : ∃ l,
      Reaches ⟨Chain.empty.pushFront ⟨0, 16⟩, 16, none, 16, 0⟩ [.taken 4 4] l ∧
      l.blocks = [⟨0, 4⟩, ⟨8, 8⟩] := ⟨_, .take (r := ⟨4, 4, 0, 7⟩) .refl (Or.inr rfl) rfl, rfl⟩
  have lowest : ⟨0, 4⟩ ∈ l.blocks := blocks ▸ List.mem_cons_self
  have offered : l.Offers ⟨2, 2, 0, 10⟩ 2 :=
    ⟨fun p low high => ⟨⟨_, lowest, Nat.zero_le p, high⟩, Nat.zero_le p,
      Nat.le_trans (Nat.le_of_lt high) (by decide)⟩, fun _ => Nat.dvd_refl 2⟩
  obtain ⟨page, l', ok, greatest⟩ :=
    remove_takes_highest new run (by decide) (Or.inr ⟨rfl, Nat.dvd_refl 2⟩) offered
  exact ⟨_, l, page, l', new, run, blocks, offered, ok, greatest⟩

end FreeList

end ConsoleMemory
