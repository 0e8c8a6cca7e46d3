import ConsoleMemory.Proofs.FreeList.History

/-!
# What the pools can answer for

A run is charged as a whole to the pool of its first page, so a run across the
boundary shifts the counters against the free pages on either side. The shift is
a function of the history, its drift, and decides whether the next call returns.
-/

namespace ConsoleMemory.FreeList

open Finset (Ico)

/-- Pages of `S` below the boundary. -/
def below (S : Finset Nat) (boundary : Nat) : Nat := (S.filter (· < boundary)).card

/-- Pages of `S` at or above the boundary. -/
def above (S : Finset Nat) (boundary : Nat) : Nat := (S.filter (boundary ≤ ·)).card

/-- Pages of a run above the boundary that are charged to the pool below it. -/
def strayed (boundary first count : Nat) : Nat :=
  if first < boundary then first + count - boundary else 0

/-- By how much the debugger's counter exceeds the free pages at or above the boundary. -/
def drift (boundary : Nat) : List Event → Int
  | [] => 0
  | .taken first count :: earlier => drift boundary earlier + strayed boundary first count
  | .returned first last :: earlier =>
    drift boundary earlier - strayed boundary first (last - first + 1)
  | .recharged pages :: earlier => drift boundary earlier - pages

variable {highest b first count : Nat} {boundary : Option Nat} {l l' start : FreeList}
  {r : PageRequest} {S T : Finset Nat} {events : List Event}

lemma below_run (first count b : Nat) :
    below (Ico first (first + count)) b + strayed b first count =
    if first < b then count else 0 := by
  have filter : (Ico first (first + count)).filter (· < b) = Ico first (min (first + count) b) :=
    Finset.Ico_filter_lt ..
  rw [below, filter, Nat.card_Ico, strayed]
  split <;> omega

lemma above_run (first count b : Nat) : above (Ico first (first + count)) b =
    if first < b then strayed b first count else count := by
  have filter : (Ico first (first + count)).filter (b ≤ ·) = Ico (max first b) (first + count) :=
    Finset.Ico_filter_le ..
  rw [above, filter, Nat.card_Ico, strayed]
  split <;> omega

lemma below_union (disjoint : Disjoint S T) : below (S ∪ T) b = below S b + below T b := by
  unfold below
  rw [Finset.filter_union, Finset.card_union_of_disjoint (Finset.disjoint_filter_filter disjoint)]

lemma above_union (disjoint : Disjoint S T) : above (S ∪ T) b = above S b + above T b := by
  unfold above
  rw [Finset.filter_union, Finset.card_union_of_disjoint (Finset.disjoint_filter_filter disjoint)]

lemma below_sdiff (sub : T ⊆ S) : below (S \ T) b + below T b = below S b := by
  rw [← below_union Finset.sdiff_disjoint, Finset.sdiff_union_of_subset sub]

lemma above_sdiff (sub : T ⊆ S) : above (S \ T) b + above T b = above S b := by
  rw [← above_union Finset.sdiff_disjoint, Finset.sdiff_union_of_subset sub]

/-- The counters are the free pages on the two sides of the boundary, shifted by `d`. -/
structure Shifted (l : FreeList) (S : Finset Nat) (b : Nat) (d : Int) : Prop where
  general : (l.general : Int) = below S b - d
  debugger : (l.debugger : Int) = above S b + d

lemma below_add_above (S : Finset Nat) (b : Nat) : below S b + above S b = S.card := by
  have high : S.filter (b ≤ ·) = S.filter (¬ · < b) := Finset.filter_congr fun p _ => not_lt.symm
  rw [below, above, high, Finset.card_filter_add_card_filter_not]

/-- The counters add up to the free pages, so that one of them tells the other. -/
lemma Keeps.shifted (h : l.Keeps S) (debugger : l.debugger = above S b) : l.Shifted S b 0 := by
  have balanced := h.balanced
  have sides := below_add_above S b
  exact ⟨by omega, by omega⟩

lemma isDebugger_iff {p : Nat} (inside : p < l.pageCount) :
    l.isDebugger p = true ↔ l.boundary.getD l.pageCount ≤ p := by
  unfold isDebugger
  cases l.boundary with
  | none =>
    simp only [Option.any_none, Option.getD_none]
    exact ⟨nofun, fun le => absurd inside (Nat.not_lt.mpr le)⟩
  | some boundary => simp

lemma Shifted.pool_eq {p : Nat} {d : Int} (h : l.Shifted S (l.boundary.getD l.pageCount) d)
    (inside : p < l.pageCount) :
    (l.pool p : Int) = if p < l.boundary.getD l.pageCount
      then below S (l.boundary.getD l.pageCount) - d
      else above S (l.boundary.getD l.pageCount) + d := by
  have side := isDebugger_iff inside
  unfold pool
  by_cases low : p < l.boundary.getD l.pageCount
  · rw [if_pos low, if_neg (by rw [side]; omega)]
    exact h.general
  · rw [if_neg low, if_pos (side.mpr (by omega))]
    exact h.debugger

/-- A charge of `n` pages to the pool of page `p` shifts the counters by what the sets leave. -/
lemma Shifted.withPool {p n : Nat} {d d' : Int} {chain : Chain Block}
    (h : l.Shifted S (l.boundary.getD l.pageCount) d) (inside : p < l.pageCount)
    (low : p < l.boundary.getD l.pageCount →
      (n : Int) = below T (l.boundary.getD l.pageCount) - d' ∧
        above T (l.boundary.getD l.pageCount) + d' = above S (l.boundary.getD l.pageCount) + d)
    (high : l.boundary.getD l.pageCount ≤ p →
      (n : Int) = above T (l.boundary.getD l.pageCount) + d' ∧
        below T (l.boundary.getD l.pageCount) - d' = below S (l.boundary.getD l.pageCount) - d) :
    ({ l with chain }.withPool p n).Shifted T (l.boundary.getD l.pageCount) d' := by
  have side := isDebugger_iff inside
  have same : ({ l with chain } : FreeList).isDebugger p = l.isDebugger p := rfl
  unfold FreeList.withPool
  rw [same]
  by_cases debugger : l.isDebugger p = true
  · rw [if_pos debugger]
    obtain ⟨count, rest⟩ := high (side.mp debugger)
    exact ⟨h.general.trans rest.symm, count⟩
  · rw [if_neg debugger]
    obtain ⟨count, rest⟩ := low (Nat.lt_of_not_le fun le => debugger (side.mpr le))
    exact ⟨count, h.debugger.trans rest.symm⟩

lemma Shifted.remove {page : Nat} {d : Int} (h : l.Shifted S (l.boundary.getD l.pageCount) d)
    (keeps : l.Keeps S) (ok : l.remove r = .ok (some page, l')) :
    l'.Shifted (S \ Ico page (page + r.count)) (l.boundary.getD l.pageCount)
      (d + strayed (l.boundary.getD l.pageCount) page r.count) := by
  obtain ⟨pos, serves, _, chain, rfl, enough⟩ := keeps.of_remove_some ok
  have sub : Ico page (page + r.count) ⊆ S := fun p hp =>
    serves.free p (Finset.mem_Ico.mp hp).1 (Finset.mem_Ico.mp hp).2
  have inside : page < l.pageCount := keeps.within page (serves.free page le_rfl (by omega))
  have pool_eq := h.pool_eq inside
  have low := below_sdiff sub (b := l.boundary.getD l.pageCount)
  have high := above_sdiff sub (b := l.boundary.getD l.pageCount)
  rw [above_run] at high
  have run := below_run page r.count (l.boundary.getD l.pageCount)
  refine h.withPool inside (fun side => ?_) (fun side => ?_)
  · rw [if_pos side] at *
    omega
  · rw [if_neg (by omega)] at *
    have none : strayed (l.boundary.getD l.pageCount) page r.count = 0 := if_neg (by omega)
    omega

lemma Shifted.insert {last : Nat} {d : Int} (h : l.Shifted S (l.boundary.getD l.pageCount) d)
    (keeps : l.Keeps S) (le : first ≤ last) (inside : last < l.pageCount)
    (ok : l.insert first last = .ok l') :
    l'.Shifted (S ∪ Ico first (last + 1)) (l.boundary.getD l.pageCount)
      (d - strayed (l.boundary.getD l.pageCount) first (last - first + 1)) := by
  obtain ⟨outside, _, chain, rfl⟩ := keeps.of_insert le inside ok
  have size : last + 1 = first + (last - first + 1) := by omega
  have disjoint : Disjoint S (Ico first (last + 1)) := by
    refine Finset.disjoint_right.mpr fun p hp => ?_
    obtain ⟨low, high⟩ := Finset.mem_Ico.mp hp
    exact outside p low (by omega)
  have inside' : first < l.pageCount := by omega
  have pool_eq := h.pool_eq inside'
  have low := below_union disjoint (b := l.boundary.getD l.pageCount)
  have high := above_union disjoint (b := l.boundary.getD l.pageCount)
  rw [size] at low high ⊢
  rw [above_run] at high
  have run := below_run first (last - first + 1) (l.boundary.getD l.pageCount)
  refine h.withPool inside' (fun side => ?_) (fun side => ?_)
  · rw [if_pos side] at *
    omega
  · rw [if_neg (by omega)] at *
    have none : strayed (l.boundary.getD l.pageCount) first (last - first + 1) = 0 :=
      if_neg (by omega)
    omega

/-- The pool that a request is charged to answers for it just when it has the pages. -/
lemma Shifted.remove_returns_iff {d : Int} (shifted : l.Shifted S b d) (keeps : l.Keeps S)
    (split : l.boundary.getD l.pageCount = b) (legal : r.Legal) :
    (∃ answer, l.remove r = .ok answer) ↔ ∀ page, l.choice? r = some page →
      (page < b → r.count + d ≤ below S b) ∧ (b ≤ page → r.count ≤ above S b + d) := by
  rcases Nat.eq_zero_or_pos r.count with zero | pos
  · have general := shifted.general
    have debugger := shifted.debugger
    refine ⟨fun _ page _ => ?_, fun _ => ⟨_, remove_zero zero⟩⟩
    omega
  rcases remove_outcome keeps pos legal with ⟨none, refused⟩ | ⟨page, chosen, serves, outcome⟩
  · refine ⟨fun _ page chosen => ?_, fun _ => ⟨_, refused⟩⟩
    rw [none] at chosen
    cases chosen
  have inside : page < l.pageCount := keeps.within page (serves.free page le_rfl (by omega))
  have pool := Shifted.pool_eq (split ▸ shifted) inside
  rw [split] at pool
  rcases outcome with ⟨⟨_, taken, _⟩, enough⟩ | ⟨short, lacks⟩
  · refine ⟨fun _ page' chosen' => ?_, fun _ => ⟨_, taken⟩⟩
    cases chosen.symm.trans chosen'
    split at pool <;> omega
  · constructor
    · rintro ⟨answer, ok⟩
      cases short.symm.trans ok
    · intro answers
      have := answers page chosen
      split at pool <;> omega

/-- Pages that are not free can be returned just when the debugger's pool, if they are charged to
it, has room for them. -/
lemma Shifted.insert_returns_iff {last : Nat} {d : Int} (shifted : l.Shifted S b d)
    (keeps : l.Keeps S) (split : l.boundary.getD l.pageCount = b) (le : first ≤ last)
    (inside : last < l.pageCount) (disjoint : ∀ p, first ≤ p → p ≤ last → p ∉ S) :
    (∃ l', l.insert first last = .ok l') ↔
      (b ≤ first → above S b + d + (last - first + 1 : Nat) ≤ (l.pageCount - b : Nat)) := by
  have debugger := shifted.debugger
  have room : l.HasRoom first (last - first + 1) ↔
      (b ≤ first → l.debugger + (last - first + 1) ≤ l.pageCount - b) := by
    rw [HasRoom, isDebugger_iff (by omega), split]
  rcases insert_outcome keeps le inside with ⟨⟨p, hp, hp', mem⟩, _⟩ | ⟨_, outcome⟩
  · exact absurd mem (disjoint p hp hp')
  rcases outcome with ⟨⟨_, returned, _⟩, has⟩ | ⟨⟨_, full⟩, lacks⟩
  · refine ⟨fun _ high => ?_, fun _ => ⟨_, returned⟩⟩
    have := room.mp has high
    omega
  · constructor
    · rintro ⟨l', ok⟩
      cases full.symm.trans ok
    · intro fits
      refine absurd (room.mpr fun high => ?_) lacks
      have := fits high
      omega

/-- Along a history from a full list the counters are shifted by the drift. -/
theorem Reaches.shifted (run : Reaches start events l) (keeps : start.Keeps S)
    (new : start.Shifted S (start.boundary.getD start.pageCount) 0) :
    l.Shifted (pagesAfter S events) (start.boundary.getD start.pageCount)
      (drift (start.boundary.getD start.pageCount) events) := by
  induction run with
  | refl => exact new
  | take earlier legal ok ih =>
    obtain ⟨keeps', count, bound⟩ := earlier.keeps keeps
    rw [← count, ← bound] at ih ⊢
    exact ih.remove keeps' ok
  | refuse earlier legal ok ih =>
    cases (earlier.keeps keeps).1.of_remove_none ok
    exact ih
  | put earlier le inside ok ih =>
    obtain ⟨keeps', count, bound⟩ := earlier.keeps keeps
    rw [← count] at inside
    rw [← count, ← bound] at ih ⊢
    exact ih.insert keeps' le inside ok
  | recharge earlier ok ih =>
    obtain ⟨enough, rfl⟩ := movePages_eq_ok ok
    obtain ⟨general, debugger⟩ := ih
    constructor
    · simp only [drift, pagesAfter]
      omega
    · simp only [drift, pagesAfter]
      omega

lemma shifted_full (small : highest < 0xFFFFFFFF) (new : full highest boundary = .ok start) :
    start.Shifted (Finset.range (highest + 1)) (boundary.getD (highest + 1)) 0 := by
  have all : Finset.range (highest + 1) = Ico 0 (0 + (highest + 1)) := by
    rw [Nat.zero_add, Finset.range_eq_Ico]
  have low := below_run 0 (highest + 1) (boundary.getD (highest + 1))
  have high := above_run 0 (highest + 1) (boundary.getD (highest + 1))
  rw [← all] at low high
  rw [full_eq small] at new
  cases new
  unfold strayed at low high
  constructor
  · dsimp only
    split at low <;> omega
  · dsimp only
    split at high <;> omega

/-- What a history from a full list leaves: its free pages, and counters shifted by its drift. -/
lemma Reaches.of_full (small : highest < 0xFFFFFFFF) (new : full highest boundary = .ok start)
    (run : Reaches start events l) (split : boundary.getD (highest + 1) = b)
    (free : pagesAfter (Finset.range (highest + 1)) events = S) :
    l.Keeps S ∧ l.Shifted S b (drift b events) ∧ l.pageCount = highest + 1 ∧
      l.boundary.getD l.pageCount = b := by
  obtain ⟨new_keeps, new_count, new_bound⟩ := IsNew.keeps (Or.inr ⟨new, rfl⟩) small
  obtain ⟨keeps, count, bound⟩ := run.keeps new_keeps
  have start_split : start.boundary.getD start.pageCount = b := by rw [new_count, new_bound, split]
  have shifted := run.shifted new_keeps (by
    rw [start_split, ← split]
    exact shifted_full small new)
  rw [free, start_split] at shifted
  exact ⟨free ▸ keeps, shifted, count.trans new_count, by rw [count, bound, start_split]⟩

/-- After a history from a full list that leaves the pages of `S`, a call returns just when the
pool that it is charged to can answer for it: the counters are off by the drift. -/
theorem calls_return_iff (small : highest < 0xFFFFFFFF) (new : full highest boundary = .ok start)
    (run : Reaches start events l) (split : boundary.getD (highest + 1) = b)
    (free : pagesAfter (Finset.range (highest + 1)) events = S) :
    (∀ r, r.Legal → ((∃ answer, l.remove r = .ok answer) ↔
      ∀ page, l.choice? r = some page →
        (page < b → r.count + drift b events ≤ below S b) ∧
        (b ≤ page → r.count ≤ above S b + drift b events))) ∧
    (∀ first last, first ≤ last → last ≤ highest → (∀ p, first ≤ p → p ≤ last → p ∉ S) →
      ((∃ l', l.insert first last = .ok l') ↔
        (b ≤ first → above S b + drift b events + (last - first + 1 : Nat) ≤
          (highest + 1 - b : Nat)))) := by
  obtain ⟨keeps, shifted, count, split'⟩ := run.of_full small new split free
  constructor
  · intro r legal
    exact shifted.remove_returns_iff keeps split' legal
  · intro first last le within disjoint
    rw [← count]
    exact shifted.insert_returns_iff keeps split' le (by omega) disjoint

/-- Sixteen pages with the boundary at page eight, of which a run across it is taken and its lower
half returned: the debugger's pool has no room for the other half. -/
theorem calls_return_iff_sixteen :
    ∃ start l, 15 < 0xFFFFFFFF ∧ full 15 (some 8) = .ok start ∧
      Reaches start [.returned 6 7, .taken 6 4] l ∧ (some 8).getD (15 + 1) = 8 ∧
      pagesAfter (Finset.range (15 + 1)) [.returned 6 7, .taken 6 4] =
        Finset.range 16 \ Ico 8 10 ∧
      ¬ ∃ l', l.insert 8 9 = .ok l' := by
  have taken : Reaches ⟨Chain.empty.pushFront ⟨0, 16⟩, 16, some 8, 8, 8⟩ [.taken 6 4] _ :=
    .take (r := ⟨4, 0, 6, 9⟩) .refl (Or.inl rfl) rfl
  have run : Reaches _ [.returned 6 7, .taken 6 4] _ := .put taken (by decide) (by decide) rfl
  have free : pagesAfter (Finset.range (15 + 1)) [.returned 6 7, .taken 6 4] =
      Finset.range 16 \ Ico 8 10 := by decide
  have returns := calls_return_iff (by decide) rfl run rfl free
  refine ⟨_, _, by decide, rfl, run, rfl, free, fun ok => ?_⟩
  have room := (returns.2 8 9 (by decide) (by decide) (by decide)).mp ok (by decide)
  exact absurd room (by decide)

/-- Neither operation always returns: the general pool cannot answer for pages that are free, and
the debugger's pool has no room for pages that were taken. -/
theorem pools_abort_sixteen :
    ∃ start taken halved, full 15 (some 8) = .ok start ∧
      Reaches start [.taken 6 4] taken ∧ PageRequest.Legal ⟨6, 0, 0, 5⟩ ∧
      taken.remove ⟨6, 0, 0, 5⟩ = .error .overflow ∧
      Reaches start [.returned 6 7, .taken 6 4] halved ∧
      (∀ p, 8 ≤ p → p ≤ 9 → p ∉ pagesAfter (Finset.range 16) [.returned 6 7, .taken 6 4]) ∧
      halved.insert 8 9 = .error (.refused (.debuggerPoolOverflow 10)) := by
  have taken : Reaches ⟨Chain.empty.pushFront ⟨0, 16⟩, 16, some 8, 8, 8⟩ [.taken 6 4] _ :=
    .take (r := ⟨4, 0, 6, 9⟩) .refl (Or.inl rfl) rfl
  have run : Reaches _ [.returned 6 7, .taken 6 4] _ := .put taken (by decide) (by decide) rfl
  refine ⟨_, _, _, rfl, taken, Or.inl rfl, rfl, run, ?_, rfl⟩
  intro p low high
  have : p = 8 ∨ p = 9 := by omega
  rcases this with rfl | rfl <;> decide

/-- The run of the event lies on one side of the boundary. -/
def Event.Sided (b : Nat) : Event → Prop
  | .taken first count => first < b → first + count ≤ b
  | .returned first last => first < b → last < b
  | .recharged _ => False

lemma drift_eq_zero (sided : ∀ e ∈ events, e.Sided b) : drift b events = 0 := by
  induction events with
  | nil => rfl
  | cons e earlier ih =>
    have rest := ih fun e he => sided e (List.mem_cons_of_mem _ he)
    have side := sided e List.mem_cons_self
    cases e with
    | taken first count =>
      simp only [Event.Sided] at side
      rw [drift, rest, strayed]
      split <;> omega
    | returned first last =>
      simp only [Event.Sided] at side
      rw [drift, rest, strayed]
      split <;> omega
    | recharged pages => exact absurd side id

/-- As long as every run lies on one side of the boundary, pages that are not free can always be
returned, and a request is answered unless it would take a run across the boundary. -/
theorem sided_calls_return (small : highest < 0xFFFFFFFF) (new : full highest boundary = .ok start)
    (run : Reaches start events l) (sided : ∀ e ∈ events, e.Sided (boundary.getD (highest + 1))) :
    (∀ r, r.Legal → (∀ page, l.choice? r = some page → page < boundary.getD (highest + 1) →
        page + r.count ≤ boundary.getD (highest + 1)) → ∃ answer, l.remove r = .ok answer) ∧
    (∀ first last, first ≤ last → last ≤ highest →
      (∀ p, first ≤ p → p ≤ last → p ∉ pagesAfter (Finset.range (highest + 1)) events) →
      ∃ l', l.insert first last = .ok l') := by
  obtain ⟨keeps, shifted, count, split⟩ := run.of_full small new rfl rfl
  rw [drift_eq_zero sided] at shifted
  constructor
  · intro r legal one_sided
    rcases Nat.eq_zero_or_pos r.count with zero | pos
    · exact ⟨_, remove_zero zero⟩
    rcases remove_outcome keeps pos legal with ⟨_, refused⟩ | ⟨page, chosen, serves, _⟩
    · exact ⟨_, refused⟩
    refine (shifted.remove_returns_iff keeps split legal).mpr fun page' chosen' => ?_
    cases chosen.symm.trans chosen'
    have sub : Ico page (page + r.count) ⊆ _ := fun p hp =>
      serves.free p (Finset.mem_Ico.mp hp).1 (Finset.mem_Ico.mp hp).2
    have low := below_sdiff sub (b := boundary.getD (highest + 1))
    have high := above_sdiff sub (b := boundary.getD (highest + 1))
    have run_low := below_run page r.count (boundary.getD (highest + 1))
    rw [above_run] at high
    constructor
    · intro side
      have := one_sided page chosen side
      have none : strayed (boundary.getD (highest + 1)) page r.count = 0 := by
        rw [strayed, if_pos side]
        omega
      rw [if_pos side] at run_low
      omega
    · intro side
      rw [if_neg (by omega)] at high
      omega
  · intro first last le within disjoint
    refine (shifted.insert_returns_iff keeps split le (by omega) disjoint).mpr fun side => ?_
    have inside : pagesAfter (Finset.range (highest + 1)) events ∪ Ico first (last + 1) ⊆
        Ico 0 (0 + l.pageCount) := by
      intro p hp
      rcases Finset.mem_union.mp hp with hp | hp
      · have := keeps.within p hp
        exact Finset.mem_Ico.mpr ⟨Nat.zero_le _, by omega⟩
      · have := (Finset.mem_Ico.mp hp).2
        exact Finset.mem_Ico.mpr ⟨Nat.zero_le _, by omega⟩
    have apart : Disjoint (pagesAfter (Finset.range (highest + 1)) events)
        (Ico first (last + 1)) := by
      refine Finset.disjoint_right.mpr fun p hp => ?_
      obtain ⟨low, high⟩ := Finset.mem_Ico.mp hp
      exact disjoint p low (by omega)
    have whole := above_sdiff inside (b := boundary.getD (highest + 1))
    have joined := above_union apart (b := boundary.getD (highest + 1))
    have size : last + 1 = first + (last - first + 1) := by omega
    rw [joined, above_run, size, above_run, if_neg (by omega)] at whole
    unfold strayed at whole
    split at whole <;> omega

end ConsoleMemory.FreeList
