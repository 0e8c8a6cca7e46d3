import ConsoleMemory.Manager.Consistency
import ConsoleMemory.Proofs.Manager.Invariant
import Mathlib.Algebra.BigOperators.Intervals

/-!
# What the check decides

The check finds nothing in a machine just when the machine is consistent: each
part of it passes just when its own rule holds, whatever memory, the counters and
the free blocks are. In particular it finds nothing where the invariant holds and
valid entries map busy pages.
-/

namespace ConsoleMemory

open Machine
open Finset (Ico)

/-! ### Verdicts -/

/-- The check ends early, with a finding or, if `wide`, for good. -/
def Check.Stops {α : Type} (wide : Prop) (x : Check α) : Prop :=
  (∃ finding, x = throw finding) ∨ wide ∧ ∃ e : Abort, x = liftM (Except.error e : Except Abort α)

/-- The check comes to `a` if the rule `P` holds, and ends early if it does not. -/
structure Check.Decides {α : Type} (wide : Prop) (x : Check α) (P : Prop) (a : α) : Prop where
  passes : P → x = pure a
  stops : ¬ P → x.Stops wide

namespace Check

variable {α β : Type} {wide P Q : Prop} {x : Check α} {f : α → Check β} {a : α} {b : β}

lemma Stops.bind (h : x.Stops wide) (f : α → Check β) : (x >>= f).Stops wide := by
  rcases h with ⟨finding, rfl⟩ | ⟨many, e, rfl⟩
  · exact Or.inl ⟨finding, rfl⟩
  · exact Or.inr ⟨many, e, rfl⟩

namespace Decides

lemma pure (a : α) : Decides wide (Pure.pure a) True a :=
  ⟨fun _ => rfl, fun never => absurd trivial never⟩

lemma iff (h : Decides wide x P a) (same : P ↔ Q) : Decides wide x Q a :=
  ⟨fun q => h.passes (same.mpr q), fun n => h.stops fun p => n (same.mp p)⟩

/-- Rules are checked one after the other. -/
lemma bind (h : Decides wide x P a) (h' : P → Decides wide (f a) Q b) :
    Decides wide (x >>= f) (P ∧ Q) b := by
  constructor
  · rintro ⟨p, q⟩
    rw [h.passes p, pure_bind]
    exact (h' p).passes q
  · intro broken
    by_cases p : P
    · rw [h.passes p, pure_bind]
      exact (h' p).stops fun q => broken ⟨p, q⟩
    · exact (h.stops p).bind f

/-- What is read on the way is no rule. -/
lemma after {y : Except Abort α} (read : y = .ok a) (h : Decides wide (f a) Q b) :
    Decides wide (liftM y >>= f) Q b := by
  subst read
  exact h

/-- Where a number is too wide the rule must be broken. -/
lemma stuck {y : Except Abort α} {e : Abort} (failed : y = .error e) (many : wide) (never : ¬ Q) :
    Decides wide (liftM y >>= f) Q b := by
  subst failed
  exact ⟨fun q => absurd q never, fun _ => Or.inr ⟨many, e, rfl⟩⟩

lemma expect (p : Bool) (page : Nat) (rule : Inconsistency) :
    Decides wide (Manager.expect p page rule) (p = true) () :=
  ⟨fun holds => if_pos holds, fun broken => Or.inl ⟨_, if_neg broken⟩⟩

lemma forM {ι : Type} {check : ι → Check Unit} {rule : ι → Prop} {items : List ι}
    (h : ∀ i ∈ items, Decides wide (check i) (rule i) ()) :
    Decides wide (items.forM check) (∀ i ∈ items, rule i) () := by
  induction items with
  | nil => exact (pure ()).iff (by simp)
  | cons i rest ih =>
    have later := ih fun k hk => h k (List.mem_cons_of_mem i hk)
    rw [List.forM_eq_forM, List.forM_cons]
    exact ((h i List.mem_cons_self).bind fun _ => later).iff List.forall_mem_cons.symm

end Decides

end Check

/-! ### What is checked -/

namespace Machine

variable {c : Machine} {p : Nat}

/-- Free pages, by the free blocks. -/
def freePages (c : Machine) : Finset Nat := (c.freeList.blocks.flatMap Block.pages).toFinset

/-- The entry is not valid, or it leads out of memory or to a busy page that holds no page table. -/
def Targets (c : Machine) (e : Entry) : Prop :=
  e.valid = true → e.frame ≤ c.parameters.highestPage →
    (c.record e.frame).busy = true ∧ (c.record e.frame).pageType.isPageTable = false

/-- The record of the page table in page `t` is right, and so are the pages that its entries
lead to. -/
structure Sound (c : Machine) (t : Nat) : Prop where
  inside : t ≤ c.parameters.highestPage
  held : (c.record t).isBusyPageTable = true
  used : (c.record t).entriesUsed = c.inUse t
  targets : ∀ j < 1024, c.Targets (c.pte t j)

/-- The free blocks, the counters, the records and the page tables agree. -/
structure Consistent (c : Machine) : Prop where
  positive : ∀ b ∈ c.freeList.blocks, 0 < b.size
  inside : ∀ b ∈ c.freeList.blocks, b.past ≤ c.parameters.highestPage + 1
  /-- The free blocks ascend and leave a page between each other. -/
  apart : c.freeList.blocks.Pairwise fun a b => a.past < b.start
  /-- The pools account for the free pages. -/
  pooled : c.freeList.general + c.freeList.debugger = c.freePages.card
  /-- A page is free just where its record is not busy. -/
  split : ∀ p ≤ c.parameters.highestPage, p ∈ c.freeList ↔ (c.record p).busy = false
  counted : c.Counted
  sound : ∀ i t, c.Table i t → c.Sound t

lemma mem_freePages : p ∈ c.freePages ↔ ∃ b ∈ c.freeList.blocks, p ∈ b := by
  simp only [freePages, List.mem_toFinset, List.mem_flatMap, Block.mem_pages]

lemma Kept.consistent (h : c.Kept) (targeted : c.Targeted) : c.Consistent := by
  have runs := h.free.runs
  have free : c.freePages = c.idlePages := by
    ext p
    rw [mem_freePages, runs.mem]
  constructor
  case positive => exact runs.positive
  case inside => exact fun b hb => (h.free.past_le hb).trans_eq h.pageCount
  case apart => exact runs.apart
  case pooled => rw [free, h.free.balanced]
  case split =>
    intro p hp
    have member : p ∈ c.freeList ↔ p ∈ c.idlePages := (runs.mem p).symm
    rw [member, mem_idlePages, and_iff_right hp]
  case counted => exact h.counted
  case sound =>
    intro i t table
    exact ⟨h.toWired.table_le table, h.tables i t table, h.used i t table, targeted i t table⟩

end Machine

namespace Manager

open Check

variable {wide : Prop} {highest : Nat} {blocks : List Block}

/-! ### Free blocks -/

/-- The blocks end inside of memory and leave a page between each other, and before the first of
them where `previous` is the last page of a block before it. -/
structure Spread (highest : Nat) (previous : Option Nat) (blocks : List Block) : Prop where
  positive : ∀ b ∈ blocks, 0 < b.size
  inside : ∀ b ∈ blocks, b.past ≤ highest + 1
  apart : blocks.Pairwise fun a b => a.past < b.start
  above : ∀ last, previous = some last → ∀ b ∈ blocks, last + 1 < b.start

lemma spread_nil (previous : Option Nat) : Spread highest previous [] := ⟨nofun, nofun, .nil, nofun⟩

lemma spread_cons {b : Block} {previous : Option Nat} : Spread highest previous (b :: blocks) ↔
    0 < b.size ∧ b.past ≤ highest + 1 ∧ (∀ last, previous = some last → last + 1 < b.start) ∧
      Spread highest (some (b.past - 1)) blocks := by
  constructor
  · intro h
    have mem : b ∈ b :: blocks := List.mem_cons_self
    obtain ⟨next, apart⟩ := List.pairwise_cons.mp h.apart
    refine ⟨h.positive b mem, h.inside b mem, fun last eq => h.above last eq b mem, ?_⟩
    refine ⟨fun d hd => h.positive d (List.mem_cons_of_mem b hd),
      fun d hd => h.inside d (List.mem_cons_of_mem b hd), apart, fun last eq d hd => ?_⟩
    cases eq
    have long : b.size ≤ b.past := Nat.le_add_left b.size b.start
    have positive := h.positive b mem
    have after : b.past < d.start := next d hd
    omega
  · rintro ⟨positive, inside, above, rest⟩
    have long : b.size ≤ b.past := Nat.le_add_left b.size b.start
    have next (d : Block) (hd : d ∈ blocks) : b.past < d.start := by
      have after := rest.above _ rfl d hd
      omega
    refine ⟨List.forall_mem_cons.mpr ⟨positive, rest.positive⟩,
      List.forall_mem_cons.mpr ⟨inside, rest.inside⟩, List.pairwise_cons.mpr ⟨next, rest.apart⟩,
      fun last eq => List.forall_mem_cons.mpr ⟨above last eq, fun d hd => ?_⟩⟩
    have low : b.start ≤ b.past := Nat.le_add_right b.start b.size
    have before := above last eq
    have after := next d hd
    omega

lemma last_too_wide {b : Block} (wide : 0x100000000 ≤ b.past) : b.last = .error .overflow := by
  have excess : ¬ b.start + b.size < 0x100000000 := Nat.not_lt.mpr wide
  rw [Block.last, checkedAdd, if_neg excess]
  rfl

theorem checkBlocks_decides (small : highest < 0xFFFFFFFF)
    (narrow : ∀ b ∈ blocks, 0x100000000 ≤ b.past → wide) (previous : Option Nat) :
    Decides wide (checkBlocks highest previous blocks) (Spread highest previous blocks) () := by
  induction blocks generalizing previous with
  | nil => exact (Decides.pure ()).iff (iff_of_true trivial (spread_nil previous))
  | cons b rest ih =>
    have later := ih fun d hd => narrow d (List.mem_cons_of_mem b hd)
    have long : b.size ≤ b.past := Nat.le_add_left b.size b.start
    have nonempty : (b.size != 0) = true ↔ 0 < b.size := by simp [Nat.pos_iff_ne_zero]
    have start : previous.all (· + 1 < b.start) = true ↔
        ∀ last, previous = some last → last + 1 < b.start := by cases previous <;> simp
    rw [checkBlocks, spread_cons, ← nonempty, ← start]
    refine (Decides.expect _ _ _).bind fun positive => ?_
    rw [nonempty] at positive
    by_cases fits : b.past < 0x100000000
    · have last : decide (b.past - 1 ≤ highest) = true ↔ b.past ≤ highest + 1 := by
        rw [decide_eq_true_eq]
        omega
      rw [← last]
      apply Decides.after (Block.last_eq positive fits)
      exact (Decides.expect _ _ _).bind fun _ => (Decides.expect _ _ _).bind fun _ => later _
    -- the last page cannot be named, but then the block does not end inside of memory either
    · have excess : 0x100000000 ≤ b.past := Nat.le_of_not_lt fits
      apply Decides.stuck (last_too_wide excess) (narrow b List.mem_cons_self excess)
      rintro ⟨inside, _⟩
      omega

/-! ### Pools -/

lemma sum_eq (blocks : List Block) {sum : Nat}
    (small : sum + (blocks.map Block.size).sum < 0x100000000) :
    blocks.foldlM (fun sum b => checkedAdd sum b.size) sum =
      .ok (sum + (blocks.map Block.size).sum) := by
  induction blocks generalizing sum with
  | nil => rfl
  | cons b rest ih =>
    rw [List.map_cons, List.sum_cons, ← Nat.add_assoc] at small ⊢
    rw [List.foldlM_cons, checkedAdd_of_lt (by omega)]
    exact ih small

variable {c : Machine} {t : Tlb} {p : Nat}

lemma checkPools_decides (runs : Block.Runs c.freeList.blocks c.freePages)
    (few : c.freePages.card < 0x100000000)
    (narrow : 0x100000000 ≤ c.freeList.general + c.freeList.debugger → wide) :
    Decides wide (c.manager t).checkPools
      (c.freeList.general + c.freeList.debugger = c.freePages.card) () := by
  have sum := runs.sum_size
  have total := sum_eq c.freeList.blocks (by omega : 0 + _ < 0x100000000)
  rw [Nat.zero_add, sum] at total
  rw [checkPools]
  by_cases fits : c.freeList.general + c.freeList.debugger < 0x100000000
  · apply Decides.after (checkedAdd_of_lt fits)
    apply Decides.after total
    exact (Decides.expect _ _ _).iff beq_iff_eq
  · have excess : checkedAdd (c.manager t).available (c.manager t).debuggerAvailable =
        .error .overflow := if_neg fits
    apply Decides.stuck excess (narrow (Nat.le_of_not_lt fits))
    omega

/-! ### Pages -/

section
variable (fit : c.parameters.Fit) (installed : c.parameters.highestPage < c.ram.pages)
include fit installed

lemma recordInRam_eq (hp : p ≤ c.parameters.highestPage) :
    (c.manager t).recordInRam p = .ok (c.record p) := by
  have window := fit.window
  have fits := fit.inside
  have records := fit.records
  have offset : checkedMul p MemoryMap.recordBytes = .ok (p * 4) := if_pos (by
    rw [MemoryMap.recordBytes]
    omega)
  have word : c.ram.readWord (Pfn.base c.parameters.databasePage + p * 4) =
      .ok (c.ram.word (c.parameters.databasePage + p / 1024) (p % 1024)) := by
    refine Ram.readWord_eq ?_ (by omega) (Nat.mod_lt _ (by decide))
    rw [Address.toNat_add, Pfn.toNat_base]
    omega
  rw [recordInRam, offset]
  change (do
    let w ← c.ram.readWord (Pfn.base c.parameters.databasePage + p * 4)
    return PfnRecord.mk w) = _
  rw [word]
  rfl

end

/-- A rule holds from `m` on if it holds of `m` and from there on. -/
lemma forall_from_iff {P : Nat → Prop} {m n : Nat} (h : m < n) :
    (∀ k, m ≤ k → k < n → P k) ↔ P m ∧ ∀ k, m + 1 ≤ k → k < n → P k := by
  constructor
  · exact fun all => ⟨all m le_rfl h, fun k low high => all k (Nat.le_of_succ_le low) high⟩
  · rintro ⟨first, later⟩ k low high
    rcases Nat.eq_or_lt_of_le low with rfl | low
    · exact first
    · exact later k low high

/-- What is counted from `m` on is `m` itself, or not, and what is counted behind it. -/
lemma card_filter_Ico (P : Nat → Prop) [DecidablePred P] {m n : Nat} (h : m < n) :
    ((Ico m n).filter P).card = (if P m then 1 else 0) + ((Ico (m + 1) n).filter P).card := by
  rw [Finset.card_filter, Finset.card_filter, Finset.sum_eq_sum_Ico_succ_bot h]

/-- The counters with the busy pages among `count` pages from `page` on. -/
def tallied (c : Machine) : Nat → Nat → Usage → Usage
  | 0, _, usage => usage
  | count + 1, page, usage =>
    tallied c count (page + 1)
      (if (c.record page).busy then usage.tally (c.record page).pageType else usage)

lemma count_tallied {count page : Nat} {usage : Usage} (s : PageType) :
    (tallied c count page usage).count s = usage.count s +
      ((Ico page (page + count)).filter fun p =>
        (c.record p).busy = true ∧ (c.record p).pageType = s).card := by
  induction count generalizing page usage with
  | zero => simp [tallied]
  | succ count ih =>
    have next : page + (count + 1) = page + 1 + count := by omega
    have ahead : page < page + 1 + count := by omega
    rw [tallied, ih, next, card_filter_Ico _ ahead]
    by_cases busy : (c.record page).busy = true
    · rw [if_pos busy, Usage.tally, Usage.count_set]
      by_cases same : s = (c.record page).pageType
      · subst same
        rw [if_pos rfl, if_pos ⟨busy, rfl⟩, Nat.add_assoc]
      · rw [if_neg same, if_neg fun both => same both.2.symm, Nat.zero_add]
    · rw [if_neg busy, if_neg fun both => busy both.1, Nat.zero_add]

/-- Of ascending blocks, the first that does not end before `page` tells whether it is free. -/
lemma head_any_eq (apart : blocks.Pairwise fun a b => a.past < b.start) (page : Nat) :
    ((blocks.dropWhile fun b => b.start + b.size ≤ page).head?.any (·.start ≤ page) = true) ↔
      ∃ b ∈ blocks, page ∈ b := by
  induction blocks with
  | nil => simp
  | cons b rest ih =>
    obtain ⟨next, apart⟩ := List.pairwise_cons.mp apart
    rw [List.dropWhile_cons]
    by_cases ended : b.start + b.size ≤ page
    · have outside : ¬ page ∈ b := fun inside => by
        have : page < b.start + b.size := inside.2
        omega
      rw [if_pos (decide_eq_true ended), ih apart]
      simp [outside]
    · rw [if_neg (by simpa using ended), List.head?_cons, Option.any_some, decide_eq_true_eq]
      constructor
      · exact fun start => ⟨b, List.mem_cons_self, start, Nat.lt_of_not_le ended⟩
      · rintro ⟨d, mem, inside⟩
        rcases List.mem_cons.mp mem with rfl | mem
        · exact inside.1
        · have after : b.past < d.start := next d mem
          have start : d.start ≤ page := inside.1
          have : b.start + b.size = b.past := rfl
          omega

/-- Blocks that end before `page` hold no page from there on. -/
lemma mem_dropWhile {page : Nat} (low : page ≤ p) :
    (∃ b ∈ blocks.dropWhile fun b => b.start + b.size ≤ page, p ∈ b) ↔ ∃ b ∈ blocks, p ∈ b := by
  constructor
  · rintro ⟨b, mem, inside⟩
    exact ⟨b, (List.dropWhile_sublist _).subset mem, inside⟩
  · rintro ⟨b, mem, inside⟩
    rw [← List.takeWhile_append_dropWhile (p := fun b : Block => b.start + b.size ≤ page)
      (l := blocks)] at mem
    rcases List.mem_append.mp mem with ended | later
    · have ended := of_decide_eq_true (List.all_eq_true.mp List.all_takeWhile b ended)
      have : p < b.start + b.size := inside.2
      omega
    · exact ⟨b, later, inside⟩

section
variable (fit : c.parameters.Fit) (installed : c.parameters.highestPage < c.ram.pages)
include fit installed

/-- The scan passes just when the blocks hold the pages that are not busy. -/
theorem checkPages_decides {count page : Nat} (usage : Usage)
    (range : page + count = c.parameters.highestPage + 1)
    (apart : blocks.Pairwise fun a b => a.past < b.start) :
    Decides wide ((c.manager t).checkPages count page blocks usage)
      (∀ p, page ≤ p → p < c.parameters.highestPage + 1 →
        ((∃ b ∈ blocks, p ∈ b) ↔ (c.record p).busy = false))
      (tallied c count page usage) := by
  induction count generalizing page blocks usage with
  | zero => exact (Decides.pure _).iff (iff_of_true trivial fun p low high => by omega)
  | succ count ih =>
    have hp : page ≤ c.parameters.highestPage := by omega
    rw [checkPages]
    apply Decides.after (recordInRam_eq fit installed hp)
    apply ((Decides.expect _ _ _).bind fun _ => (Decides.expect _ _ _).bind fun _ =>
      ih _ (by omega) (apart.sublist (List.dropWhile_sublist _))).iff
    have free := head_any_eq apart page
    have here (free busy : Bool) : (!(free && busy)) = true ∧ (free || busy) = true ↔
        (free = true ↔ busy = false) := by
      cases free <;> cases busy <;> simp
    have ahead : page < c.parameters.highestPage + 1 := by omega
    -- the blocks that are dropped end before `page`, so the pages that are left lie in the others
    rw [← and_assoc, here, free, forall_from_iff ahead]
    apply and_congr_right'
    apply forall₃_congr
    intro p low high
    rw [mem_dropWhile (Nat.le_of_succ_le low)]

end

lemma tallied_eq_iff :
    tallied c (c.parameters.highestPage + 1) 0 .zero = c.usage ↔ c.Counted := by
  have count (s : PageType) : (tallied c (c.parameters.highestPage + 1) 0 .zero).count s =
      (c.busyPages s).card := by
    rw [count_tallied, Usage.count_zero, Nat.zero_add, Nat.zero_add, busyPages,
      Finset.range_eq_Ico]
  constructor
  · intro same s
    rw [← same, count]
  · intro counted
    apply Usage.ext_count
    intro s
    rw [count, counted s]

/-! ### Page tables -/

/-- Places of the entries in use from `slot` on. -/
def inUseFrom (c : Machine) (table slot : Nat) : Finset Nat :=
  (Ico slot 1024).filter fun j => (!(c.pte table j).isZero) = true

lemma inUseFrom_zero (c : Machine) (table : Nat) : (inUseFrom c table 0).card = c.inUse table := by
  rw [inUse, Finset.range_eq_Ico]
  rfl

section
variable (fit : c.parameters.Fit) (installed : c.parameters.highestPage < c.ram.pages)
include fit installed

lemma checkTarget_decides (e : Entry) :
    Decides wide ((c.manager t).checkTarget e) (c.Targets e) () := by
  unfold checkTarget
  by_cases leads : e.valid = true ∧ e.frame ≤ c.parameters.highestPage
  · obtain ⟨valid, inside⟩ := leads
    have taken : (e.valid && decide (e.frame ≤ (c.manager t).parameters.highestPage)) = true := by
      rw [valid, Bool.true_and]
      exact decide_eq_true inside
    rw [if_pos taken]
    apply Decides.after (recordInRam_eq fit installed inside)
    apply ((Decides.expect _ _ _).bind fun _ => Decides.expect _ _ _).iff
    simp [Targets, valid, inside]
  · have skipped : ¬ (e.valid && decide (e.frame ≤ (c.manager t).parameters.highestPage)) = true :=
      fun both => by
        rw [Bool.and_eq_true, decide_eq_true_eq] at both
        exact leads both
    rw [if_neg skipped]
    exact (Decides.pure ()).iff
      (iff_of_true trivial fun valid inside => absurd ⟨valid, inside⟩ leads)

theorem checkEntries_decides {table count slot : Nat} (used : Nat)
    (inside : table ≤ c.parameters.highestPage) (range : slot + count = 1024) :
    Decides wide ((c.manager t).checkEntries (Pfn.base table) count slot used)
      (∀ j, slot ≤ j → j < 1024 → c.Targets (c.pte table j))
      (used + (inUseFrom c table slot).card) := by
  induction count generalizing slot used with
  | zero =>
    have none : inUseFrom c table slot = ∅ := by
      rw [inUseFrom, Finset.Ico_eq_empty (by omega), Finset.filter_empty]
    rw [checkEntries, none]
    exact (Decides.pure _).iff (iff_of_true trivial fun j low high => by omega)
  | succ count ih =>
    have window := fit.window
    have within : table < c.ram.pages := by omega
    have read :
        (c.manager t).memory.ram.entryAt (Pfn.base table) slot = .ok (c.pte table slot) := by
      refine Ram.entryAt_eq ?_ within (by omega)
      rw [Pfn.toNat_base]
      omega
    rw [checkEntries]
    apply Decides.after read
    have ahead : slot < 1024 := by omega
    rw [forall_from_iff ahead, inUseFrom, card_filter_Ico _ ahead, ← Nat.add_assoc]
    cases zero : (c.pte table slot).isZero with
    | true =>
      -- an entry that is skipped is not valid, so the rule asks nothing of it
      have idle : c.Targets (c.pte table slot) := fun valid => by
        cases (Entry.not_isZero_of_valid valid).symm.trans zero
      exact (ih _ (by omega)).iff (iff_and_self.mpr fun _ => idle)
    | false =>
      exact (checkTarget_decides fit installed _).bind fun _ => ih _ (by omega)

theorem checkTable_decides {i : Nat} (hi : i < 1024) (ne : i ≠ 0x300) :
    Decides wide ((c.manager t).checkTable i) (∀ s, c.Table i s → c.Sound s) () := by
  have directory := fit.directory
  have database := fit.inside
  have large : 0xF < c.ram.pages := by omega
  have entry : (c.manager t).memory.ram.entryAt Ram.directory i = .ok (c.pde i) :=
    Ram.entryAt_eq (by decide +kernel) large hi
  rw [checkTable]
  apply Decides.after entry
  by_cases names : (c.pde i).namesTable = true
  · have rule : (∀ s, c.Table i s → c.Sound s) ↔ c.Sound (c.pde i).frame := by
      constructor
      · exact fun all => all _ ⟨hi, ne, names, rfl⟩
      · rintro sound s ⟨_, _, _, rfl⟩
        exact sound
    rw [if_pos names, rule]
    apply ((Decides.expect _ _ _).bind fun inside => Decides.after
      (recordInRam_eq fit installed (of_decide_eq_true inside))
      ((Decides.expect _ _ _).bind fun _ =>
        (checkEntries_decides fit installed 0 (of_decide_eq_true inside) rfl).bind fun _ =>
          Decides.expect _ _ _)).iff
    rw [decide_eq_true_eq, beq_iff_eq, Nat.zero_add, inUseFrom_zero]
    constructor
    · rintro ⟨inside, held, targets, used⟩
      exact ⟨inside, held, used.symm, fun j hj => targets j (Nat.zero_le j) hj⟩
    · intro sound
      exact ⟨sound.inside, sound.held, fun j _ hj => sound.targets j hj, sound.used.symm⟩
  · rw [if_neg names]
    exact (Decides.pure ()).iff (iff_of_true trivial fun s table => absurd table.names names)

end

/-! ### The whole check -/

lemma card_freePages_le (inside : ∀ b ∈ c.freeList.blocks, b.past ≤ highest + 1) :
    c.freePages.card ≤ highest + 1 := by
  have within : c.freePages ⊆ Finset.range (highest + 1) := by
    intro p free
    obtain ⟨b, hb, mem⟩ := mem_freePages.mp free
    exact Finset.mem_range.mpr (Nat.lt_of_lt_of_le mem.2 (inside b hb))
  exact (Finset.card_le_card within).trans_eq (Finset.card_range _)

lemma mem_tableIndices_iff {i : Nat} : i ∈ tableIndices ↔ i < 1024 ∧ i ≠ 0x300 := by
  rw [tableIndices, List.mem_filter, List.mem_range, bne_iff_ne]
  rfl

/-- Consistency, in the order of the check. -/
lemma consistent_iff : c.Consistent ↔ Spread c.parameters.highestPage none c.freeList.blocks ∧
    c.freeList.general + c.freeList.debugger = c.freePages.card ∧
    (∀ p, 0 ≤ p → p < c.parameters.highestPage + 1 →
      ((∃ b ∈ c.freeList.blocks, p ∈ b) ↔ (c.record p).busy = false)) ∧
    c.Counted ∧ ∀ i ∈ tableIndices, ∀ s, c.Table i s → c.Sound s := by
  constructor
  · intro h
    exact ⟨⟨h.positive, h.inside, h.apart, nofun⟩, h.pooled,
      fun p _ hp => h.split p (Nat.le_of_lt_succ hp), h.counted,
      fun i _ s table => h.sound i s table⟩
  · rintro ⟨spread, pooled, split, counted, sound⟩
    exact ⟨spread.positive, spread.inside, spread.apart, pooled,
      fun p hp => split p (Nat.zero_le p) (Nat.lt_succ_of_le hp), counted,
      fun i s table => sound i (mem_tableIndices_iff.mpr ⟨table.lt, table.ne⟩) s table⟩

lemma check_of_passes (passed : (c.manager t).checkAll = pure ()) :
    (c.manager t).check = .ok none := by
  rw [check, passed]
  rfl

lemma check_of_stops (stopped : (c.manager t).checkAll.Stops wide) :
    (∃ finding, (c.manager t).check = .ok (some finding)) ∨
      wide ∧ ∃ e, (c.manager t).check = .error e := by
  rcases stopped with ⟨finding, stopped⟩ | ⟨many, e, stopped⟩
  · refine Or.inl ⟨finding, ?_⟩
    rw [check, stopped]
    rfl
  · refine Or.inr ⟨many, e, ?_⟩
    rw [check, stopped]
    rfl

section
variable (fit : c.parameters.Fit) (installed : c.parameters.highestPage < c.ram.pages)
include fit installed

/-- The check goes through all rules, and ends for good only where the free blocks or the pools need
more than 32 bits. -/
theorem checkAll_decides
    (narrow : (∃ b ∈ c.freeList.blocks, 0x100000000 ≤ b.past) ∨
      0x100000000 ≤ c.freeList.general + c.freeList.debugger → wide) :
    Decides wide (c.manager t).checkAll c.Consistent () := by
  have window := fit.window
  have small : c.parameters.highestPage < 0xFFFFFFFF := by omega
  rw [checkAll, consistent_iff]
  apply (checkBlocks_decides small (fun b hb excess => narrow (Or.inl ⟨b, hb, excess⟩)) none).bind
  intro spread
  have few := card_freePages_le spread.inside
  have runs : Block.Runs c.freeList.blocks c.freePages :=
    ⟨spread.positive, spread.apart, fun p => mem_freePages⟩
  apply (checkPools_decides runs (by omega) fun excess => narrow (Or.inr excess)).bind
  intro pooled
  apply (checkPages_decides fit installed .zero (Nat.zero_add _) spread.apart).bind
  intro split
  apply ((Decides.expect _ _ _).iff (beq_iff_eq.trans tallied_eq_iff)).bind
  intro counted
  apply Decides.forM
  intro i mem
  obtain ⟨hi, ne⟩ := mem_tableIndices_iff.mp mem
  exact checkTable_decides fit installed hi ne

/-- The check finds nothing just where all is consistent. -/
theorem check_eq_none_iff : (c.manager t).check = .ok none ↔ c.Consistent := by
  have decides : Decides True (c.manager t).checkAll c.Consistent () :=
    checkAll_decides fit installed fun _ => trivial
  constructor
  · intro none
    by_contra broken
    rcases check_of_stops (decides.stops broken) with ⟨finding, found⟩ | ⟨_, e, ended⟩
    · cases none.symm.trans found
    · cases none.symm.trans ended
  · exact fun consistent => check_of_passes (decides.passes consistent)

/-- Where all numbers fit in 32 bits the check comes to an end. -/
theorem check_returns (blocks : ∀ b ∈ c.freeList.blocks, b.past < 0x100000000)
    (pools : c.freeList.general + c.freeList.debugger < 0x100000000) :
    ∃ result, (c.manager t).check = .ok result := by
  have decides : Decides False (c.manager t).checkAll c.Consistent () := by
    apply checkAll_decides fit installed
    rintro (⟨b, hb, excess⟩ | excess)
    · exact Nat.not_lt.mpr excess (blocks b hb)
    · exact Nat.not_lt.mpr excess pools
  by_cases consistent : c.Consistent
  · exact ⟨none, check_of_passes (decides.passes consistent)⟩
  · rcases check_of_stops (decides.stops consistent) with ⟨finding, found⟩ | ⟨never, _⟩
    · exact ⟨some finding, found⟩
    · exact never.elim

end

/-- Where the invariant holds and valid entries map busy pages, the check finds nothing. -/
theorem check_eq (h : c.Kept) (targeted : c.Targeted) : (c.manager t).check = .ok none :=
  (check_eq_none_iff h.fit h.installed).mpr (h.consistent targeted)

end Manager

end ConsoleMemory
