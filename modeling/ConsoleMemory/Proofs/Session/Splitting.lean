import ConsoleMemory.Proofs.Session.Undoing

/-!
# Committing a range in two steps

A range that can be committed at once can be committed in two parts as well, and
the tables come to lie in the same pages, since each takes the highest page there
is (`Descends.frame_eq`). But all tables of one call get the type of the address
where its range begins. So the tables that the second part adds get another type
where one part begins in user space and the other does not, and that is all that
may differ (`split_commit_retypes`).
-/

namespace ConsoleMemory

namespace VirtualAddress

variable {va : VirtualAddress} {n k : Nat}

lemma toNat_second (inside : va.toNat + n < 0x100000000) :
    Address.toNat (va + n) = va.toNat + n := by
  rw [Address.toNat_add]
  omega

/-- The spans of a range are those of its two parts. -/
lemma spans_add (inside : va.toNat + n < 0x100000000) :
    va.spans (n + k) = va.spans n ∪ spans (va + n) k := by
  rw [spans, spans, spans, toNat_second inside, ← Finset.image_union,
    Finset.Ico_union_Ico_eq_Ico (Nat.le_add_right _ _) (Nat.le_add_right _ _), Nat.add_assoc]

/-- A span that only the second part meets comes after all that the first part meets. -/
lemma lt_of_mem_spans {i j : Nat} (inside : va.toNat + n < 0x100000000) (first : i ∈ va.spans n)
    (second : j ∈ spans (va + n) k) (out : j ∉ va.spans n) : i < j := by
  obtain ⟨a, ha, rfl⟩ := Finset.mem_image.mp first
  obtain ⟨b, hb, rfl⟩ := Finset.mem_image.mp second
  rw [Finset.mem_Ico] at ha
  rw [toNat_second inside, Finset.mem_Ico] at hb
  refine Nat.lt_of_le_of_ne (Nat.div_le_div_right (by omega)) fun same => out ?_
  exact Finset.mem_image.mpr ⟨a, Finset.mem_Ico.mpr ha, same⟩

end VirtualAddress

namespace Manager

/-- The record of a new page table says no more than its type. -/
lemma recordFor_table {t : PageType} (isTable : t.isPageTable = true) (entry : VirtualAddress) :
    recordFor t entry = .busyAs t := by
  rw [recordFor, if_pos isTable]
  cases t with
  | virtualPageTable => decide
  | systemPageTable => decide
  | _ => cases isTable

end Manager

namespace Machine

variable {c c₁ c₂ d : Machine} {A B I M O O₁ O₂ : Finset Nat} {i : Nat} {old new : PageType}

/-! ### The pages of the tables -/

/-- Above the table of directory entry `i` lie just those of the entries before it. -/
lemma Descends.card_above (top : c₁.Descends I) (w : c₁.Without c I O) (h : c₁.Ordered)
    (hi : i ∈ I) : (c.lowPages.filter fun p => (c₁.pde i).frame < p).card =
      (I.filter fun k => k < i).card := by
  have above : (c.lowPages.filter fun p => (c₁.pde i).frame < p) =
      (I.filter fun k => k < i).image fun k => (c₁.pde k).frame := by
    ext p
    rw [Finset.mem_filter, w.lowPages_eq h, Finset.mem_union, mem_tablesOf, Finset.mem_image]
    constructor
    · rintro ⟨free | ⟨k, hk, rfl⟩, lt⟩
      · exact absurd (top.above i hi p free) (Nat.lt_asymm lt)
      · refine ⟨k, Finset.mem_filter.mpr ⟨hk, ?_⟩, rfl⟩
        rcases Nat.lt_trichotomy k i with before | rfl | after
        · exact before
        · exact absurd lt (Nat.lt_irrefl _)
        · exact absurd (top.order i hi k hk after) (Nat.lt_asymm lt)
    · rintro ⟨k, mem, rfl⟩
      obtain ⟨hk, before⟩ := Finset.mem_filter.mp mem
      exact ⟨Or.inr ⟨k, hk, rfl⟩, top.order k hk i hi before⟩
  rw [above, Finset.card_image_of_injOn]
  exact (h.toMapped.injOn_frame w.tables).mono fun k mem => (Finset.mem_filter.mp mem).1

/-- Whoever takes the highest pages, one for each directory entry in turn, takes the same. -/
theorem Descends.frame_eq (top₁ : c₁.Descends I) (top₂ : c₂.Descends I) (w₁ : c₁.Without c I O₁)
    (w₂ : c₂.Without c I O₂) (h₁ : c₁.Ordered) (h₂ : c₂.Ordered) (hi : i ∈ I) :
    (c₂.pde i).frame = (c₁.pde i).frame := by
  have same := (top₁.card_above w₁ h₁ hi).trans (top₂.card_above w₂ h₂ hi).symm
  have low₁ : (c₁.pde i).frame ∈ c.lowPages := by
    rw [w₁.lowPages_eq h₁]
    exact Finset.mem_union_right _ (mem_tablesOf.mpr ⟨i, hi, rfl⟩)
  have low₂ : (c₂.pde i).frame ∈ c.lowPages := by
    rw [w₂.lowPages_eq h₂]
    exact Finset.mem_union_right _ (mem_tablesOf.mpr ⟨i, hi, rfl⟩)
  -- Of two pages the lower one has more pages above it.
  have fewer {p q : Nat} (lt : p < q) (mem : q ∈ c.lowPages) :
      (c.lowPages.filter fun r => q < r).card < (c.lowPages.filter fun r => p < r).card := by
    refine Finset.card_lt_card (Finset.ssubset_iff_of_subset ?_ |>.mpr ⟨q, ?_, ?_⟩)
    · exact Finset.monotone_filter_right _ fun r _ higher => Nat.lt_trans lt higher
    · exact Finset.mem_filter.mpr ⟨mem, lt⟩
    · exact fun again => Nat.lt_irrefl q (Finset.mem_filter.mp again).2
  rcases Nat.lt_trichotomy (c₂.pde i).frame (c₁.pde i).frame with lt | eq | lt
  · have := fewer lt low₁
    omega
  · exact eq
  · have := fewer lt low₂
    omega

/-! ### The two ways -/

/-- The machines agree but for the type of the tables of the directory entries in `M`: it is `old`
in `c` and `new` in `c'`. -/
structure Retypes (c c' : Machine) (M : Finset Nat) (old new : PageType) : Prop where
  blocks : c'.freeList.blocks = c.freeList.blocks
  general : c'.freeList.general = c.freeList.general
  debugger : c'.freeList.debugger = c.freeList.debugger
  directory : ∀ i < 1024, c'.pde i = c.pde i
  retyped : ∀ i ∈ M, c.record (c.pde i).frame = .busyAs old ∧
    c'.record (c.pde i).frame = .busyAs new
  records : ∀ p ≤ c.parameters.highestPage, p ∉ c.tablesOf M → c'.record p = c.record p
  usage : ∀ t, c'.usage.count t + (if t = old then M.card else 0) =
    c.usage.count t + if t = new then M.card else 0
  size : c'.ram.size = c.ram.size
  memory : ∀ a < c.ram.size, (a / 4096 < c.parameters.databasePage ∨
    c.parameters.databasePage + c.parameters.databasePages ≤ a / 4096) →
    c'.ram.byteAt a = c.ram.byteAt a

/-- The machine `c'` has an empty table for each directory entry in `I`, where `c` has none, that of
entry `i` of type `type i`. -/
structure Acquires (c c' : Machine) (type : Nat → PageType) (I : Finset Nat) : Prop where
  without : c'.Without c I (c'.tablesOf I)
  entry : ∀ i ∈ I, c'.pde i = Entry.tableEntry (c'.pde i).frame
  blank : ∀ i ∈ I, ∀ j < 1024, c'.pte (c'.pde i).frame j = .zero
  record : ∀ i ∈ I, c'.record (c'.pde i).frame = .busyAs (type i)
  descends : c'.Descends I

variable {T U : PageType} {τ τ₁ τ₂ : Nat → PageType}

lemma Gains.acquires (gains : c.Gains c₁ T I) (isTable : T.isPageTable = true) :
    c.Acquires c₁ (fun _ => T) I :=
  ⟨gains.without, gains.entry, gains.blank, fun i hi =>
    (gains.record i hi).trans (Manager.recordFor_table isTable _), gains.descends⟩

/-- Further tables are gained, for directory entries that come after. -/
theorem Acquires.gains (first : c.Acquires d τ A) (second : d.Gains c₂ U M)
    (isTable : U.isPageTable = true) (h : c₂.Kept) (after : ∀ i ∈ A, ∀ j ∈ M, i < j) :
    c.Acquires c₂ (fun i => if i ∈ A then τ i else U) (A ∪ M) := by
  have w := second.without
  have old {i : Nat} (hi : i ∈ A) : i ∈ c₂.tableIndices ∧ i ∉ M := by
    have mem := first.without.tables hi
    rw [w.tableIndices_eq] at mem
    exact Finset.mem_sdiff.mp mem
  have pde {i : Nat} (hi : i ∈ A) : d.pde i = c₂.pde i := by
    rw [w.pde i (table_of_mem (old hi).1).lt, if_neg (old hi).2]
  have apart {i : Nat} (hi : i ∈ A) : (c₂.pde i).frame ∉ c₂.tablesOf M :=
    w.frame_notMem_tablesOf h.toMapped (old hi).1 (old hi).2
  have late {i : Nat} (hi : i ∈ M) : i ∉ A := fun early => Nat.lt_irrefl i (after i early i hi)
  have whole : c₂.Without c (A ∪ M) (c₂.tablesOf (A ∪ M)) := by
    have both := w.trans first.without
    rwa [Finset.union_comm M, w.tablesOf_eq first.without.tables, ← tablesOf_union,
      Finset.union_comm M] at both
  refine ⟨whole, fun i hi => ?_, fun i hi j hj => ?_, fun i hi => ?_,
    first.descends.union second.descends w h.toOrdered first.without.tables after⟩
  · rcases Finset.mem_union.mp hi with hi | hi
    · rw [← pde hi]
      exact first.entry i hi
    · exact second.entry i hi
  · rcases Finset.mem_union.mp hi with hi | hi
    · have table := table_of_mem (old hi).1
      rw [← w.pte _ (h.toMapped.lt_pages table) (Or.inl (h.toMapped.lt_database table))
        (h.apart i _ table) (apart hi) j hj, ← pde hi]
      exact first.blank i hi j hj
    · exact second.blank i hi j hj
  · rcases Finset.mem_union.mp hi with hi | hi
    · have table := table_of_mem (old hi).1
      have same := w.record _ (h.toWired.table_le table)
      rw [if_neg (apart hi)] at same
      rw [if_pos hi, ← same, ← pde hi]
      exact first.record i hi
    · rw [if_neg (late hi), second.record i hi]
      exact Manager.recordFor_table isTable _

namespace Acquires

variable (h₁ : c.Acquires c₁ τ₁ I) (h₂ : c.Acquires c₂ τ₂ I) (k₁ : c₁.Kept) (k₂ : c₂.Kept)
include h₁ h₂ k₁ k₂

/-- The directory is the same. -/
lemma pde_eq (hi : i < 1024) : c₂.pde i = c₁.pde i := by
  by_cases mem : i ∈ I
  · rw [h₂.entry i mem, h₁.entry i mem, h₁.descends.frame_eq h₂.descends h₁.without h₂.without
      k₁.toOrdered k₂.toOrdered mem]
  · have one := h₁.without.pde i hi
    have two := h₂.without.pde i hi
    rw [if_neg mem] at one two
    rw [← one, ← two]

lemma tablesOf_eq : c₂.tablesOf I = c₁.tablesOf I :=
  tablesOf_congr fun _ hi => h₁.pde_eq h₂ k₁ k₂ (table_of_mem (h₁.without.tables hi)).lt

omit k₁ k₂ in
lemma parameters_eq : c₂.parameters = c₁.parameters :=
  h₂.without.parameters.symm.trans h₁.without.parameters

omit k₁ k₂ in
lemma size_eq : c₂.ram.size = c₁.ram.size := h₂.without.size.symm.trans h₁.without.size

/-- The records are the same but for the types of the new tables. -/
lemma record_eq {p : Nat} (hp : p ≤ c₁.parameters.highestPage)
    (types : ∀ i ∈ I, (c₁.pde i).frame = p → τ₂ i = τ₁ i) : c₂.record p = c₁.record p := by
  by_cases new : p ∈ c₁.tablesOf I
  · obtain ⟨i, hi, rfl⟩ := mem_tablesOf.mp new
    have same := h₁.pde_eq h₂ k₁ k₂ (table_of_mem (h₁.without.tables hi)).lt
    have record := h₂.record i hi
    rw [same] at record
    rw [record, h₁.record i hi, types i hi rfl]
  · have one := h₁.without.record p hp
    have two := h₂.without.record p (by rwa [h₁.parameters_eq h₂])
    rw [if_neg new] at one
    rw [h₁.tablesOf_eq h₂ k₁ k₂, if_neg new] at two
    rw [← one, ← two]

lemma idlePages_eq : c₂.idlePages = c₁.idlePages := by
  have one := h₁.without.idlePages_eq k₁.toOrdered
  have two := h₂.without.idlePages_eq k₂.toOrdered
  have apart₁ := k₁.disjoint_tablesOf h₁.without.tables
  have apart₂ := k₂.disjoint_tablesOf h₂.without.tables
  rw [h₁.tablesOf_eq h₂ k₁ k₂] at two apart₂
  rw [← Finset.union_sdiff_cancel_right apart₁, ← Finset.union_sdiff_cancel_right apart₂, ← one,
    ← two]

/-- Bytes outside of the database are the same. -/
lemma byteAt_eq {a : Nat} (inside : a < c₁.ram.size)
    (outside : a / 4096 < c₁.parameters.databasePage ∨
      c₁.parameters.databasePage + c₁.parameters.databasePages ≤ a / 4096) :
    c₂.ram.byteAt a = c₁.ram.byteAt a := by
  have size := c₁.ram.size_eq
  have index : a % 4096 / 4 < 1024 := by omega
  have entry : c₂.pte (a / 4096) (a % 4096 / 4) = c₁.pte (a / 4096) (a % 4096 / 4) := by
    by_cases directory : a / 4096 = 0xF
    · rw [directory]
      exact h₁.pde_eq h₂ k₁ k₂ index
    by_cases new : a / 4096 ∈ c₁.tablesOf I
    · obtain ⟨i, hi, frame⟩ := mem_tablesOf.mp new
      have same := h₁.pde_eq h₂ k₁ k₂ (table_of_mem (h₁.without.tables hi)).lt
      have zero := h₂.blank i hi _ index
      rw [same, frame] at zero
      rw [zero, ← frame]
      exact (h₁.blank i hi _ index).symm
    · have small : a / 4096 < c₁.ram.pages := by omega
      have pages : c₂.ram.pages = c₁.ram.pages := by
        rw [Ram.pages, Ram.pages, h₁.size_eq h₂]
      have one := h₁.without.pte _ small outside directory new _ index
      have two := h₂.without.pte _ (pages ▸ small) (by rwa [h₁.parameters_eq h₂]) directory
        (by rwa [h₁.tablesOf_eq h₂ k₁ k₂]) _ index
      rw [← one, ← two]
  exact Ram.byteAt_eq_of_word (congrArg Entry.bits entry)

omit h₂ k₂ in
/-- Each new table is counted under its type. -/
lemma count_usage (h : c.Ordered) (t : PageType) :
    c₁.usage.count t = c.usage.count t + (I.filter fun i => τ₁ i = t).card := by
  rw [h₁.without.count_usage k₁.toOrdered h]
  refine congrArg (_ + Finset.card ·) (Finset.filter_congr fun i hi => ?_)
  rw [h₁.record i hi, PfnRecord.pageType_busyAs]

/-- Tables that are acquired in two ways differ at most in their types. -/
theorem retypes (h : c.Ordered) (sub : M ⊆ I) (types : ∀ i ∈ I, i ∉ M → τ₂ i = τ₁ i)
    (olds : ∀ i ∈ M, τ₁ i = old) (news : ∀ i ∈ M, τ₂ i = new) : c₁.Retypes c₂ M old new := by
  have pde {i : Nat} (hi : i < 1024) := h₁.pde_eq h₂ k₁ k₂ hi
  have debugger : c₂.freeList.debugger = c₁.freeList.debugger :=
    h₂.without.debugger.symm.trans h₁.without.debugger
  have runs := k₂.free.runs
  have balanced := k₂.free.balanced
  rw [h₁.idlePages_eq h₂ k₁ k₂] at runs balanced
  refine ⟨runs.unique k₁.free.runs, ?_, debugger, fun i hi => pde hi, fun i hi => ?_,
    fun p hp out => ?_, fun t => ?_, h₁.size_eq h₂,
    fun a inside outside => h₁.byteAt_eq h₂ k₁ k₂ inside outside⟩
  · have := k₁.free.balanced
    omega
  · have record := h₂.record i (sub hi)
    rw [pde (table_of_mem (h₁.without.tables (sub hi))).lt, news i hi] at record
    rw [h₁.record i (sub hi), olds i hi]
    exact ⟨rfl, record⟩
  · refine h₁.record_eq h₂ k₁ k₂ hp fun i hi frame => types i hi fun mem => out ?_
    exact mem_tablesOf.mpr ⟨i, mem, frame⟩
  · -- Only the tables in `M` count differently.
    have split (τ : Nat → PageType) : (I.filter fun i => τ i = t).card =
        ((I \ M).filter fun i => τ i = t).card + (M.filter fun i => τ i = t).card := by
      rw [← Finset.card_union_of_disjoint (Finset.disjoint_filter_filter Finset.sdiff_disjoint),
        ← Finset.filter_union, Finset.sdiff_union_of_subset sub]
    have rest : ((I \ M).filter fun i => τ₂ i = t) = (I \ M).filter fun i => τ₁ i = t :=
      Finset.filter_congr fun i hi => by
        obtain ⟨hi, out⟩ := Finset.mem_sdiff.mp hi
        rw [types i hi out]
    have one (τ : Nat → PageType) (type : PageType) (all : ∀ i ∈ M, τ i = type) :
        (M.filter fun i => τ i = t).card = if t = type then M.card else 0 := by
      split
      · next same =>
        rw [Finset.filter_true_of_mem fun i hi => (all i hi).trans same.symm]
      · next other =>
        rw [Finset.filter_false_of_mem fun i hi is => other (is.symm.trans (all i hi)),
          Finset.card_empty]
    rw [h₁.count_usage k₁ h, h₂.count_usage k₂ h, split τ₁, split τ₂, rest,
      one τ₁ old olds, one τ₂ new news]
    omega

end Acquires

/-- Tables of another type make another state. -/
theorem Retypes.sameState_iff (h : c.Retypes d M old new) (fit : c.parameters.Fit)
    (parameters : d.parameters = c.parameters) : c.SameState d ↔ new = old ∨ M = ∅ := by
  constructor
  · intro same
    have count := h.usage old
    rw [same.usage, if_pos rfl] at count
    by_cases eq : new = old
    · exact Or.inl eq
    · rw [if_neg (Ne.symm eq)] at count
      exact Or.inr (Finset.card_eq_zero.mp (by omega))
  · intro settled
    have usage : d.usage = c.usage := by
      refine Usage.ext_count fun t => ?_
      have count := h.usage t
      rcases settled with rfl | rfl
      · omega
      · simpa using count
    have records (p : Nat) (hp : p ≤ c.parameters.highestPage) : d.record p = c.record p := by
      by_cases new : p ∈ c.tablesOf M
      · obtain ⟨i, hi, rfl⟩ := mem_tablesOf.mp new
        rcases settled with rfl | rfl
        · rw [(h.retyped i hi).1, (h.retyped i hi).2]
        · exact absurd hi (Finset.notMem_empty i)
      · exact h.records p hp new
    have accounts : c.SameAccounts d := ⟨h.blocks, h.general, h.debugger, usage⟩
    exact accounts.sameState fit parameters h.size records h.memory

end Machine

namespace Manager

open Machine

variable {c d : Machine} {A : Finset Nat} {T : PageType} {answer : Except CommitError Unit}

/-- With pages enough, committing succeeds. -/
lemma Commits.gains (commits : Commits c d T A answer) (enough : A.card ≤ c.freeList.general)
    (low : A.card ≤ c.lowPages.card) : answer = .ok () ∧ c.Gains d T A := by
  rcases answer with (⟨requested, available⟩ | _) | ⟨⟩
  · exact absurd commits.1 (Nat.not_lt_of_le enough)
  · exact absurd commits.2.1 (Nat.not_lt_of_le low)
  · exact ⟨rfl, commits.2.2⟩

end Manager

namespace Machine

open VirtualAddress

variable {c d : Machine} {T : PageType} {va : VirtualAddress} {n k : Nat}

/-- Directory entries that only the second part of a range needs and that map nothing. -/
def laterGaps (c : Machine) (va : VirtualAddress) (n k : Nat) : Finset Nat :=
  c.gaps ∩ (spans (va + n) k \ va.spans n)

/-- After the first part these are what the second part lacks. -/
lemma Gains.laterGaps_eq (gains : c.Gains d T (c.gaps ∩ va.spans n)) :
    d.gaps ∩ spans (va + n) k = c.laterGaps va n k := by
  have union := gains.without.gaps_eq
  have apart := Finset.disjoint_left.mp (disjoint_gaps gains.without.tables)
  ext i
  rw [laterGaps, Finset.mem_inter, Finset.mem_inter, Finset.mem_sdiff]
  constructor
  · rintro ⟨gap, second⟩
    have before : i ∈ c.gaps := union ▸ Finset.mem_union_left _ gap
    exact ⟨before, second, fun first => apart gap (Finset.mem_inter.mpr ⟨before, first⟩)⟩
  · rintro ⟨gap, second, out⟩
    rw [union] at gap
    refine ⟨(Finset.mem_union.mp gap).resolve_right fun gained => ?_, second⟩
    exact out (Finset.mem_inter.mp gained).2

/-- The gaps of a range are those of its first part and the later ones. -/
lemma gaps_inter_spans_add (c : Machine) (inside : va.toNat + n < 0x100000000) :
    c.gaps ∩ va.spans (n + k) = c.gaps ∩ va.spans n ∪ c.laterGaps va n k := by
  rw [spans_add inside, laterGaps, ← Finset.inter_union_distrib_left,
    Finset.union_sdiff_self_eq_union]

lemma disjoint_laterGaps (c : Machine) (va : VirtualAddress) (n k : Nat) :
    Disjoint (c.gaps ∩ va.spans n) (c.laterGaps va n k) :=
  Finset.disjoint_left.mpr fun _ first later =>
    (Finset.mem_sdiff.mp (Finset.mem_inter.mp later).2).2 (Finset.mem_inter.mp first).2

end Machine

/-- What was committed at once can be committed in two steps. -/
theorem Session.Rests.commit_split {s s₁ : Session} {c : Machine} {va : VirtualAddress} {n k : Nat}
    (h : s.Rests c none) (fits : va.toNat + (n + k) ≤ 0x100000000) (some : 0 < k)
    (committed : Manager.commitTables va (n + k) s = .ok (.ok ()) s₁) :
    ∃ s₂ s₃, Manager.commitTables va n s = .ok (.ok ()) s₂ ∧
      Manager.commitTables (va + n) k s₂ = .ok (.ok ()) s₃ ∧
      s₁.machine.Retypes s₃.machine (c.laterGaps va n k) (Manager.tableType va)
        (Manager.tableType (va + n)) ∧
      s₁.machine.parameters.Fit ∧ s₃.machine.parameters = s₁.machine.parameters := by
  have inside : va.toNat + n < 0x100000000 := by omega
  have kept : c.Kept := h.stands
  have second : Address.toNat (va + n) + k ≤ 0x100000000 := by
    rw [VirtualAddress.toNat_second inside]
    omega
  obtain ⟨answer, t, c₁, ran, rests₁, commits⟩ := h.commit fits
  cases committed.symm.trans ran
  obtain ⟨enough, low, gains₁⟩ := commits
  rw [c.gaps_inter_spans_add inside] at enough low gains₁
  rw [Finset.card_union_of_disjoint (c.disjoint_laterGaps va n k)] at enough low
  obtain ⟨answer₂, s₂, c₂, ran₂, rests₂, commits₂⟩ := h.commit (n := n) (Nat.le_of_lt inside)
  obtain ⟨rfl, gains₂⟩ := commits₂.gains (by omega) (by omega)
  have general := gains₂.without.general_eq rests₂.stands kept
  have lower := gains₂.without.card_lowPages rests₂.stands.toOrdered
  obtain ⟨answer₃, s₃, c₃, ran₃, rests₃, commits₃⟩ := rests₂.commit second
  rw [gains₂.laterGaps_eq] at commits₃
  obtain ⟨rfl, gains₃⟩ := commits₃.gains (by omega) (by omega)
  have isTable := Manager.isPageTable_tableType va
  have once := gains₁.acquires isTable
  have twice := (gains₂.acquires isTable).gains gains₃ (Manager.isPageTable_tableType _)
    rests₃.stands fun i first j later => by
      obtain ⟨_, second⟩ := Finset.mem_inter.mp later
      obtain ⟨second, out⟩ := Finset.mem_sdiff.mp second
      exact VirtualAddress.lt_of_mem_spans inside (Finset.mem_inter.mp first).2 second out
  refine ⟨s₂, s₃, ran₂, ran₃, ?_⟩
  rw [rests₁.machine_eq, rests₃.machine_eq]
  refine ⟨once.retypes twice rests₁.stands rests₃.stands kept.toOrdered Finset.subset_union_right
    (fun i mem out => ?_) (fun _ _ => rfl) fun i later => ?_, rests₁.stands.fit,
    once.parameters_eq twice⟩
  · exact if_pos ((Finset.mem_union.mp mem).resolve_right out)
  · exact if_neg (Finset.disjoint_right.mp (c.disjoint_laterGaps va n k) later)

/-- In every state of a run, a range that can be committed at once can be committed in two parts,
and what comes of it differs at most in the type of the tables that only the second part needs: at
once they get the type of where the first part begins, in two steps that of where the second does.
So the state is the same just where these types are, or where there are no such tables. -/
theorem split_commit_retypes (l : Layout) {memory : GuestMemory}
    (size : l.parameters.ramSize ≤ memory.ram.size) (fresh : memory.tlb.Fresh)
    (trail : Array Note) :
    ∃ m s, Manager.create memory l l.parameters = .ok m ∧ Manager.boot ⟨m, trail⟩ = .ok () s ∧
      ∀ events s', Run s events none s' →
        ∀ (va : VirtualAddress) n k, 0 < k → va.toNat + (n + k) ≤ 0x100000000 →
          ∀ s₁, Manager.commitTables va (n + k) s' = .ok (.ok ()) s₁ →
            ∃ s₂ s₃, Manager.commitTables va n s' = .ok (.ok ()) s₂ ∧
              Manager.commitTables (va + n) k s₂ = .ok (.ok ()) s₃ ∧
              s₁.machine.Retypes s₃.machine (s'.machine.laterGaps va n k) (Manager.tableType va)
                (Manager.tableType (va + n)) ∧
              (s₁.machine.SameState s₃.machine ↔
                Manager.tableType (va + n) = Manager.tableType va ∨
                  s'.machine.laterGaps va n k = ∅) := by
  obtain ⟨c, comes⟩ := Session.exists_boot l size trail
  obtain ⟨m, s, created, booted, rests⟩ := comes memory.tlb fresh
  refine ⟨m, s, created, booted, fun events s' run va n k some fits s₁ committed => ?_⟩
  obtain ⟨c', rests', _⟩ := rests.run run
  obtain ⟨s₂, s₃, ran₂, ran₃, retypes, fit, parameters⟩ := rests'.commit_split fits some committed
  rw [rests'.machine_eq]
  exact ⟨s₂, s₃, ran₂, ran₃, retypes, retypes.sameState_iff fit parameters⟩

/-- On an arcade machine with used memory, three spans of user space are committed at once, and in
two parts that meet inside of the second. -/
theorem split_commit_retypes_arcade :
    ∃ m s s₁ s₂ s₃, Manager.create
        ⟨⟨0x8000000, .uniform 0x5A, by decide, by decide, by decide⟩, .caching []⟩
        .arcade Layout.arcade.parameters = .ok m ∧ Manager.boot ⟨m, #[]⟩ = .ok () s ∧
      Manager.commitTables (.ofNat 0x3FF000) 0x502000 s = .ok (.ok ()) s₁ ∧
      Manager.commitTables (.ofNat 0x3FF000) 0x2000 s = .ok (.ok ()) s₂ ∧
      Manager.commitTables (.ofNat 0x401000) 0x500000 s₂ = .ok (.ok ()) s₃ ∧
      s₁.machine.SameState s₃.machine := by
  have size : Layout.arcade.parameters.ramSize ≤ (⟨⟨0x8000000, .uniform 0x5A, by decide, by decide,
      by decide⟩, .caching []⟩ : GuestMemory).ram.size := by decide
  obtain ⟨m, s, created, booted, splits⟩ := split_commit_retypes .arcade size Tlb.fresh_caching #[]
  have commits := Layout.test_of_passes created booted (fun s =>
    s.passes (Manager.commitTables (.ofNat 0x3FF000) 0x502000) fun answer _ =>
      answer == .ok ()) (by decide +kernel)
  obtain ⟨answer, s₁, ran, answered⟩ := Session.exists_of_passes commits
  cases eq_of_beq answered
  obtain ⟨s₂, s₃, ran₂, ran₃, _, same⟩ :=
    splits [] s .refl (.ofNat 0x3FF000) 0x2000 0x500000 (by decide) (by decide) s₁ ran
  have user : Manager.tableType ((.ofNat 0x3FF000 : VirtualAddress) + (0x2000 : Nat)) =
      Manager.tableType (.ofNat 0x3FF000) := by decide
  exact ⟨m, s, s₁, s₂, s₃, created, booted, ran, ran₂, ran₃, same.mpr (Or.inl user)⟩

/-- Two spans are committed that lie around the start of kernel space, at once and one by one. At
once the second table counts as one of user space. -/
theorem split_commit_differs_retail :
    ∃ m s s₁ s₂ s₃, Manager.create
        ⟨⟨0x4000000, .uniform 0x5A, by decide, by decide, by decide⟩, .caching []⟩
        .retail Layout.retail.parameters = .ok m ∧ Manager.boot ⟨m, #[]⟩ = .ok () s ∧
      Manager.commitTables (.ofNat 0x7FC00000) 0x800000 s = .ok (.ok ()) s₁ ∧
      Manager.commitTables (.ofNat 0x7FC00000) 0x400000 s = .ok (.ok ()) s₂ ∧
      Manager.commitTables (.ofNat 0x80000000) 0x400000 s₂ = .ok (.ok ()) s₃ ∧
      s₁.manager.used .virtualPageTable = 2 ∧ s₃.manager.used .virtualPageTable = 1 := by
  have size : Layout.retail.parameters.ramSize ≤ (⟨⟨0x4000000, .uniform 0x5A, by decide, by decide,
      by decide⟩, .caching []⟩ : GuestMemory).ram.size := by decide
  obtain ⟨c, comes⟩ := Session.exists_boot .retail size #[]
  obtain ⟨m, s, created, booted, rests⟩ := comes _ Tlb.fresh_caching
  have counts := Layout.test_of_passes created booted (fun s =>
    s.passes (Manager.commitTables (.ofNat 0x7FC00000) 0x800000) fun answer s₁ =>
      answer == .ok () && s₁.manager.used .virtualPageTable == 2 &&
      s.passes (Manager.commitTables (.ofNat 0x7FC00000) 0x400000) fun _ s₂ =>
        s₂.passes (Manager.commitTables (.ofNat 0x80000000) 0x400000) fun _ s₃ =>
          s₃.manager.used .virtualPageTable == 1) (by decide +kernel)
  obtain ⟨answer, s₁, ran, counted⟩ := Session.exists_of_passes counts
  simp only [Bool.and_eq_true, beq_iff_eq] at counted
  obtain ⟨⟨rfl, two⟩, parts⟩ := counted
  obtain ⟨_, s₂, first, part⟩ := Session.exists_of_passes parts
  obtain ⟨_, s₃, last, one⟩ := Session.exists_of_passes part
  obtain ⟨_, _, ran₂, ran₃, _⟩ :=
    rests.commit_split (n := 0x400000) (k := 0x400000) (by decide) (by decide) ran
  cases first.symm.trans ran₂
  have second : (.ofNat 0x7FC00000 : VirtualAddress) + (0x400000 : Nat) = .ofNat 0x80000000 := rfl
  rw [second] at ran₃
  cases last.symm.trans ran₃
  exact ⟨m, s, s₁, s₂, s₃, created, booted, ran, ran₂, ran₃, two, eq_of_beq one⟩

end ConsoleMemory
