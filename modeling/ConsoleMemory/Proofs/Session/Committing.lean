import ConsoleMemory.Proofs.Session.Runs

/-!
# Committing in a session

In every state of a run, committing the tables of a range succeeds just where the
pages suffice, and then adds the tables that are missing (`commit_is_exact`).
Where it fails, also in the midst of the range, nothing of it stays
(`failed_commit_leaves_nothing`).
-/

namespace ConsoleMemory

namespace Machine

variable {c c' : Machine} {M : Finset Nat} {type : PageType}

/-- What the manager keeps account of is the same in both machines: the free pages, the counters,
the directory and the records. Memory differs at most in pages that are free in both. -/
structure SameBooks (c c' : Machine) : Prop extends c.SameAccounts c' where
  directory : ∀ i < 1024, c'.pde i = c.pde i
  records : ∀ p ≤ c.parameters.highestPage, c'.record p = c.record p
  size : c'.ram.size = c.ram.size
  memory : ∀ a < c.ram.size, c'.ram.byteAt a ≠ c.ram.byteAt a →
    a / 4096 ∈ c.freeList ∧ a / 4096 ∈ c'.freeList

/-- The machine `c'` has new tables of one type for the directory entries in `M`, the table of entry
`i` in page `page i`, which was free and low enough. All else is as in `c`. -/
structure GainsTables (c c' : Machine) (type : PageType) (M : Finset Nat) (page : Nat → Nat) :
    Prop where
  distinct : Set.InjOn page M
  free : ∀ i ∈ M, page i ∈ c.freeList ∧ page i ≤ c.parameters.contiguousLimit
  entry : ∀ i ∈ M, Entry.kernelTable (page i) = .ok (c'.pde i)
  cleared : ∀ i ∈ M, ∀ k < 4096, c'.ram.byteAt (page i * 4096 + k) = 0
  marked : ∀ i ∈ M, (c'.record (page i)).busy = true ∧ (c'.record (page i)).pageType = type ∧
    (c'.record (page i)).entriesUsed = 0
  pages : ∀ p, p ∈ c'.freeList ↔ p ∈ c.freeList ∧ p ∉ M.image page
  general : c'.freeList.general + M.card = c.freeList.general
  debugger : c'.freeList.debugger = c.freeList.debugger
  usage : ∀ t, c'.usage.count t = c.usage.count t + if t = type then M.card else 0
  directory : ∀ i < 1024, i ∉ M → c'.pde i = c.pde i
  records : ∀ p ≤ c.parameters.highestPage, p ∉ M.image page → c'.record p = c.record p
  size : c'.ram.size = c.ram.size
  memory : ∀ a < c.ram.size, a / 4096 ≠ 0xF → (a / 4096 < c.parameters.databasePage ∨
    c.parameters.databasePage + c.parameters.databasePages ≤ a / 4096) → a / 4096 ∉ M.image page →
    c'.ram.byteAt a = c.ram.byteAt a

/-- Machines that differ only in what free pages hold have the same books. -/
lemma DiffersIn.sameBooks (same : c.DiffersIn c' c.idlePages) (h : c.Kept) (h' : c'.Kept) :
    c.SameBooks c' := by
  refine ⟨same.sameAccounts h h', fun i hi => same.pde_eq hi, fun p hp => same.record_eq hp,
    same.size, fun a inside differs => ?_⟩
  have free : a / 4096 ∈ c.freeList := (h.free.runs.mem _).mp (by
    by_contra busy
    exact differs (same.byteAt_eq h.fit inside busy))
  exact ⟨free, (same.mem_freeList h h').mpr (Or.inl free)⟩

/-- The new tables are in pages that were free, and nothing else changes. -/
lemma Gains.gainsTables (gains : c.Gains c' type M) (isTable : type.isPageTable = true) (h : c.Kept)
    (h' : c'.Kept) : c.GainsTables c' type M fun i => (c'.pde i).frame := by
  have w := gains.without
  have table {i : Nat} (hi : i ∈ M) := table_of_mem (w.tables hi)
  have free (p : Nat) := w.mem_freeList h' h (p := p)
  have apart {p : Nat} (inside : p ∈ c'.tablesOf M) : p ∉ c'.freeList := fun again =>
    Finset.disjoint_right.mp (h'.disjoint_tablesOf w.tables) inside ((h'.free.runs.mem p).mpr again)
  have few := c'.ram.pages_le
  refine ⟨h'.toMapped.injOn_frame w.tables, fun i hi => ⟨?_, ?_⟩, fun i hi => ?_,
    fun i hi k hk => ?_, fun i hi => ?_, fun p => ?_, ?_, w.debugger.symm, fun t => ?_,
    fun i hi out => ?_, fun p hp out => ?_, w.size.symm, fun a inside apart outside out => ?_⟩
  · exact (free _).mpr (Or.inr (mem_tablesOf.mpr ⟨i, hi, rfl⟩))
  · rw [w.parameters]
    exact h'.low i _ (table hi)
  · have := h'.toMapped.lt_pages (table hi)
    rw [Entry.kernelTable_eq (by omega), ← gains.entry i hi]
  · have := h'.toMapped.lt_pages (table hi)
    exact Ram.byteAt_of_word_zero (by omega) hk
      (congrArg Entry.bits (gains.blank i hi (k / 4) (by omega)))
  · rw [gains.record i hi]
    exact ⟨Manager.busy_recordFor _ _, Manager.pageType_recordFor _ _,
      Manager.entriesUsed_recordFor isTable _⟩
  · rw [free p]
    constructor
    · exact fun left => ⟨Or.inl left, fun inside => apart inside left⟩
    · exact fun ⟨either, out⟩ => either.resolve_right out
  · exact (w.general_eq h' h).symm
  · have types : (M.filter fun i => (c'.record (c'.pde i).frame).pageType = t) =
        if t = type then M else ∅ := by
      split
      · next same =>
        refine Finset.filter_true_of_mem fun i hi => ?_
        rw [gains.record i hi, same]
        exact Manager.pageType_recordFor _ _
      · next other =>
        refine Finset.filter_false_of_mem fun i hi is_type => other ?_
        rw [gains.record i hi] at is_type
        exact is_type.symm.trans (Manager.pageType_recordFor _ _)
    rw [w.count_usage h'.toOrdered h.toOrdered t, types]
    split <;> rfl
  · rw [w.pde i hi, if_neg out]
  · exact ((w.record p (by rwa [← w.parameters])).trans (if_neg out)).symm
  · rw [w.parameters] at outside
    exact (w.byteAt_eq (w.size ▸ inside) apart outside out).symm

/-- At least `n` pages that are low enough for page tables are free. -/
def HasLow (c : Machine) (n : Nat) : Prop :=
  ∃ F : Finset Nat, F.card = n ∧ ∀ p ∈ F, p ∈ c.freeList ∧ p ≤ c.parameters.contiguousLimit

/-- Committing the tables of the directory entries in `M` ends in `answer` and the machine `c'` just
as the free pages of `c` demand. -/
structure CommitsExactly (c c' : Machine) (type : PageType) (M : Finset Nat)
    (answer : Except CommitError Unit) : Prop where
  ok_iff : answer = .ok () ↔ M = ∅ ∨ M.card ≤ c.freeList.general ∧ c.HasLow M.card
  outOfMemory_iff : ∀ requested available, answer = .error (.outOfMemory requested available) ↔
    c.freeList.general < M.card ∧ requested = M.card ∧ available = c.freeList.general
  noFreeBlock_iff : answer = .error .noFreeBlock ↔
    M.card ≤ c.freeList.general ∧ ¬ c.HasLow M.card
  gains : answer = .ok () → ∃ page, c.GainsTables c' type M page

lemma Kept.hasLow_iff (h : c.Kept) {n : Nat} : c.HasLow n ↔ n ≤ c.lowPages.card := by
  constructor
  · rintro ⟨F, rfl, low⟩
    refine Finset.card_le_card fun p mem => mem_lowPages.mpr ⟨?_, (low p mem).2⟩
    exact (h.free.runs.mem p).mpr (low p mem).1
  · intro le
    obtain ⟨F, sub, card⟩ := Finset.exists_subset_card_eq le
    refine ⟨F, card, fun p mem => ?_⟩
    obtain ⟨idle, low⟩ := mem_lowPages.mp (sub mem)
    exact ⟨(h.free.runs.mem p).mp idle, low⟩

lemma Kept.commitsExactly {answer : Except CommitError Unit} (h : c.Kept) (h' : c'.Kept)
    (isTable : type.isPageTable = true) (commits : Manager.Commits c c' type M answer) :
    c.CommitsExactly c' type M answer := by
  have low := h.hasLow_iff (n := M.card)
  have none : M = ∅ → M.card = 0 := fun eq => eq ▸ Finset.card_empty
  rcases answer with (⟨requested, available⟩ | _) | ⟨⟩
  · obtain ⟨few, rfl, rfl, _⟩ := commits
    refine ⟨⟨nofun, ?_⟩, fun n m => ⟨?_, ?_⟩, ⟨nofun, ?_⟩, nofun⟩
    · rintro (eq | ⟨enough, _⟩)
      · have := none eq
        omega
      · omega
    · rintro ⟨⟩
      exact ⟨few, rfl, rfl⟩
    · rintro ⟨_, rfl, rfl⟩
      rfl
    · intro short
      omega
  · obtain ⟨enough, few, _⟩ := commits
    refine ⟨⟨nofun, ?_⟩, fun n m => ⟨nofun, ?_⟩, ⟨fun _ => ⟨enough, ?_⟩, fun _ => rfl⟩, nofun⟩
    · rintro (eq | ⟨_, has⟩)
      · have := none eq
        omega
      · have := low.mp has
        omega
    · intro short
      omega
    · intro has
      have := low.mp has
      omega
  · obtain ⟨enough, room, gains⟩ := commits
    refine ⟨⟨fun _ => Or.inr ⟨enough, low.mpr room⟩, fun _ => rfl⟩, fun n m => ⟨nofun, ?_⟩,
      ⟨nofun, fun short => absurd (low.mpr room) short.2⟩,
      fun _ => ⟨_, gains.gainsTables isTable h h'⟩⟩
    intro short
    omega

end Machine

namespace Session

variable {s s' : Session} {c : Machine} {va : VirtualAddress} {n : Nat}

/-- Committing the tables of a range returns, and the session rests again. -/
lemma Rests.commit (h : s.Rests c none) (fits : va.toNat + n ≤ 0x100000000) :
    ∃ answer s' c', Manager.commitTables va n s = .ok answer s' ∧ s'.Rests c' none ∧
      Manager.Commits c c' (Manager.tableType va) (c.gaps ∩ va.spans n) answer := by
  obtain ⟨answer, c', ran, kept, upholds, commits⟩ := Manager.commitTables_yields h.stands fits
  obtain ⟨s', ran, shows⟩ := h.toShows.step_ok ran
  exact ⟨answer, s', c', ran, ⟨shows, kept, upholds.targeted h.targeted⟩, commits⟩

end Session

/-- In every state of a run, where committing the tables of a range fails, be it before the first
page is taken or in the midst of the range, all is as it was but for the contents of free pages. -/
theorem failed_commit_leaves_nothing (l : Layout) {limit : Nat}
    (low : limit < l.parameters.databasePage)
    (room : l.parameters.databaseTables ≤ ((Finset.range (limit + 1)).erase 0xF).card)
    {memory : GuestMemory} (size : l.parameters.ramSize ≤ memory.ram.size)
    (fresh : memory.tlb.Fresh) (trail : Array Note) :
    ∃ m s, Manager.create memory l { l.parameters with contiguousLimit := limit } = .ok m ∧
      Manager.boot ⟨m, trail⟩ = .ok () s ∧ ∀ events s', Run s events none s' →
        s'.machine.parameters = { l.parameters with contiguousLimit := limit } ∧
        ∀ (va : VirtualAddress) n, va.toNat + n ≤ 0x100000000 →
          ∀ e s'', Manager.commitTables va n s' = .ok (.error e) s'' →
            s'.machine.SameBooks s''.machine ∧ s''.Coherent := by
  obtain ⟨m, s, created, booted, rest⟩ := Session.rests_after_runs l low room size fresh trail
  refine ⟨m, s, created, booted, fun events s' run => ?_⟩
  obtain ⟨parameters, rests⟩ := rest events s' run
  refine ⟨parameters, fun va n fits e s'' failed => ?_⟩
  obtain ⟨answer, s₁, c', ran, rests', commits⟩ := rests.commit fits
  cases failed.symm.trans ran
  rw [rests'.machine_eq]
  refine ⟨?_, rests'.coherent⟩
  rcases e with _ | _
  · exact commits.2.2.2.sameBooks rests.stands rests'.stands
  · exact commits.2.2.sameBooks rests.stands rests'.stands

/-- A development kit with one page left for page tables, which is given back when a range needs
two. -/
theorem failed_commit_leaves_nothing_debug :
    ∃ m s s', Manager.create ⟨⟨0x8000000, .uniform 0xA5, by decide, by decide, by decide⟩,
        .caching []⟩ .debug { Layout.debug.parameters with contiguousLimit := 2 } = .ok m ∧
      Manager.boot ⟨m, #[]⟩ = .ok () s ∧
      Manager.commitTables (.ofNat 0x3FF000) 0x2000 s = .ok (.error .noFreeBlock) s' ∧
      s.machine.SameBooks s'.machine ∧ s'.Coherent := by
  have low : 2 < Layout.debug.parameters.databasePage := by decide
  have size : Layout.debug.parameters.ramSize ≤ (⟨⟨0x8000000, .uniform 0xA5, by decide, by decide,
      by decide⟩, .caching []⟩ : GuestMemory).ram.size := by decide
  obtain ⟨m, s, created, booted, undone⟩ :=
    failed_commit_leaves_nothing .debug low (by decide) size Tlb.fresh_caching #[]
  have fails := Layout.test_of_passes created booted (fun s =>
    s.passes (Manager.commitTables (.ofNat 0x3FF000) 0x2000) fun answer _ =>
      answer == .error .noFreeBlock) (by decide +kernel)
  obtain ⟨answer, s', ran, answered⟩ := Session.exists_of_passes fails
  cases eq_of_beq answered
  exact ⟨m, s, s', created, booted, ran, (undone [] s .refl).2 _ _ (by decide) _ _ ran⟩

/-- In every state of a run, committing the tables of a range returns. It ends just as the free
pages demand, and where it succeeds, the missing tables are there and nothing else has changed. -/
theorem commit_is_exact (l : Layout) {limit : Nat} (low : limit < l.parameters.databasePage)
    (room : l.parameters.databaseTables ≤ ((Finset.range (limit + 1)).erase 0xF).card)
    {memory : GuestMemory} (size : l.parameters.ramSize ≤ memory.ram.size)
    (fresh : memory.tlb.Fresh) (trail : Array Note) :
    ∃ m s, Manager.create memory l { l.parameters with contiguousLimit := limit } = .ok m ∧
      Manager.boot ⟨m, trail⟩ = .ok () s ∧ ∀ events s', Run s events none s' →
        s'.machine.parameters = { l.parameters with contiguousLimit := limit } ∧
        ∀ (va : VirtualAddress) n, va.toNat + n ≤ 0x100000000 →
          ∃ answer s'', Manager.commitTables va n s' = .ok answer s'' ∧ s''.Coherent ∧
            s'.machine.CommitsExactly s''.machine (Manager.tableType va)
              (s'.machine.gaps ∩ va.spans n) answer := by
  obtain ⟨m, s, created, booted, rest⟩ := Session.rests_after_runs l low room size fresh trail
  refine ⟨m, s, created, booted, fun events s' run => ?_⟩
  obtain ⟨parameters, rests⟩ := rest events s' run
  refine ⟨parameters, fun va n fits => ?_⟩
  obtain ⟨answer, s'', c', ran, rests', commits⟩ := rests.commit fits
  refine ⟨answer, s'', ran, rests'.coherent, ?_⟩
  rw [rests'.machine_eq]
  exact rests.stands.commitsExactly rests'.stands (Manager.isPageTable_tableType va) commits

/-- A console of which the pages up to 0x1F may hold page tables. -/
theorem commit_is_exact_retail :
    ∃ m s, Manager.create ⟨⟨0x4000000, .uniform 0xFF, by decide, by decide, by decide⟩, .caching []⟩
        .retail { Layout.retail.parameters with contiguousLimit := 0x1F } = .ok m ∧
      Manager.boot ⟨m, #[]⟩ = .ok () s ∧ ∀ events s', Run s events none s' →
        s'.machine.parameters = { Layout.retail.parameters with contiguousLimit := 0x1F } ∧
        ∀ (va : VirtualAddress) n, va.toNat + n ≤ 0x100000000 →
          ∃ answer s'', Manager.commitTables va n s' = .ok answer s'' ∧ s''.Coherent ∧
            s'.machine.CommitsExactly s''.machine (Manager.tableType va)
              (s'.machine.gaps ∩ va.spans n) answer :=
  commit_is_exact .retail (by decide) (by decide) (by decide) Tlb.fresh_caching #[]

end ConsoleMemory
