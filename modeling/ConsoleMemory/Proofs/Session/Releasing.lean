import ConsoleMemory.Proofs.Session.Runs

/-!
# Releasing in a session

In every state of a run, releasing the tables of a range takes away just those that
hold no entry, and what was remembered through them is forgotten. So ranges may be
released in any order, and more than once (`release_is_exact`).
-/

namespace ConsoleMemory

namespace Machine

variable {c c' : Machine} {I : Finset Nat} {i : Nat}

/-- The machine `c'` lacks the tables of the directory entries in `I`: the entries and the records
of the tables are zero, and their pages are free. All else is as in `c`. -/
structure LosesTables (c c' : Machine) (I : Finset Nat) : Prop where
  distinct : Set.InjOn (fun i => (c.pde i).frame) I
  taken : ∀ i ∈ I, (c.pde i).frame ∉ c.freeList
  pages : ∀ p, p ∈ c'.freeList ↔ p ∈ c.freeList ∨ p ∈ c.tablesOf I
  general : c'.freeList.general = c.freeList.general + I.card
  debugger : c'.freeList.debugger = c.freeList.debugger
  usage : ∀ t, c.usage.count t = c'.usage.count t +
    (I.filter fun i => (c.record (c.pde i).frame).pageType = t).card
  directory : ∀ i < 1024, c'.pde i = if i ∈ I then .zero else c.pde i
  records : ∀ p ≤ c.parameters.highestPage,
    c'.record p = if p ∈ c.tablesOf I then .zero else c.record p
  size : c'.ram.size = c.ram.size
  memory : ∀ a < c.ram.size, a / 4096 ≠ 0xF → (a / 4096 < c.parameters.databasePage ∨
    c.parameters.databasePage + c.parameters.databasePages ≤ a / 4096) →
    c'.ram.byteAt a = c.ram.byteAt a

/-- The machines hold the same bytes and have the same free blocks and counters. -/
structure SameState (c c' : Machine) : Prop extends c.SameAccounts c' where
  size : c'.ram.size = c.ram.size
  memory : ∀ a < c.ram.size, c'.ram.byteAt a = c.ram.byteAt a

/-- The records settle what the database holds. -/
lemma SameAccounts.sameState (same : c.SameAccounts c') (fit : c.parameters.Fit)
    (parameters : c'.parameters = c.parameters) (size : c'.ram.size = c.ram.size)
    (records : ∀ p ≤ c.parameters.highestPage, c'.record p = c.record p)
    (memory : ∀ a < c.ram.size, (a / 4096 < c.parameters.databasePage ∨
      c.parameters.databasePage + c.parameters.databasePages ≤ a / 4096) →
      c'.ram.byteAt a = c.ram.byteAt a) : c.SameState c' := by
  refine ⟨same, size, fun a inside => ?_⟩
  by_cases outside : a / 4096 < c.parameters.databasePage ∨
      c.parameters.databasePage + c.parameters.databasePages ≤ a / 4096
  · exact memory a inside outside
  · exact Ram.byteAt_eq_of_word (word_database fit parameters records (by omega) (by omega))

lemma Without.losesTables (w : c.Without c' I ∅) (h : c.Kept) (h' : c'.Kept) :
    c.LosesTables c' I := by
  refine ⟨h.toMapped.injOn_frame w.tables, fun i hi free => ?_, fun p => w.mem_freeList h h',
    w.general_eq h h', w.debugger, w.count_usage h.toOrdered h'.toOrdered, w.pde, w.record, w.size,
    fun a inside apart outside => w.byteAt_eq inside apart outside (Finset.notMem_empty _)⟩
  exact h.not_idle_of_table (table_of_mem (w.tables hi)) ((h.free.runs.mem _).mpr free)

lemma DiffersIn.sameState (same : c.DiffersIn c' ∅) (h : c.Kept) (h' : c'.Kept) :
    c.SameState c' :=
  ⟨same.sameAccounts h h', same.size,
    fun _ inside => same.byteAt_eq h.fit inside (Finset.notMem_empty _)⟩

end Machine

namespace Session

variable {s : Session} {c : Machine} {va : VirtualAddress} {n i : Nat}

/-- Nothing is remembered of the spans of the directory entries in `I` and of the pages of entries
that showed their tables. -/
def Forgets (s : Session) (I : Finset Nat) : Prop :=
  ∀ i ∈ I, s.manager.memory.tlb.find? (0xC0000 + i) = none ∧
    ∀ n, n / 1024 = i → s.manager.memory.tlb.find? n = none

/-- What is remembered is what the walks find, and those find nothing there. -/
lemma Rests.forgets {I : Finset Nat} (h : s.Rests c none)
    (invalid : ∀ i ∈ I, i < 1024 ∧ (c.pde i).valid = false) : s.Forgets I := by
  have unknown {n : Nat} (unmapped : c.ram.walk n = none) :
      s.manager.memory.tlb.find? n = none := by
    cases found : s.manager.memory.tlb.find? n with
    | none => rfl
    | some place =>
      obtain ⟨p, walked, _⟩ := h.within n place found
      cases unmapped.symm.trans walked
  intro i hi
  obtain ⟨lt, invalid⟩ := invalid i hi
  refine ⟨unknown (h.stands.toMapped.walk_window_eq_none lt invalid), fun n span => ?_⟩
  exact unknown (Machine.Mapped.walk_eq_none (span ▸ invalid))

/-- Releasing the tables of a range returns, and the session rests again. -/
lemma Rests.release (h : s.Rests c none) (fits : va.toNat + n ≤ 0x100000000) :
    ∃ s' c', Manager.releaseTables va n s = .ok () s' ∧ s'.Rests c' none ∧
      c.Without c' (c.emptyTables ∩ va.spans n) ∅ := by
  obtain ⟨c', ran, kept, upholds, w⟩ := Manager.releaseTables_yields h.stands fits
  obtain ⟨s', ran, shows⟩ := h.toShows.step_ok ran
  exact ⟨s', c', ran, ⟨shows, kept, upholds.targeted h.targeted⟩, w⟩

/-- A range that was released has no empty tables left. -/
lemma Rests.release_again {s' : Session} {c' : Machine} (h : s.Rests c none) (h' : s'.Rests c' none)
    (fits : va.toNat + n ≤ 0x100000000) (w : c.Without c' (c.emptyTables ∩ va.spans n) ∅) :
    ∃ s'', Manager.releaseTables va n s' = .ok () s'' ∧ s'.machine.SameState s''.machine := by
  obtain ⟨s'', c'', ran, rests, w'⟩ := h'.release fits
  have left : c'.emptyTables ∩ va.spans n = ∅ := by
    rw [w.emptyTables_eq h.stands.toOrdered, Finset.sdiff_inter_self_left, Finset.sdiff_inter_self]
  rw [left] at w'
  refine ⟨s'', ran, ?_⟩
  rw [h'.machine_eq, rests.machine_eq]
  exact Machine.DiffersIn.sameState w' h'.stands rests.stands

end Session

/-- In every state of a run, releasing the tables of a range returns. The tables that go are those
that hold no entry, and nothing else changes but that they are forgotten. Releasing the range again
changes nothing, and another range may as well be released first. -/
theorem release_is_exact (l : Layout) {limit : Nat} (low : limit < l.parameters.databasePage)
    (room : l.parameters.databaseTables ≤ ((Finset.range (limit + 1)).erase 0xF).card)
    {memory : GuestMemory} (size : l.parameters.ramSize ≤ memory.ram.size)
    (fresh : memory.tlb.Fresh) (trail : Array Note) :
    ∃ m s, Manager.create memory l { l.parameters with contiguousLimit := limit } = .ok m ∧
      Manager.boot ⟨m, trail⟩ = .ok () s ∧ ∀ events s', Run s events none s' →
        s'.machine.parameters = { l.parameters with contiguousLimit := limit } ∧
        ∀ (va : VirtualAddress) n, va.toNat + n ≤ 0x100000000 →
          ∃ s₁, Manager.releaseTables va n s' = .ok () s₁ ∧ s₁.Coherent ∧
            s'.machine.LosesTables s₁.machine (s'.machine.emptyTables ∩ va.spans n) ∧
            s₁.Forgets (s'.machine.emptyTables ∩ va.spans n) ∧
            (∃ s₂, Manager.releaseTables va n s₁ = .ok () s₂ ∧ s₁.machine.SameState s₂.machine) ∧
            ∀ (va' : VirtualAddress) n', va'.toNat + n' ≤ 0x100000000 →
              ∃ s₂ t₁ t₂, Manager.releaseTables va' n' s₁ = .ok () s₂ ∧
                Manager.releaseTables va' n' s' = .ok () t₁ ∧
                Manager.releaseTables va n t₁ = .ok () t₂ ∧ s₂.machine.SameState t₂.machine := by
  obtain ⟨m, s, created, booted, rest⟩ := Session.rests_after_runs l low room size fresh trail
  refine ⟨m, s, created, booted, fun events s' run => ?_⟩
  obtain ⟨parameters, rests⟩ := rest events s' run
  refine ⟨parameters, fun va n fits => ?_⟩
  obtain ⟨s₁, c₁, ran₁, rests₁, w₁⟩ := rests.release fits
  refine ⟨s₁, ran₁, rests₁.coherent, ?_, rests₁.forgets fun i hi => ?_,
    rests.release_again rests₁ fits w₁, fun va' n' fits' => ?_⟩
  · rw [rests₁.machine_eq]
    exact w₁.losesTables rests.stands rests₁.stands
  · have lt := (Machine.table_of_mem (w₁.tables hi)).lt
    rw [w₁.pde i lt, if_pos hi]
    exact ⟨lt, Entry.valid_zero⟩
  · obtain ⟨s₂, c₂, ran₂, rests₂, w₂⟩ := rests₁.release fits'
    obtain ⟨t₁, d₁, ran₁', rests₁', w₁'⟩ := rests.release fits'
    obtain ⟨t₂, d₂, ran₂', rests₂', w₂'⟩ := rests₁'.release fits
    have both := Machine.Without.trans_empty rests.stands.toOrdered w₁ w₂
    have swapped := Machine.Without.trans_empty rests.stands.toOrdered w₁' w₂'
    rw [Finset.union_comm (va'.spans n')] at swapped
    have same : c₂.DiffersIn d₂ ∅ := both.differsIn swapped
    refine ⟨s₂, t₁, t₂, ran₂, ran₁', ran₂', ?_⟩
    rw [rests₂.machine_eq, rests₂'.machine_eq]
    exact same.sameState rests₂.stands rests₂'.stands

/-- A console of which the pages up to 0x3F may hold page tables. -/
theorem release_is_exact_arcade :
    ∃ m s, Manager.create ⟨⟨0x8000000, .uniform 0x5A, by decide, by decide, by decide⟩, .caching []⟩
        .arcade { Layout.arcade.parameters with contiguousLimit := 0x3F } = .ok m ∧
      Manager.boot ⟨m, #[]⟩ = .ok () s ∧ ∀ events s', Run s events none s' →
        s'.machine.parameters = { Layout.arcade.parameters with contiguousLimit := 0x3F } ∧
        ∀ (va : VirtualAddress) n, va.toNat + n ≤ 0x100000000 →
          ∃ s₁, Manager.releaseTables va n s' = .ok () s₁ ∧ s₁.Coherent ∧
            s'.machine.LosesTables s₁.machine (s'.machine.emptyTables ∩ va.spans n) ∧
            s₁.Forgets (s'.machine.emptyTables ∩ va.spans n) ∧
            (∃ s₂, Manager.releaseTables va n s₁ = .ok () s₂ ∧ s₁.machine.SameState s₂.machine) ∧
            ∀ (va' : VirtualAddress) n', va'.toNat + n' ≤ 0x100000000 →
              ∃ s₂ t₁ t₂, Manager.releaseTables va' n' s₁ = .ok () s₂ ∧
                Manager.releaseTables va' n' s' = .ok () t₁ ∧
                Manager.releaseTables va n t₁ = .ok () t₂ ∧ s₂.machine.SameState t₂.machine :=
  release_is_exact .arcade (by decide) (by decide) (by decide) Tlb.fresh_caching #[]

end ConsoleMemory
