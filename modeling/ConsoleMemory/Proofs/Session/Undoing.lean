import ConsoleMemory.Proofs.Session.Committing
import ConsoleMemory.Proofs.Session.Releasing

/-!
# Committing once more, and undoing it

A range that was committed has no gap left, so that committing a part of it again
does nothing at all. The tables that came into being hold no entry; where there
was no other empty table in the range, releasing the range takes away just those,
and the books are as before (`commit_undone`).
-/

namespace ConsoleMemory

namespace VirtualAddress

variable {va va' : VirtualAddress} {n n' : Nat}

/-- A part of a range meets no other spans. -/
lemma spans_subset (start : va.toNat ≤ va'.toNat) (stop : va'.toNat + n' ≤ va.toNat + n) :
    va'.spans n' ⊆ va.spans n :=
  Finset.image_subset_image (Finset.Ico_subset_Ico start stop)

end VirtualAddress

namespace Machine

variable {c c' c'' : Machine} {I O : Finset Nat} {type : PageType}

/-- Tables that went leave gaps. -/
lemma Without.gaps_eq (w : c.Without c' I O) : c'.gaps = c.gaps ∪ I := by
  ext k
  rw [Finset.mem_union, mem_gaps, mem_gaps]
  by_cases mem : k ∈ I
  · have lt := (table_of_mem (w.tables mem)).lt
    rw [w.pde k lt, if_pos mem]
    exact ⟨fun _ => Or.inr mem, fun _ => ⟨lt, Entry.valid_zero⟩⟩
  · rw [or_iff_left mem]
    refine and_congr_right fun lt => ?_
    rw [w.pde k lt, if_neg mem]

/-- A table is no gap. -/
lemma disjoint_gaps (sub : I ⊆ c.tableIndices) : Disjoint c.gaps I := by
  refine Finset.disjoint_right.mpr fun k mem gap => ?_
  cases (Entry.valid_of_namesTable (table_of_mem (sub mem)).names).symm.trans (mem_gaps.mp gap).2

namespace Gains

variable {A B : Finset Nat} (gains : c.Gains c' type (c.gaps ∩ A))
include gains

/-- Where all that was missing was gained, nothing is missing. -/
lemma gaps_inter (sub : B ⊆ A) : c'.gaps ∩ B = ∅ := by
  have w := gains.without
  refine Finset.eq_empty_of_forall_notMem fun k mem => ?_
  obtain ⟨gap, inside⟩ := Finset.mem_inter.mp mem
  have before : k ∈ c.gaps := by
    rw [w.gaps_eq]
    exact Finset.mem_union_left _ gap
  have gained : k ∈ c.gaps ∩ A := Finset.mem_inter.mpr ⟨before, sub inside⟩
  exact Finset.disjoint_left.mp (disjoint_gaps w.tables) gap gained

/-- The tables that were gained hold no entry; the others that hold none were there before. -/
lemma emptyTables_inter (isTable : type.isPageTable = true) (h' : c'.Ordered)
    (full : c.emptyTables ∩ A = ∅) : c'.emptyTables ∩ A = c.gaps ∩ A := by
  have w := gains.without
  ext k
  constructor
  · intro mem
    obtain ⟨empty, inside⟩ := Finset.mem_inter.mp mem
    by_contra other
    have old : k ∈ c.emptyTables := by
      rw [w.emptyTables_eq h']
      exact Finset.mem_sdiff.mpr ⟨empty, other⟩
    exact Finset.eq_empty_iff_forall_notMem.mp full k (Finset.mem_inter.mpr ⟨old, inside⟩)
  · intro gained
    refine Finset.mem_inter.mpr ⟨mem_emptyTables.mpr ⟨w.tables gained, ?_⟩,
      (Finset.mem_inter.mp gained).2⟩
    rw [gains.record k gained]
    exact Manager.entriesUsed_recordFor isTable _

end Gains

/-- Tables that come and go again leave only what was written to their pages. -/
theorem Gains.undone (gains : c.Gains c' type I) (w : c'.Without c'' I O) (h' : c'.Ordered) :
    c.DiffersIn c'' (c.idlePages ∪ O) := by
  have back := gains.without
  refine (back.differsIn w).mono (Finset.union_subset_union_left ?_)
  rw [back.idlePages_eq h']
  exact Finset.subset_union_right

end Machine

namespace Manager

open Machine

variable {c : Machine} {va : VirtualAddress} {n : Nat}

/-- Where nothing is missing, committing changes nothing. -/
theorem commitTables_nothing (h : c.Mapped) (fits : va.toNat + n ≤ 0x100000000)
    (none : c.gaps ∩ va.spans n = ∅) : Yields c (commitTables va n) (.ok ()) c := by
  rw [commitTables, DirectoryAccess.commitTables]
  by_cases zero : n = 0
  · rw [if_pos zero]
    exact .pure
  · rw [VirtualAddress.spans_eq (Nat.pos_of_ne_zero zero)] at none
    have counted := countMissing_yields h (VirtualAddress.pagesSpanned_le fits)
    rw [none, Finset.card_empty] at counted
    rw [if_neg zero, VirtualAddress.directoryEntryAddress_eq]
    exact counted.bind .pure

end Manager

/-- In every state of a run, after a range was committed, committing any part of it again succeeds
and changes nothing; and releasing the range brings back the free blocks, the counters, the
directory and the records from before, unless there were empty tables in the range. -/
theorem commit_undone (l : Layout) {memory : GuestMemory}
    (size : l.parameters.ramSize ≤ memory.ram.size) (fresh : memory.tlb.Fresh)
    (trail : Array Note) :
    ∃ m s, Manager.create memory l l.parameters = .ok m ∧ Manager.boot ⟨m, trail⟩ = .ok () s ∧
      ∀ events s', Run s events none s' →
        ∀ (va : VirtualAddress) n, va.toNat + n ≤ 0x100000000 →
          ∀ s₁, Manager.commitTables va n s' = .ok (.ok ()) s₁ →
            (∀ (va' : VirtualAddress) n', va.toNat ≤ va'.toNat → va'.toNat + n' ≤ va.toNat + n →
              ∃ s₂, Manager.commitTables va' n' s₁ = .ok (.ok ()) s₂ ∧ s₂.machine = s₁.machine) ∧
            (s'.machine.emptyTables ∩ va.spans n = ∅ →
              ∃ s₂, Manager.releaseTables va n s₁ = .ok () s₂ ∧
                s'.machine.SameBooks s₂.machine) := by
  obtain ⟨c, comes⟩ := Session.exists_boot l size trail
  obtain ⟨m, s, created, booted, rests⟩ := comes memory.tlb fresh
  refine ⟨m, s, created, booted, fun events s' run va n fits s₁ committed => ?_⟩
  obtain ⟨c', rests', _⟩ := rests.run run
  obtain ⟨answer, s₁', c₁, ran, rests₁, commits⟩ := rests'.commit fits
  cases committed.symm.trans ran
  obtain ⟨_, _, gains⟩ := commits
  have ordered := rests₁.stands.toOrdered
  constructor
  · intro va' n' start stop
    have none := gains.gaps_inter (VirtualAddress.spans_subset start stop)
    obtain ⟨s₂, again, shows⟩ := rests₁.toShows.step_ok
      (Manager.commitTables_nothing ordered.toMapped (by omega) none)
    exact ⟨s₂, again, shows.machine_eq.trans rests₁.machine_eq.symm⟩
  · intro full
    obtain ⟨s₂, c₂, released, rests₂, w⟩ := rests₁.release fits
    rw [rests'.machine_eq] at full
    rw [gains.emptyTables_inter (Manager.isPageTable_tableType va) ordered full] at w
    have undone := gains.undone w ordered
    rw [Finset.union_empty] at undone
    refine ⟨s₂, released, ?_⟩
    rw [rests'.machine_eq, rests₂.machine_eq]
    exact undone.sameBooks rests'.stands rests₂.stands

/-- On a development kit with used memory, the tables of two spans are committed, committed again
for one of the spans, and released. -/
theorem commit_undone_debug :
    ∃ m s s₁ s₂ s₃, Manager.create
        ⟨⟨0x8000000, .uniform 0xA5, by decide, by decide, by decide⟩, .caching []⟩
        .debug Layout.debug.parameters = .ok m ∧ Manager.boot ⟨m, #[]⟩ = .ok () s ∧
      s.machine.emptyTables ∩ VirtualAddress.spans (.ofNat 0x3FF000) 0x2000 = ∅ ∧
      Manager.commitTables (.ofNat 0x3FF000) 0x2000 s = .ok (.ok ()) s₁ ∧
      Manager.commitTables (.ofNat 0x400000) 0x1000 s₁ = .ok (.ok ()) s₂ ∧
      s₂.machine = s₁.machine ∧
      Manager.releaseTables (.ofNat 0x3FF000) 0x2000 s₁ = .ok () s₃ ∧
      s.machine.SameBooks s₃.machine := by
  have size : Layout.debug.parameters.ramSize ≤ (⟨⟨0x8000000, .uniform 0xA5, by decide, by decide,
      by decide⟩, .caching []⟩ : GuestMemory).ram.size := by decide
  obtain ⟨m, s, created, booted, undone⟩ := commit_undone .debug size Tlb.fresh_caching #[]
  have commits := Layout.test_of_passes created booted (fun s =>
    !(s.machine.pde 0).namesTable && !(s.machine.pde 1).namesTable &&
      s.passes (Manager.commitTables (.ofNat 0x3FF000) 0x2000) fun answer _ =>
        answer == .ok ()) (by decide +kernel)
  simp only [Bool.and_eq_true, Bool.not_eq_true'] at commits
  obtain ⟨⟨first, second⟩, commits⟩ := commits
  obtain ⟨answer, s₁, ran, answered⟩ := Session.exists_of_passes commits
  cases eq_of_beq answered
  have full : s.machine.emptyTables ∩ VirtualAddress.spans (.ofNat 0x3FF000) 0x2000 = ∅ := by
    have spans : VirtualAddress.spans (.ofNat 0x3FF000) 0x2000 = Finset.Ico 0 2 :=
      VirtualAddress.spans_eq (by decide)
    refine Finset.eq_empty_of_forall_notMem fun i mem => ?_
    obtain ⟨empty, inside⟩ := Finset.mem_inter.mp mem
    have names := (Machine.table_of_mem (Finset.mem_filter.mp empty).1).names
    rw [spans, Finset.mem_Ico] at inside
    obtain rfl | rfl : i = 0 ∨ i = 1 := by omega
    · cases first.symm.trans names
    · cases second.symm.trans names
  obtain ⟨again, released⟩ := undone [] s .refl (.ofNat 0x3FF000) 0x2000 (by decide) s₁ ran
  obtain ⟨s₂, ran₂, same⟩ := again (.ofNat 0x400000) 0x1000 (by decide) (by decide)
  obtain ⟨s₃, ran₃, books⟩ := released full
  exact ⟨m, s, s₁, s₂, s₃, created, booted, full, ran, ran₂, same, ran₃, books⟩

end ConsoleMemory
