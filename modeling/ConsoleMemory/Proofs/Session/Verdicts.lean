import ConsoleMemory.Proofs.Boot.Furnished
import ConsoleMemory.Proofs.FreeList.History
import ConsoleMemory.Proofs.Manager.Consistency

/-!
# What the check says of a layout

With the numbers of a layout the check answers just the question whether the manager
is consistent, also of managers that no legal action leads to.
-/

namespace ConsoleMemory.Machine

variable {c : Machine}

/-- The check finds nothing just where the free blocks, the counters, the records and the page
tables agree, whatever memory, the counters and the free blocks hold and whatever is remembered. Of
an inconsistent manager it says so, as long as blocks and pools do not need more than 32 bits. -/
theorem check_decides_consistency {l : Layout} (parameters : c.parameters = l.parameters)
    (size : l.parameters.ramSize ≤ c.ram.size) (t : Tlb) :
    ((c.manager t).check = .ok none ↔ c.Consistent) ∧
      ((∀ b ∈ c.freeList.blocks, b.past < 0x100000000) →
        c.freeList.general + c.freeList.debugger < 0x100000000 → ¬ c.Consistent →
        ∃ finding, (c.manager t).check = .ok (some finding)) := by
  have fit : c.parameters.Fit := parameters ▸ l.boots.toFit
  have installed : c.parameters.highestPage < c.ram.pages := by
    have enough := l.boots.installed
    have whole := c.ram.size_eq
    rw [parameters]
    omega
  have decided := Manager.check_eq_none_iff (t := t) fit installed
  refine ⟨decided, fun blocks pools broken => ?_⟩
  obtain ⟨result, returned⟩ := Manager.check_returns (t := t) fit installed blocks pools
  cases result with
  | none => exact absurd (decided.mp returned) broken
  | some finding => exact ⟨finding, returned⟩

/-- A new manager of blank memory is consistent. -/
theorem consistent_of_blank (blank : ∀ p i, c.ram.word p i = 0)
    (new : FreeList.full c.parameters.highestPage c.parameters.debuggerBoundary = .ok c.freeList)
    (small : c.parameters.highestPage < 0xFFFFFFFF) (idle : c.usage = .zero) : c.Consistent := by
  obtain ⟨keeps, count, _⟩ := FreeList.IsNew.keeps (Or.inr ⟨new, rfl⟩) small
  have runs := keeps.runs
  have record (p : Nat) : c.record p = .zero := congrArg PfnRecord.mk (blank _ _)
  have free : c.freePages = Finset.range (c.parameters.highestPage + 1) := by
    ext p
    rw [mem_freePages, runs.mem]
  constructor
  case positive => exact runs.positive
  case inside => exact fun b hb => (keeps.past_le hb).trans_eq count
  case apart => exact runs.apart
  case pooled => rw [free, keeps.balanced]
  case split =>
    intro p hp
    rw [record]
    exact iff_of_true ((runs.mem p).mp (Finset.mem_range.mpr (Nat.lt_succ_of_le hp))) (by decide)
  case counted =>
    intro type
    have none : c.busyPages type = ∅ := by
      apply Finset.filter_eq_empty_iff.mpr
      intro p _ busy
      rw [record] at busy
      cases busy.1.symm.trans PfnRecord.busy_zero
    rw [idle, none, Usage.count_zero]
    rfl
  case sound =>
    intro i t table
    have vacant : c.pde i = .zero := congrArg Entry.mk (blank _ _)
    have names := table.names
    rw [vacant] at names
    cases names.symm.trans Entry.namesTable_zero

/-- A new manager of a retail console with blank memory, to which every page is free. -/
def newRetail : Machine where
  ram := ⟨0x4000000, .uniform 0, by decide, by decide, by decide⟩
  layout := .retail
  parameters := Layout.retail.parameters
  freeList := ⟨Chain.empty.pushFront ⟨0, 0x4000⟩, 0x4000, none, 0x4000, 0⟩
  usage := .zero

/-- The check passes a new manager, and it finds a busy record that is written over the one of a
free page. -/
theorem check_decides_consistency_new :
    Layout.retail.parameters.ramSize ≤ newRetail.ram.size ∧
      (newRetail.manager (.caching [])).check = .ok none ∧
      ∃ finding, ((newRetail.setWord 0x3FF0 5 0x10000).manager (.counting 0)).check =
        .ok (some finding) := by
  have size : Layout.retail.parameters.ramSize ≤ newRetail.ram.size := by decide
  have consistent : newRetail.Consistent :=
    consistent_of_blank (fun p i => rfl) (FreeList.full_eq (by decide)) (by decide) rfl
  have blocks : newRetail.freeList.blocks = [⟨0, 0x4000⟩] := rfl
  refine ⟨size, (check_decides_consistency rfl size (.caching [])).1.mpr consistent, ?_⟩
  apply (check_decides_consistency (c := newRetail.setWord 0x3FF0 5 0x10000) rfl size
    (.counting 0)).2
  · intro b hb
    cases List.mem_singleton.mp (blocks ▸ hb)
    decide
  · decide
  · intro broken
    have free : 5 ∈ newRetail.freeList :=
      ⟨⟨0, 0x4000⟩, blocks ▸ List.mem_singleton_self _, by decide, by decide⟩
    have idle := (broken.split 5 (by decide)).mp free
    cases idle.symm.trans (show _ = true by decide)

end ConsoleMemory.Machine
