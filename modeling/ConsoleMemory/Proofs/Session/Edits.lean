import ConsoleMemory.Proofs.Session.Runs

/-!
# Edits of page tables

Page tables come and go, and their entries are filled and cleared, whatever the
words that are written. The records count the entries in use from one edit to
the next, as long as none gives a zero entry the zero word; one that does leaves
the count too high (`edits_count_entries`).
-/

namespace ConsoleMemory

open VirtualAddress

variable {s s' : Session} {c : Machine} {a : Action} {answer : Answer}

namespace Machine

/-- The action commits or releases page tables, or it sweeps over entries of tables that are there.
Nothing is asked of the words that it writes. -/
def Edits (c : Machine) : Action → Prop
  | .commit va size => va.toNat + size ≤ 0x100000000
  | .release va size => va.toNat + size ≤ 0x100000000
  | .fill first last _ page => c.Covers first last ∧
    ∀ k, first.toNat + 4 * k ≤ last.toNat → page + k ≤ 0xFFFFF
  | .clear first last => c.Covers first last
  | _ => False

/-- The action gives a zero entry the zero word. -/
def Blanks (c : Machine) : Action → Prop
  | .fill first last template page => c.LeavesBlank first last template page
  | _ => False

/-- An edit returns. The records count the entries in use afterwards just where it gives no zero
entry the zero word. -/
theorem edit_counts (h : c.Kept) (edits : c.Edits a) :
    ∃ answer c', Yields c a.perform answer c' ∧ (c'.CountsEntries ↔ ¬ c.Blanks a) ∧
      (¬ c.Blanks a → c'.Kept) := by
  cases a with
  | commit va size =>
    obtain ⟨result, c', ran, kept, _⟩ := Manager.commitTables_yields h edits
    exact ⟨.committed result, c', ran.bind .pure, ⟨fun _ => id, fun _ => kept.used⟩, fun _ => kept⟩
  | release va size =>
    obtain ⟨c', ran, kept, _⟩ := Manager.releaseTables_yields h edits
    exact ⟨.done, c', ran.bind .pure, ⟨fun _ => id, fun _ => kept.used⟩, fun _ => kept⟩
  | fill first last template page =>
    obtain ⟨covers, frames⟩ := edits
    obtain ⟨c', ran, counts, kept⟩ := Manager.fillEntries_counts h covers template
      fun k le => Nat.lt_succ_of_le (frames k le)
    exact ⟨.done, c', ran.bind .pure, counts, kept⟩
  | clear first last =>
    obtain ⟨c', n, count, ran, swept, _⟩ := Manager.clearEntries_yields h edits
    exact ⟨.done, c', ran.bind .pure, ⟨fun _ => id, fun _ => swept.kept.used⟩, fun _ => swept.kept⟩
  | _ => exact edits.elim

end Machine

/-- The session comes from `start` by edits, none of which gives a zero entry the zero word. -/
inductive EditRun (start : Session) : Session → Prop where
  | refl : EditRun start start
  | step {s s' : Session} {a : Action} {answer : Answer} :
      EditRun start s → s.machine.Edits a → ¬ s.machine.Blanks a → a.perform s = .ok answer s' →
      EditRun start s'

/-- Every such run keeps the invariant. -/
lemma EditRun.kept {start : Session} (shows : start.Shows c) (kept : c.Kept)
    (run : EditRun start s) : ∃ d, s.Shows d ∧ d.Kept := by
  induction run with
  | refl => exact ⟨c, shows, kept⟩
  | step _ edits solid ran ih =>
    obtain ⟨d, shows, kept⟩ := ih
    rw [shows.machine_eq] at edits solid
    obtain ⟨answer', c', yields, _, kept'⟩ := Machine.edit_counts kept edits
    obtain ⟨s'', ran', shows'⟩ := shows.perform_ok yields
    cases ran.symm.trans ran'
    exact ⟨c', shows', kept' solid⟩

/-- After any run of edits that give no zero entry the zero word, the records count the entries in
use. The next edit returns, and they still do just where it gives no zero entry the zero word. -/
theorem edits_count_entries (l : Layout) {memory : GuestMemory}
    (size : l.parameters.ramSize ≤ memory.ram.size) (fresh : memory.tlb.Fresh)
    (trail : Array Note) :
    ∃ m s, Manager.create memory l l.parameters = .ok m ∧ Manager.boot ⟨m, trail⟩ = .ok () s ∧
      ∀ s', EditRun s s' → s'.machine.CountsEntries ∧
        ∀ a, s'.machine.Edits a → ∃ answer s'', a.perform s' = .ok answer s'' ∧
          (s''.machine.CountsEntries ↔ ¬ s'.machine.Blanks a) := by
  obtain ⟨c, _, _, comes⟩ := Session.comes_up l l.boots size trail
  obtain ⟨m, s, created, booted, rests⟩ := comes memory.tlb fresh
  refine ⟨m, s, created, booted, fun s' run => ?_⟩
  obtain ⟨d, shows, kept⟩ := run.kept rests.toShows rests.stands
  rw [shows.machine_eq]
  refine ⟨kept.used, fun a edits => ?_⟩
  obtain ⟨answer, c', yields, counts, _⟩ := Machine.edit_counts kept edits
  obtain ⟨s'', ran, shows'⟩ := shows.perform_ok yields
  refine ⟨answer, s'', ran, ?_⟩
  rw [shows'.machine_eq]
  exact counts

/-- A session with 64 MiB of memory that remembers translations. -/
theorem edits_count_entries_retail :
    ∃ m s, Manager.create ⟨⟨0x4000000, .uniform 0x5A, by decide, by decide, by decide⟩, .caching []⟩
        .retail Layout.retail.parameters = .ok m ∧ Manager.boot ⟨m, #[]⟩ = .ok () s ∧
      ∀ s', EditRun s s' → s'.machine.CountsEntries ∧
        ∀ a, s'.machine.Edits a → ∃ answer s'', a.perform s' = .ok answer s'' ∧
          (s''.machine.CountsEntries ↔ ¬ s'.machine.Blanks a) :=
  edits_count_entries .retail (by decide) Tlb.fresh_caching #[]

/-- The first entry of the database's table is zero, and it stays so when it is filled with the zero
word. The table's record counts it as in use all the same. -/
theorem zero_word_miscounts :
    ∃ m s s', Manager.create ⟨⟨0x4000000, .uniform 0, by decide, by decide, by decide⟩, .counting 0⟩
        .retail Layout.retail.parameters = .ok m ∧ Manager.boot ⟨m, #[]⟩ = .ok () s ∧
      s.machine.Edits (.fill (.ofNat 0xC020F000) (.ofNat 0xC020F000) .zero 0) ∧
      (Action.fill (.ofNat 0xC020F000) (.ofNat 0xC020F000) .zero 0).perform s = .ok .done s' ∧
      ¬ s'.machine.CountsEntries := by
  have size : Layout.retail.parameters.ramSize ≤
      (⟨0x4000000, .uniform 0, by decide, by decide, by decide⟩ : Ram).size := by decide
  obtain ⟨c, parameters, ⟨H, _, furnished⟩, comes⟩ :=
    Session.comes_up .retail Layout.retail.boots size #[]
  obtain ⟨m, s, created, booted, rests⟩ := comes _ (Tlb.fresh_counting 0)
  have kept : c.Kept := rests.stands
  have place : (Address.ofNat 0xC020F000 : VirtualAddress).toNat = 0xC020F000 := by decide
  have hidden : ¬ c.ShowsDatabase 0x83C00 := by
    rw [Machine.ShowsDatabase, parameters]
    decide
  obtain ⟨t, table⟩ := (furnished.table_iff 0x20F).mpr (by
    rw [parameters]
    decide)
  have zero : c.pte t 0 = .zero := furnished.blank 0x20F t table 0 (by decide) hidden
  have covers : c.Covers (.ofNat 0xC020F000) (.ofNat 0xC020F000) :=
    ⟨by decide, fun a low high _ => ⟨0x83C00, t, by omega, table, hidden⟩⟩
  have frames (k : Nat) (le : (Address.ofNat 0xC020F000 : VirtualAddress).toNat + 4 * k ≤
      (Address.ofNat 0xC020F000 : VirtualAddress).toNat) : 0 + k < 0x100000 := by omega
  have blank : c.LeavesBlank (.ofNat 0xC020F000) (.ofNat 0xC020F000) .zero 0 :=
    ⟨0, 0x83C00, t, by omega, by omega, table, Entry.isZero_iff.mpr zero, by decide⟩
  obtain ⟨c', ran, counts, _⟩ := Manager.fillEntries_counts kept covers .zero frames
  obtain ⟨s', performed, shows⟩ := rests.toShows.perform_ok
    (a := .fill (.ofNat 0xC020F000) (.ofNat 0xC020F000) .zero 0) (ran.bind (b := .done) .pure)
  refine ⟨m, s, s', created, booted, ?_, performed, ?_⟩
  · rw [rests.machine_eq]
    exact ⟨covers, fun k le => Nat.le_of_lt_succ (frames k le)⟩
  · rw [shows.machine_eq, counts]
    exact not_not_intro blank

end ConsoleMemory
