import ConsoleMemory.Manager.Entries
import ConsoleMemory.Proofs.Manager.Invariant

/-!
# Sweeps over entries

A sweep goes over the entries of consecutive virtual pages. `Rewrites` says what
becomes of them, whatever the records count, and `Recounts` that the records
change in their counts only. Each entry that is cleared is forgotten and counted
before the next is looked at, so that the invariant holds at every step (`Swept`).
-/

namespace ConsoleMemory

open VirtualAddress

namespace Machine

variable {c : Machine} {n t : Nat}

/-- Virtual page `n` has an entry that a sweep may change: its page table is in `t`, and it shows no
page of the PFN database. -/
structure Sweeps (c : Machine) (n t : Nat) : Prop where
  table : c.Table (n / 1024) t
  other : ¬ c.ShowsDatabase n

lemma Sweeps.lt (h : c.Sweeps n t) : n < 0x100000 := by
  have := h.table.lt
  omega

lemma Sweeps.other' (h : c.Sweeps n t) : ¬ c.ShowsDatabase (n / 1024 * 1024 + n % 1024) := by
  rw [Nat.div_add_mod']
  exact h.other

/-- The entries of `[first, last]`, of which the first is aligned, may be swept. -/
structure Covers (c : Machine) (first last : VirtualAddress) : Prop where
  aligned : first.toNat % 4 = 0
  entries : ∀ a, first.toNat ≤ a → a ≤ last.toNat → a % 4 = 0 →
    ∃ n t, a = 0xC0000000 + 4 * n ∧ c.Sweeps n t

/-- The tables are wired and busy, whatever their records count. -/
structure Tabled (c : Machine) : Prop extends c.Wired where
  tables : ∀ i t, c.Table i t → (c.record t).isBusyPageTable = true

lemma Kept.tabled (h : c.Kept) : c.Tabled := ⟨h.toWired, h.tables⟩

lemma SameRoles.tabled {c' : Machine} (roles : c.SameRoles c') (h : c.Tabled) (wired : c'.Wired) :
    c'.Tabled := by
  refine ⟨wired, fun i t table => ?_⟩
  have table := roles.table_iff.mp table
  rw [roles.isBusyPageTable (h.toWired.table_le table)]
  exact h.tables i t table

/-- The records say the same in both machines, but for how many entries of page tables are in use.
-/
structure Recounts (c c' : Machine) : Prop where
  tables : ∀ i t, c.Table i t → c'.record t = (c.record t).described (c'.record t).entriesUsed
  others : ∀ p ≤ c.parameters.highestPage, (∀ i, ¬ c.Table i p) → c'.record p = c.record p

lemma Recounts.refl (c : Machine) : c.Recounts c :=
  ⟨fun _ _ _ => (PfnRecord.described_entriesUsed _).symm, fun _ _ _ => rfl⟩

lemma Recounts.trans {d c' : Machine} (h : c.Recounts d) (roles : c.SameRoles d)
    (h' : d.Recounts c') : c.Recounts c' := by
  refine ⟨fun i t table => ?_, fun p hp none => ?_⟩
  · have later := h'.tables i t (roles.table_iff.mpr table)
    rwa [h.tables i t table, PfnRecord.described_described] at later
  · rw [h'.others p (by rwa [roles.parameters]) fun i table => none i (roles.table_iff.mp table),
      h.others p hp none]

/-- An entry is written, and the record of its table counts anew. -/
lemma Wired.recounts_describe {i j m : Nat} {e : Entry} (h : c.Wired) (table : c.Table i t)
    (hj : j < 1024) (other : ¬ c.ShowsDatabase (i * 1024 + j)) (hm : m < 2048) :
    c.Recounts ((c.setWord t j e.bits).setRecord t ((c.record t).described m)) := by
  refine ⟨fun k s named => ?_, fun p hp none => ?_⟩
  · rw [h.record_describe table hj other m (h.table_le named)]
    by_cases own : s = t
    · rw [if_pos own, own, PfnRecord.entriesUsed_described hm]
    · rw [if_neg own, PfnRecord.described_entriesUsed]
  · rw [h.record_describe table hj other m hp, if_neg]
    rintro rfl
    exact none i table

/-- The machine after the entry of virtual page `n` is cleared. -/
def cleared (c : Machine) (t n : Nat) : Machine :=
  if (c.pte t (n % 1024)).isZero then c else c.setEntry t (n % 1024) .zero

lemma Wired.recounts_cleared (h : c.Wired) (table : c.Sweeps n t) : c.Recounts (c.cleared t n) := by
  unfold cleared
  split
  · exact .refl c
  · exact h.recounts_describe table.table (Nat.mod_lt n (by decide)) table.other'
      (Nat.lt_of_le_of_lt (inUse_le _ t) (by decide))

end Machine

namespace Manager

open Machine

variable {c c' : Machine} {W : PageMap} {m n t page count : Nat} {e template : Entry}

lemma flushMappedBy_leads (hn : n < 0x100000) :
    Leads c W (flushMappedBy (entryOf n)) () c (W.off n n) := (Leads.note _).bind (flushPage hn)

/-- A change of an entry and the flush after it, as one. -/
lemma replaceEntry_yields (h : c.Mapped) (table : c.Table (n / 1024) t) {f : Unit → Step Unit}
    (rest : Yields (c.setWord t (n % 1024) e.bits) (f ()) () c') :
    Yields c (writeEntry (entryOf n) e >>= fun _ => flushMappedBy (entryOf n) >>= f) () c' := by
  have lt := table.lt
  refine (writeTableEntry h table).bind (Leads.bind (a := ()) ?_ rest)
  refine (flushMappedBy_leads (by omega)).mono (PageMap.off_le fun k p outside mapped => ?_)
  rw [h.walk_setTable table (by omega) (by omega)]
  exact mapped

/-- The entries in use of a table, counted anew. -/
lemma recount_yields (h : c.Wired) (table : c.Sweeps n t) {m : Nat} (hm : m < 2048)
    {condition : Bool} {abort : Abort} (holds : condition = true) :
    Yields (c.setWord t (n % 1024) e.bits)
      (do require condition abort; setEntriesUsed t (c.record t) m) ()
      ((c.setWord t (n % 1024) e.bits).setRecord t ((c.record t).described m)) := by
  have wired := h.setTable (e := e) table.table (Nat.mod_lt n (by decide)) table.other'
  refine (Leads.require holds).bind ((Leads.lift (PfnRecord.withEntriesUsed_eq hm)).bind ?_)
  exact writeRecord_yields wired (h.table_le table.table)

lemma readTableRecord (h : c.Wired) (table : c.Sweeps n t) :
    Yields (c.setWord t (n % 1024) e.bits) (readRecord t) (c.record t)
      (c.setWord t (n % 1024) e.bits) := by
  have wired := h.setTable (e := e) table.table (Nat.mod_lt n (by decide)) table.other'
  have ran := readRecord_yields wired (p := t) (h.table_le table.table)
  rwa [h.toMapped.record_setTable table.table (Nat.mod_lt n (by decide)) (h.table_le table.table)]
    at ran

theorem clearEntry_yields (h : c.Kept) (table : c.Sweeps n t) :
    Yields c (clearEntry t (entryOf n)) () (c.cleared t n) := by
  refine (readTableEntry h.toMapped table.table).bind ?_
  unfold cleared
  cases zero : (c.pte t (n % 1024)).isZero with
  | true => exact .pure
  | false =>
    have less : inUse (c.setWord t (n % 1024) Entry.zero.bits) t + 1 = c.inUse t := by
      simpa [zero] using h.toMapped.inUse_setTable (e := .zero) table.table
        (Nat.mod_lt n (by decide))
    have le := c.inUse_le t
    simp only [Bool.false_eq_true, if_false]
    refine replaceEntry_yields h.toMapped table.table
      ((readTableRecord h.toWired table).bind ?_)
    rw [h.used _ t table.table, setEntry, ← less, Nat.add_sub_cancel]
    exact recount_yields h.toWired table (by omega) (decide_eq_true (by omega))

/-! ### Sweeps -/

/-- The table's page is looked up where it is not known yet. -/
lemma tableAt_yields (h : c.Tabled) (table : c.Sweeps n t) {known : Nat}
    (same : n ≠ m → n % 1024 ≠ 0 → known = t) :
    Yields c (tableAt (entryOf m) (entryOf n) known) t c := by
  have directory : Yields c (readEntry (entryOf n).entryAddress) (c.pde (n / 1024)) c := by
    rw [entryAddress_entryOf table.lt]
    exact readDirectoryEntry h.toMapped table.table.lt
  have frame : (c.pde (n / 1024)).frame = t := table.table.frame
  have look : Yields c (tableOf (entryOf n)) t c := by
    refine directory.bind ((Leads.require
      (Entry.valid_of_namesTable table.table.names)).bind ?_)
    rw [frame]
    refine (readRecord_yields h.toWired (h.toWired.table_le table.table)).bind
      ((Leads.require (h.tables _ t table.table)).bind .pure)
  unfold tableAt
  by_cases first : entryOf n = entryOf m
  · rw [decide_eq_true first]
    exact look
  · rw [decide_eq_false first, startsTable_entryOf table.lt, Bool.false_or]
    by_cases start : n % 1024 = 0
    · rw [decide_eq_true start]
      exact look
    · rw [decide_eq_false start, same (fun eq => first (by rw [eq])) start]
      exact .pure

/-- The entries of `count` virtual pages from `n` on become what `f` makes of them, whatever the
records count. -/
structure Rewrites (c c' : Machine) (n count : Nat) (f : Nat → Entry → Entry) : Prop where
  roles : c.SameRoles c'
  wired : c'.Wired
  pte : ∀ i t, c.Table i t → ∀ j < 1024, c'.pte t j =
    if n ≤ i * 1024 + j ∧ i * 1024 + j < n + count then f (i * 1024 + j) (c.pte t j)
    else c.pte t j

namespace Rewrites

variable {d : Machine} {f : Nat → Entry → Entry}

lemma refl (h : c.Wired) (n : Nat) (f : Nat → Entry → Entry) : Rewrites c c n 0 f := by
  refine ⟨.refl c, h, fun i t _ j _ => ?_⟩
  rw [if_neg (by omega)]

private lemma place_iff {i j : Nat} (hj : j < 1024) :
    n ≤ i * 1024 + j ∧ i * 1024 + j < n + 1 ↔ i = n / 1024 ∧ j = n % 1024 := by omega

/-- An entry is left alone that is what it should be. -/
lemma stay (h : c.Wired) (table : c.Sweeps n t)
    (same : f n (c.pte t (n % 1024)) = c.pte t (n % 1024)) : Rewrites c c n 1 f := by
  refine ⟨.refl c, h, fun i s named j hj => ?_⟩
  split
  · next here =>
    obtain ⟨rfl, rfl⟩ := (place_iff hj).mp here
    cases named.frame.symm.trans table.table.frame
    rw [Nat.div_add_mod', same]
  · rfl

/-- An entry is written, and the record of its table says something else. -/
lemma describe (h : c.Wired) (table : c.Sweeps n t) (becomes : f n (c.pte t (n % 1024)) = e)
    (m : Nat) : Rewrites c ((c.setWord t (n % 1024) e.bits).setRecord t
      ((c.record t).described m)) n 1 f := by
  have hj : n % 1024 < 1024 := Nat.mod_lt n (by decide)
  refine ⟨h.sameRoles_describe table.table hj table.other' _,
    h.describe table.table hj table.other' _, fun i s named j hj' => ?_⟩
  rw [h.pte_describe table.table hj table.other' _ (h.toMapped.lt_database named) hj']
  split
  · next here =>
    obtain ⟨rfl, rfl⟩ := here
    have same := h.distinct _ _ _ named table.table
    rw [if_pos ((place_iff hj).mpr ⟨same, rfl⟩), same, Nat.div_add_mod', becomes]
  · next elsewhere =>
    rw [if_neg]
    rintro here
    obtain ⟨rfl, rfl⟩ := (place_iff hj').mp here
    exact elsewhere ⟨named.frame.symm.trans table.table.frame, rfl⟩

lemma trans {rest : Nat} (h : Rewrites c d n count f) (h' : Rewrites d c' (n + count) rest f) :
    Rewrites c c' n (count + rest) f := by
  refine ⟨h.roles.trans h'.roles, h'.wired, fun i t table j hj => ?_⟩
  rw [h'.pte i t (h.roles.table_iff.mpr table) j hj, h.pte i t table j hj]
  by_cases first : n ≤ i * 1024 + j ∧ i * 1024 + j < n + count
  · rw [if_neg (by omega), if_pos first, if_pos (by omega)]
  · by_cases later : n + count ≤ i * 1024 + j ∧ i * 1024 + j < n + count + rest
    · rw [if_pos later, if_neg first, if_pos (by omega)]
    · rw [if_neg later, if_neg first, if_neg (by omega)]

lemma sweeps (h : Rewrites c d n count f) {k : Nat} (table : c.Sweeps k t) : d.Sweeps k t := by
  refine ⟨h.roles.table_iff.mpr table.table, ?_⟩
  rw [ShowsDatabase, h.roles.parameters]
  exact table.other

end Rewrites

/-- What a sweep over the entries of `count` virtual pages from `n` on leaves. -/
structure Swept (c c' : Machine) (n count : Nat) (f : Nat → Entry → Entry) : Prop where
  roles : c.SameRoles c'
  kept : c'.Kept
  pte : ∀ i t, c.Table i t → ∀ j < 1024, c'.pte t j =
    if n ≤ i * 1024 + j ∧ i * 1024 + j < n + count then f (i * 1024 + j) (c.pte t j)
    else c.pte t j

section
variable {f : Nat → Entry → Entry} {d : Machine}

lemma Rewrites.swept (h : Rewrites c c' n count f) (kept : c'.Kept) : Swept c c' n count f :=
  ⟨h.roles, kept, h.pte⟩

lemma Swept.rewrites (h : Swept c c' n count f) : Rewrites c c' n count f :=
  ⟨h.roles, h.kept.toWired, h.pte⟩

/-- One entry after which the sweep goes on. -/
lemma Swept.step (h : c.Kept) (table : c.Sweeps n t)
    (change : d = if f n (c.pte t (n % 1024)) = c.pte t (n % 1024) then c
      else c.setEntry t (n % 1024) (f n (c.pte t (n % 1024)))) : Swept c d n 1 f := by
  subst change
  split
  · next same => exact (Rewrites.stay h.toWired table same).swept h
  · exact (Rewrites.describe h.toWired table rfl _).swept
      (h.setEntry table.table (Nat.mod_lt n (by decide)) table.other')

lemma Swept.trans {rest : Nat} (h : Swept c d n count f) (h' : Swept d c' (n + count) rest f) :
    Swept c c' n (count + rest) f := (h.rewrites.trans h'.rewrites).swept h'.kept

end

/-- The table's page stays known up to the end of the table. -/
lemma known_succ (table : c.Sweeps n t) {t' : Nat} (inner : (n + 1) % 1024 ≠ 0)
    (named : c.Sweeps (n + 1) t') : t = t' := by
  have same : (n + 1) / 1024 = n / 1024 := by omega
  have frame := named.table.frame
  rw [same] at frame
  exact table.table.frame.symm.trans frame

theorem clearFrom_yields (h : c.Kept) (n count known : Nat)
    (cover : ∀ k, n ≤ k → k < n + count → ∃ t, c.Sweeps k t)
    (same : n ≠ m → n % 1024 ≠ 0 → ∀ t, c.Sweeps n t → known = t) :
    ∃ c', Yields c (clearFrom (entryOf m) count (entryOf n) known) () c' ∧
      Swept c c' n count (fun _ _ => .zero) ∧ c.Recounts c' := by
  induction count generalizing c n known with
  | zero => exact ⟨c, .pure, (Rewrites.refl h.toWired n _).swept h, .refl c⟩
  | succ count ih =>
    obtain ⟨t, table⟩ := cover n le_rfl (by omega)
    have step : Swept c (c.cleared t n) n 1 (fun _ _ => .zero) := by
      refine .step h table ?_
      unfold Machine.cleared
      by_cases zero : c.pte t (n % 1024) = .zero
      · rw [if_pos (Entry.isZero_iff.mpr zero), if_pos zero.symm]
      · rw [if_neg fun is => zero (Entry.isZero_iff.mp is), if_neg (Ne.symm zero)]
    obtain ⟨c', ran, swept, recounts⟩ := ih step.kept (n + 1) t
      (fun k low high => by
        obtain ⟨s, named⟩ := cover k (by omega) (by omega)
        exact ⟨s, step.rewrites.sweeps named⟩)
      (fun _ inner s named => known_succ (step.rewrites.sweeps table) inner named)
    refine ⟨c', ?_, Nat.add_comm 1 count ▸ step.trans swept,
      (h.toWired.recounts_cleared table).trans step.roles recounts⟩
    refine (tableAt_yields h.tabled table fun ne inner => same ne inner t table).bind
      ((clearEntry_yields h table).bind ?_)
    rw [nextEntry_entryOf]
    exact ran

/-! ### Ranges of entries -/

variable {first last : VirtualAddress}

/-- A range that may be swept is a run of virtual pages. -/
lemma sweepLength_eq (covers : c.Covers first last) (le : first.toNat ≤ last.toNat) :
    ∃ n, first = entryOf n ∧
      sweepLength first last = (last.toNat - first.toNat) / 4 + 1 ∧
      ∀ k, n ≤ k → k < n + ((last.toNat - first.toNat) / 4 + 1) → ∃ t, c.Sweeps k t := by
  have aligned := covers.aligned
  obtain ⟨n, t, place, table⟩ := covers.entries first.toNat le_rfl le aligned
  have entry : first = entryOf n := by
    apply Address.ext
    rw [toNat_entryOf table.lt, place]
  have cover (k : Nat) (low : n ≤ k) (high : k < n + ((last.toNat - first.toNat) / 4 + 1)) :
      ∃ t, c.Sweeps k t := by
    obtain ⟨k', t, eq, table⟩ := covers.entries (0xC0000000 + 4 * k) (by omega) (by omega)
      (by omega)
    cases (by omega : k = k')
    exact ⟨t, table⟩
  refine ⟨n, entry, ?_, cover⟩
  obtain ⟨t, table⟩ := cover (n + (last.toNat - first.toNat) / 4) (by omega) (by omega)
  have := table.lt
  unfold sweepLength
  rw [MemoryMap.entryBytes, if_neg (by omega), if_pos (by omega)]

/-- The entries of `[first, last]` are those of `count` virtual pages from `n` on. -/
structure Spans (first last : VirtualAddress) (n count : Nat) : Prop where
  within : ∀ k, k < count ↔ first.toNat + 4 * k ≤ last.toNat
  entry : 0 < count → first.toNat = 0xC0000000 + 4 * n

/-- Clearing the entries of a range. -/
theorem clearEntries_yields (h : c.Kept) (covers : c.Covers first last) :
    ∃ c' n count, Yields c (clearEntries first last) () c' ∧
      Swept c c' n count (fun _ _ => .zero) ∧ c.Recounts c' ∧ Spans first last n count := by
  by_cases le : first.toNat ≤ last.toNat
  · obtain ⟨n, rfl, length, cover⟩ := sweepLength_eq covers le
    obtain ⟨t, table⟩ := cover n le_rfl (by omega)
    obtain ⟨c', ran, swept, recounts⟩ :=
      clearFrom_yields (m := n) h n _ 0 cover fun ne => absurd rfl ne
    refine ⟨c', n, _, ?_, swept, recounts, fun k => by omega, fun _ => toNat_entryOf table.lt⟩
    rw [clearEntries, length]
    exact ran
  · refine ⟨c, 0, 0, ?_, (Rewrites.refl h.toWired 0 _).swept h, .refl c, fun k => by omega,
      fun none => by omega⟩
    rw [clearEntries, sweepLength, if_pos (by omega)]
    exact .pure

end Manager

end ConsoleMemory
