import ConsoleMemory.Proofs.Boot.Laying

/-!
# The database describes itself

Its pages are mapped through the tables laid for it and cleared. Only then can
records be written, first those of the tables, then those of its own pages.
-/

namespace ConsoleMemory

open VirtualAddress

namespace Manager

open Machine

variable {c : Machine} {template : Entry} {n i count page : Nat}

/-- Pages are mapped one after the other, through entries that mapped nothing. -/
theorem mapDatabaseFrom_yields (h : c.Mapped) (template : Entry) (count n page : Nat)
    (cover : ∀ m, n ≤ m → m < n + count →
      ∃ t, c.Table (m / 1024) t ∧ (c.pte t (m % 1024)).valid = false)
    (frames : page + count ≤ 0x100000) :
    ∃ r, Yields c (mapDatabaseFrom template count (entryOf n) page) () (c.withRam r) ∧
      (c.withRam r).Mapped ∧ r.pages = c.ram.pages ∧
      (∀ k < 1024, (c.withRam r).pde k = c.pde k) ∧
      ∀ k t, c.Table k t → ∀ j < 1024, (c.withRam r).pte t j =
        if n ≤ k * 1024 + j ∧ k * 1024 + j < n + count then
          template.framed (page + (k * 1024 + j - n))
        else c.pte t j := by
  induction count generalizing c n page with
  | zero =>
    refine ⟨c.ram, .pure, h, rfl, fun _ _ => rfl, fun k t _ j hj => ?_⟩
    rw [if_neg (by omega)]
    rfl
  | succ count ih =>
    obtain ⟨t, table, invalid⟩ := cover n le_rfl (by omega)
    have hj : n % 1024 < 1024 := Nat.mod_lt n (by decide)
    have written := writeTableEntry (e := template.framed page) h table
    have grows := h.walk_le_setTable (w := (template.framed page).bits) table hj invalid
    have pde (k : Nat) (hk : k < 1024) := h.pde_setTable (e := template.framed page) table hj hk
    have pte {k s : Nat} (named : c.Table k s) (j : Nat) (hj' : j < 1024) :=
      h.pte_setTable (e := template.framed page) table hj (h.lt_pages named) hj'
    obtain ⟨r, ran, mapped, pages, pde', pte'⟩ :=
      ih (h.setTable (e := template.framed page) table hj)
      (n + 1) (page + 1)
      (fun m low high => by
        obtain ⟨s, named, invalid'⟩ := cover m (by omega) (by omega)
        refine ⟨s, named.congr pde, ?_⟩
        rw [pte named _ (Nat.mod_lt m (by decide)), if_neg]
        · exact invalid'
        rintro ⟨rfl, rest⟩
        have := h.distinct _ _ _ named table
        omega)
      (by omega)
    refine ⟨r, ?_, mapped, pages, fun k hk => (pde' k hk).trans (pde k hk),
      fun k s named j hj' => ?_⟩
    · rw [mapDatabaseFrom, nextEntry_entryOf]
      exact (Leads.lift (Entry.withFrame_eq (by omega))).bind ((written.mono grows).bind ran)
    · have later := pte' k s (named.congr pde) j hj'
      rw [pte named j hj'] at later
      refine later.trans ?_
      by_cases first : s = t ∧ j = n % 1024
      · obtain ⟨rfl, rfl⟩ := first
        have here : k * 1024 + n % 1024 = n := by
          have := h.distinct _ _ _ named table
          omega
        rw [here, if_neg (by omega), if_pos ⟨rfl, rfl⟩, if_pos (by omega), Nat.sub_self,
          Nat.add_zero]
      · rw [if_neg first]
        have other : k * 1024 + j ≠ n := by
          intro same
          have index : k = n / 1024 := by omega
          subst index
          exact first ⟨named.frame.symm.trans table.frame, by omega⟩
        by_cases inside : n + 1 ≤ k * 1024 + j ∧ k * 1024 + j < n + 1 + count
        · have shift : page + 1 + (k * 1024 + j - (n + 1)) = page + (k * 1024 + j - n) := by omega
          rw [if_pos inside, if_pos (by omega), shift]
        · rw [if_neg inside, if_neg (by omega)]

/-- The record of a table of the database. -/
def tableRecord (used : Nat) : PfnRecord := (PfnRecord.busyAs .systemPageTable).described used

lemma busy_tableRecord (used : Nat) : (tableRecord used).busy = true := by
  rw [tableRecord, PfnRecord.busy_described, PfnRecord.busy_busyAs]

lemma pageType_tableRecord (used : Nat) : (tableRecord used).pageType = .systemPageTable := by
  rw [tableRecord, PfnRecord.pageType_described, PfnRecord.pageType_busyAs]

/-- The pages of the tables of consecutive directory entries become busy. -/
theorem markDatabaseTables_yields (h : c.Wired) (counted : c.Counted) (used count i : Nat)
    (small : used < 2048) (tables : ∀ k, i ≤ k → k < i + count → ∃ t, c.Table k t)
    (idle : ∀ k t, i ≤ k → c.Table k t → ¬ (c.record t).busy = true) :
    ∃ c', Yields c (markDatabaseTables used count (directoryEntryOf i)) () c' ∧ c.SameTables c' ∧
      c'.Counted ∧
      (∀ k t, i ≤ k → k < i + count → c.Table k t → c'.record t = tableRecord used) ∧
      ∀ q ≤ c.parameters.highestPage, (∀ k, i ≤ k → k < i + count → ¬ c.Table k q) →
        c'.record q = c.record q := by
  induction count generalizing c i with
  | zero => exact ⟨c, .pure, .refl c, counted, fun k t low high => by omega, fun _ _ _ => rfl⟩
  | succ count ih =>
    obtain ⟨t, table⟩ := tables i le_rfl (by omega)
    have ht := h.table_le table
    have frame : (c.pde i).frame = t := table.frame
    have record (q : Nat) (hq : q ≤ c.parameters.highestPage) :
        (c.mark t (tableRecord used) .systemPageTable).record q =
          if q = t then tableRecord used else c.record q := h.toMapped.record_setRecord ht hq
    have same : c.SameTables (c.mark t (tableRecord used) .systemPageTable) :=
      .setRecord h.toMapped ht _
    have back {k s : Nat} (named : (c.mark t (tableRecord used) .systemPageTable).Table k s) :
        c.Table k s := named.congr fun k hk => (same.pde h.toMapped hk).symm
    obtain ⟨c', ran, same', counted', marked, others⟩ :=
      ih (same.wired h) (counted.mark h.toMapped ht (idle i t le_rfl table) (busy_tableRecord used)
          (pageType_tableRecord used)) (i + 1)
        (fun k low high => by
          obtain ⟨s, named⟩ := tables k (by omega) (by omega)
          exact ⟨s, named.congr fun k hk => same.pde h.toMapped hk⟩)
        (fun k s low named => by
          have old := back named
          have other : s ≠ t := by
            rintro rfl
            have := h.distinct _ _ _ old table
            omega
          rw [record s (h.table_le old), if_neg other]
          exact idle k s (by omega) old)
    refine ⟨c', ?_, same.trans same', counted', fun k s low high named => ?_,
      fun q hq none => ?_⟩
    · have step := mark_yields (r := tableRecord used) (t := .systemPageTable) h counted ht
      have rest := step.bind
        (f := fun _ => markDatabaseTables used count (directoryEntryOf (i + 1))) ran
      rw [bind_assoc] at rest
      rw [markDatabaseTables, nextEntry_directoryEntryOf]
      refine (readDirectoryEntry h.toMapped table.lt).bind ?_
      rw [frame]
      exact (Leads.lift (PfnRecord.withEntriesUsed_eq small)).bind rest
    · by_cases first : k = i
      · subst first
        cases named.frame.symm.trans frame
        rw [others _ ht fun k low high again => ?_, record _ ht, if_pos rfl]
        have := h.distinct _ _ _ (back again) table
        omega
      · exact marked k s (by omega) (by omega) (named.congr fun k hk => same.pde h.toMapped hk)
    · rw [others q hq fun k low high again => none k (by omega) (by omega) (back again),
        record q hq, if_neg]
      rintro rfl
      exact none i le_rfl (by omega) table

end Manager

end ConsoleMemory
