import ConsoleMemory.Proofs.Manager.Invariant

/-!
# What the manager leaves alone

A busy page that holds neither a page table nor a part of the database belongs
to a program. The manager reaches the directory, the tables, the database and
pages that were idle, so that each of its steps spares the contents of such
pages (`Spares`), and one that neither takes pages nor gives them back leaves
them where they are as well (`Upholds`). The tables of the database hold entries,
so that none of them goes.
-/

namespace ConsoleMemory.Machine

variable {c c' c'' : Machine} {i n p t : Nat}

/-- Page `p` is busy and holds neither a page table nor a part of the PFN database. -/
structure Occupied (c : Machine) (p : Nat) : Prop where
  le : p ≤ c.parameters.highestPage
  busy : (c.record p).busy = true
  nontable : (c.record p).pageType.isPageTable = false
  outside : p < c.parameters.databasePage ∨
    c.parameters.databasePage + c.parameters.databasePages ≤ p

namespace Occupied

variable (o : c.Occupied p)
include o

lemma lt_pages (h : c.Mapped) : p < c.ram.pages := Nat.lt_of_le_of_lt o.le h.installed

lemma not_idle : p ∉ c.idlePages := by
  intro idle
  cases o.busy.symm.trans (mem_idlePages.mp idle).2

lemma ne_directory (h : c.Ordered) : p ≠ 0xF := by
  rintro rfl
  have nontable := o.nontable
  rw [h.directory.2] at nontable
  cases nontable

lemma not_table (h : c.Ordered) : ¬ c.Table i p := by
  intro table
  cases o.nontable.symm.trans (h.isPageTable_of_table table)

lemma congr (parameters : c'.parameters = c.parameters) (busy : (c'.record p).busy = true)
    (type : (c'.record p).pageType = (c.record p).pageType) : c'.Occupied p := by
  refine ⟨?_, busy, type ▸ o.nontable, ?_⟩
  · rw [parameters]
    exact o.le
  · rw [parameters]
    exact o.outside

end Occupied

/-- Every occupied page holds in `c'` what it holds in `c`, and the directory shows the tables of
the database as it does in `c`. -/
structure Spares (c c' : Machine) : Prop where
  parameters : c'.parameters = c.parameters
  size : c'.ram.size = c.ram.size
  entry : ∀ p, c.Occupied p → ∀ i < 1024, c'.ram.entry p i = c.ram.entry p i
  database : ∀ n, c.ShowsDatabase n → c'.pde (n / 1024) = c.pde (n / 1024)

/-- Moreover occupied pages stay occupied, and entries on target stay so. -/
structure Upholds (c c' : Machine) : Prop extends c.Spares c' where
  occupied : ∀ p, c.Occupied p → c'.Occupied p
  targeted : c.Targeted → c'.Targeted

lemma Spares.refl (c : Machine) : c.Spares c := ⟨rfl, rfl, fun _ _ _ _ => rfl, fun _ _ => rfl⟩

lemma ShowsDatabase.congr (shows : c.ShowsDatabase n)
    (parameters : c'.parameters = c.parameters) : c'.ShowsDatabase n := by
  rw [ShowsDatabase, parameters]
  exact shows

/-- The directory has an entry for each page of the database. -/
lemma ShowsDatabase.lt (shows : c.ShowsDatabase n) (h : c.Mapped) : n / 1024 < 1024 := by
  obtain ⟨_, high⟩ := shows
  have := h.fit.inside
  have := h.fit.window
  omega

lemma Upholds.refl (c : Machine) : c.Upholds c := ⟨.refl c, fun _ => id, id⟩

lemma Upholds.trans (h : c.Upholds c') (h' : c'.Upholds c'') : c.Upholds c'' := by
  refine ⟨⟨h'.parameters.trans h.parameters, h'.size.trans h.size, fun p o i hi => ?_,
    fun n shows => ?_⟩, fun p o => h'.occupied p (h.occupied p o),
    fun on => h'.targeted (h.targeted on)⟩
  · exact (h'.entry p (h.occupied p o) i hi).trans (h.entry p o i hi)
  · exact (h'.database n (shows.congr h.parameters)).trans (h.database n shows)

lemma SameTables.spares (same : c.SameTables c') (h : c.Mapped) : c.Spares c' :=
  ⟨same.parameters, same.size, fun p o i hi => same.entry p (o.lt_pages h) o.outside i hi,
    fun _ shows => same.pde h (shows.lt h)⟩

lemma SameRoles.spares (roles : c.SameRoles c') (h : c.Ordered) : c.Spares c' :=
  ⟨roles.parameters, roles.size, fun p o i hi =>
    roles.entry p (o.lt_pages h.toMapped) (fun _ => o.not_table h) o.outside i hi,
    fun _ shows => roles.pde _ (shows.lt h.toMapped)⟩

end ConsoleMemory.Machine
