import ConsoleMemory.Proofs.Manager.DirectoryAccess
import ConsoleMemory.Proofs.Session.Committing
import ConsoleMemory.Proofs.Session.Releasing

/-!
# The end of the page directory

When a session has come up, committing and releasing stay inside the page directory
for every range that ends inside the address space. A range that passes its end makes
them read the word behind the directory, which is not mapped, and ends the session.
-/

namespace ConsoleMemory

namespace Machine

/-- The tables of the database lie below the directory entries of the page tables. -/
lemma Furnished.invalid {c : Machine} {S : Finset Nat} (h : c.Furnished S)
    (boots : c.parameters.Boots) : (c.pde 0x301).valid = false := by
  have spans := boots.spans
  have inside := boots.inside
  have window := boots.window
  have none : ¬ ∃ t, c.Table 0x301 t := fun table => by
    have := ((h.table_iff 0x301).mp table).2
    omega
  rcases h.others 0x301 (by decide) (by decide) (Or.inl (by decide)) with names | zero
  · exact absurd ⟨_, by decide, by decide, names, rfl⟩ none
  · rw [zero]
    exact Entry.valid_zero

end Machine

namespace Session

variable {s : Session} {c : Machine} {va : VirtualAddress} {n : Nat}

/-- When a session has come up, no table shows what lies behind the directory. -/
lemma comes_up_vacant (l : Layout) {memory : GuestMemory}
    (size : l.parameters.ramSize ≤ memory.ram.size) (fresh : memory.tlb.Fresh)
    (trail : Array Note) :
    ∃ m s c, Manager.create memory l l.parameters = .ok m ∧ Manager.boot ⟨m, trail⟩ = .ok () s ∧
      s.Rests c none ∧ (c.pde 0x301).valid = false := by
  obtain ⟨c, parameters, ⟨_, _, furnished⟩, comes⟩ := comes_up l l.boots size trail
  obtain ⟨m, s, created, booted, rests⟩ := comes memory.tlb fresh
  exact ⟨m, s, c, created, booted, rests, furnished.invalid (parameters ▸ l.boots)⟩

lemma Rests.commit_fails (h : s.Rests c none) (invalid : (c.pde 0x301).valid = false)
    (beyond : 0x100000000 < va.toNat + n) :
    ∃ s', Manager.commitTables va n s = .error Manager.pastDirectory s' :=
  h.toShows.step_error (Manager.commitTables_fails h.stands.ordered.toMapped invalid beyond)

lemma Rests.release_fails (h : s.Rests c none) (invalid : (c.pde 0x301).valid = false)
    (beyond : 0x100000000 < va.toNat + n) :
    ∃ s', Manager.releaseTables va n s = .error Manager.pastDirectory s' :=
  h.toShows.step_error (Manager.releaseTables_fails h.stands invalid beyond)

end Session

/-- When a session has come up, committing and releasing the tables of a range return just when the
range ends inside the address space. Then all that they take for directory entries are the 1024
words of the directory: no other access to such words is told from the manager's own that agrees
with it there. -/
theorem tables_stay_in_directory (l : Layout) {memory : GuestMemory}
    (size : l.parameters.ramSize ≤ memory.ram.size) (fresh : memory.tlb.Fresh)
    (trail : Array Note) :
    ∃ m s, Manager.create memory l l.parameters = .ok m ∧ Manager.boot ⟨m, trail⟩ = .ok () s ∧
      ∀ (va : VirtualAddress) n,
        (va.toNat + n ≤ 0x100000000 →
          (∃ answer s', Manager.commitTables va n s = .ok answer s') ∧
          (∃ s', Manager.releaseTables va n s = .ok () s') ∧
          ∀ d : DirectoryAccess, d.OwnInside →
            d.commitTables va n = Manager.commitTables va n ∧
            d.releaseTables va n = Manager.releaseTables va n) ∧
        (0x100000000 < va.toNat + n →
          (∃ s', Manager.commitTables va n s = .error Manager.pastDirectory s') ∧
          ∃ s', Manager.releaseTables va n s = .error Manager.pastDirectory s') := by
  obtain ⟨m, s, c, created, booted, rests, invalid⟩ :=
    Session.comes_up_vacant l size fresh trail
  refine ⟨m, s, created, booted, fun va n => ⟨fun fits => ⟨?_, ?_, fun d inside => ?_⟩,
    fun beyond => ⟨rests.commit_fails invalid beyond, rests.release_fails invalid beyond⟩⟩⟩
  · obtain ⟨answer, s', _, ran, _⟩ := rests.commit fits
    exact ⟨answer, s', ran⟩
  · obtain ⟨s', _, ran, _⟩ := rests.release fits
    exact ⟨s', ran⟩
  · have along := inside.along fits
    exact ⟨DirectoryAccess.commitTables_eq along, DirectoryAccess.releaseTables_eq along⟩

/-- A console that remembers translations and whose memory holds other contents at first. -/
theorem tables_stay_in_directory_retail :
    ∃ m s, Manager.create ⟨⟨0x4000000, .uniform 0xFF, by decide, by decide, by decide⟩, .caching []⟩
        .retail Layout.retail.parameters = .ok m ∧ Manager.boot ⟨m, #[]⟩ = .ok () s ∧
      ∀ (va : VirtualAddress) n,
        (va.toNat + n ≤ 0x100000000 →
          (∃ answer s', Manager.commitTables va n s = .ok answer s') ∧
          (∃ s', Manager.releaseTables va n s = .ok () s') ∧
          ∀ d : DirectoryAccess, d.OwnInside →
            d.commitTables va n = Manager.commitTables va n ∧
            d.releaseTables va n = Manager.releaseTables va n) ∧
        (0x100000000 < va.toNat + n →
          (∃ s', Manager.commitTables va n s = .error Manager.pastDirectory s') ∧
          ∃ s', Manager.releaseTables va n s = .error Manager.pastDirectory s') :=
  tables_stay_in_directory .retail (by decide) Tlb.fresh_caching #[]

/-- Releasing the last span and one byte more ends a session that has just come up, with a fault at
the word behind the directory; so does committing their tables. -/
theorem tables_pass_directory_retail :
    ∃ m s, Manager.create ⟨⟨0x4000000, .uniform 0, by decide, by decide, by decide⟩, .counting 0⟩
        .retail Layout.retail.parameters = .ok m ∧ Manager.boot ⟨m, #[]⟩ = .ok () s ∧
      (∃ s', Manager.releaseTables (.ofNat 0xFFC00000) 0x400001 s =
        .error (.fatal (.faultReading (.ofNat 0xC0301000) (.notPresent (.ofNat 0xC0301000)))) s') ∧
      ∃ s', Manager.commitTables (.ofNat 0xFFC00000) 0x400001 s =
        .error (.fatal (.faultReading (.ofNat 0xC0301000) (.notPresent (.ofNat 0xC0301000))))
          s' := by
  have size : Layout.retail.parameters.ramSize ≤ (⟨⟨0x4000000, .uniform 0, by decide, by decide,
      by decide⟩, .counting 0⟩ : GuestMemory).ram.size := by decide
  obtain ⟨m, s, c, created, booted, rests, invalid⟩ :=
    Session.comes_up_vacant .retail size (Tlb.fresh_counting 0) #[]
  exact ⟨m, s, created, booted, rests.release_fails invalid (by decide),
    rests.commit_fails invalid (by decide)⟩

end ConsoleMemory
