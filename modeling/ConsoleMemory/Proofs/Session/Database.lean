import ConsoleMemory.Proofs.Session.Runs

/-!
# The database from both sides

The manager reaches a record through the tables and through what is remembered of
them; its own check reads memory directly. Both find the same word in every state
of a run, for no run changes how the database is mapped (`run_finds_database`).
-/

namespace ConsoleMemory

variable {s s' : Session} {c c' : Machine} {events : List (Action × Answer)} {a : Action}
  {answer : Answer} {moving : Option (Nat × Nat)} {p n : Nat}

namespace Machine

/-- The directory maps itself in `c'`, and the tables map the database, just as in `c`. -/
structure MapsAlike (c c' : Machine) : Prop where
  selfMap : c'.pde 0x300 = c.pde 0x300
  table : ∀ n, c.ShowsDatabase n → c'.pde (n / 1024) = c.pde (n / 1024)
  entry : ∀ n, c.ShowsDatabase n →
    c'.pte (c.pde (n / 1024)).frame (n % 1024) = c.pte (c.pde (n / 1024)).frame (n % 1024)

namespace MapsAlike

lemma refl (c : Machine) : c.MapsAlike c := ⟨rfl, fun _ _ => rfl, fun _ _ => rfl⟩

lemma trans {c'' : Machine} (h : c.MapsAlike c') (h' : c'.MapsAlike c'')
    (parameters : c'.parameters = c.parameters) : c.MapsAlike c'' := by
  refine ⟨h'.selfMap.trans h.selfMap, fun n shows => ?_, fun n shows => ?_⟩
  · exact (h'.table n (shows.congr parameters)).trans (h.table n shows)
  · have later := h'.entry n (shows.congr parameters)
    rw [h.table n shows] at later
    exact later.trans (h.entry n shows)

end MapsAlike

/-- The entry of a page of the database, in the table that the directory names. -/
lemma Wired.pte_shown (h : c.Wired) (shows : c.ShowsDatabase n) :
    c.pte (c.pde (n / 1024)).frame (n % 1024) = .databaseEntry (n - 0x80000) := by
  obtain ⟨t, table, entry⟩ := h.shown shows
  rw [table.frame]
  exact entry

/-- An action leaves the tables of the database where they are, and their entries are kept by the
invariant. -/
lemma Leaves.mapsAlike (leaves : c.Leaves moving a answer c') (h : c.Wired) : c.MapsAlike c' := by
  have wired := leaves.stands.ordered.toWired
  refine ⟨wired.selfMap.trans h.selfMap.symm, leaves.database, fun n shows => ?_⟩
  have entry := wired.pte_shown (shows.congr leaves.parameters)
  rw [leaves.database n shows] at entry
  rw [entry, h.pte_shown shows]

end Machine

namespace Session.Rests

/-- No run changes how the database is mapped. -/
theorem mapsAlike_run (h : s.Rests c none) (run : Run s events moving s') :
    c.MapsAlike s'.machine := by
  have alike := h.holds_run (P := fun d => d.parameters = c.parameters ∧ c.MapsAlike d)
    ⟨rfl, .refl c⟩ (fun d _ _ _ c' stands leaves ⟨parameters, alike⟩ => ?_) run
  · exact alike.2
  · have step := leaves.mapsAlike stands.ordered.toWired
    exact ⟨leaves.parameters.trans parameters, alike.trans step parameters⟩

/-- The word of a record in memory, its place being that of the database. -/
lemma readWord_eq (h : s.Rests c moving) (hp : p ≤ c.parameters.highestPage) :
    s.manager.memory.ram.readWord (.ofNat (c.parameters.databasePage * 4096 + 4 * p)) =
      .ok (c.record p).bits := by
  have mapped := h.stands.ordered.toMapped
  have place := (mapped.record_place hp).2
  have few := c.ram.pages_le
  have ram : s.manager.memory.ram = c.ram := congrArg Machine.ram h.machine_eq
  rw [ram]
  refine Ram.readWord_eq ?_ place (Nat.mod_lt p (by decide))
  rw [Address.toNat_ofNat]
  omega

/-- Through the tables the manager finds a record, and it does not change. -/
lemma readRecord_ok (h : s.Rests c moving) (hp : p ≤ c.parameters.highestPage) :
    ∃ s', Manager.readRecord p s = .ok (c.record p) s' ∧ s'.machine = c := by
  obtain ⟨s', ran, shows⟩ := h.step_ok (Manager.readRecord_yields h.stands.ordered.toWired hp)
  exact ⟨s', ran, shows.machine_eq⟩

end Session.Rests

/-- After any run of legal actions the manager finds every record through the tables, without a
fault, and it is the word at the record's place in memory, which the check reads. The directory maps
itself and the tables map the database by the very entries that were written when the session came
up. -/
theorem run_finds_database (l : Layout) {memory : GuestMemory}
    (size : l.parameters.ramSize ≤ memory.ram.size) (fresh : memory.tlb.Fresh)
    (trail : Array Note) :
    ∃ m s, Manager.create memory l l.parameters = .ok m ∧ Manager.boot ⟨m, trail⟩ = .ok () s ∧
      s.machine.pde 0x300 = .selfMap ∧
      (∀ n, s.machine.ShowsDatabase n →
        s.machine.pte (s.machine.pde (n / 1024)).frame (n % 1024) = .databaseEntry (n - 0x80000)) ∧
      ∀ events moving s', Run s events moving s' → s.machine.MapsAlike s'.machine ∧
        ∀ p ≤ l.parameters.highestPage, ∃ word s'',
          s'.manager.memory.ram.readWord (.ofNat (l.parameters.databasePage * 4096 + 4 * p)) =
            .ok word ∧
          s'.manager.recordInRam p = .ok ⟨word⟩ ∧
          Manager.readRecord p s' = .ok ⟨word⟩ s'' ∧ s''.machine = s'.machine := by
  obtain ⟨c, parameters, _, comes⟩ := Session.comes_up l l.boots size trail
  obtain ⟨m, s, created, booted, rests⟩ := comes memory.tlb fresh
  have wired := rests.stands.ordered.toWired
  refine ⟨m, s, created, booted, ?_, fun n shows => ?_, fun events moving s' run => ?_⟩
  · rw [rests.machine_eq]
    exact wired.selfMap
  · rw [rests.machine_eq] at shows ⊢
    exact wired.pte_shown shows
  constructor
  · rw [rests.machine_eq]
    exact rests.mapsAlike_run run
  · intro p hp
    have same := (rests.parameters_run run).trans parameters
    obtain ⟨d, rests', _⟩ := rests.run run
    rw [rests'.machine_eq] at same ⊢
    rw [← same] at hp ⊢
    obtain ⟨s'', ran, unchanged⟩ := rests'.readRecord_ok hp
    refine ⟨(d.record p).bits, s'', rests'.readWord_eq hp, ?_, ran, unchanged⟩
    rw [rests'.manager_eq]
    exact Manager.recordInRam_eq rests'.stands.ordered.fit rests'.stands.ordered.installed hp

/-- A development kit, whose database is mapped by two tables, and that remembers translations. -/
theorem run_finds_database_debug :
    ∃ m s, Manager.create ⟨⟨0x8000000, .uniform 0xA5, by decide, by decide, by decide⟩, .caching []⟩
        .debug Layout.debug.parameters = .ok m ∧ Manager.boot ⟨m, #[]⟩ = .ok () s ∧
      s.machine.pde 0x300 = .selfMap ∧
      (∀ n, s.machine.ShowsDatabase n →
        s.machine.pte (s.machine.pde (n / 1024)).frame (n % 1024) = .databaseEntry (n - 0x80000)) ∧
      ∀ events moving s', Run s events moving s' → s.machine.MapsAlike s'.machine ∧
        ∀ p ≤ Layout.debug.parameters.highestPage, ∃ word s'',
          s'.manager.memory.ram.readWord
            (.ofNat (Layout.debug.parameters.databasePage * 4096 + 4 * p)) = .ok word ∧
          s'.manager.recordInRam p = .ok ⟨word⟩ ∧
          Manager.readRecord p s' = .ok ⟨word⟩ s'' ∧ s''.machine = s'.machine :=
  run_finds_database .debug (by decide) Tlb.fresh_caching #[]

end ConsoleMemory
