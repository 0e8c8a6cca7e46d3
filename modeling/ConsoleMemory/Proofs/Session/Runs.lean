import ConsoleMemory.Proofs.Boot.Ready
import ConsoleMemory.Proofs.Manager.Consistency
import ConsoleMemory.Proofs.Session.Actions

/-!
# Runs of a session

A session comes up from any contents of memory (`boot_comes_up`). From then on it
stays consistent over every run of legal actions (`run_stays_consistent`), no run
tells whether translations are remembered (`run_ignores_buffer`), and none shares
or loses a page table (`run_keeps_owners`).
-/

namespace ConsoleMemory

/-- The manager of a session apart from what is remembered. -/
def Session.machine (s : Session) : Machine :=
  ⟨s.manager.memory.ram, s.manager.layout, s.manager.parameters, s.manager.freeList,
    s.manager.usage⟩

/-- What is remembered is what the tables say. -/
def Session.Coherent (s : Session) : Prop :=
  ∀ (va : VirtualAddress) (place : PhysicalAddress),
    s.manager.memory.tlb.find? (va.pageNumber .small) = some place →
    (s.manager.memory.ram.translate va).run = .ok (.ok (place + va.offset .small))

/-- A buffer in which nothing is remembered. -/
def Tlb.Fresh (t : Tlb) : Prop := ∀ page, t.find? page = none

/-- Legal actions from `start` on and their answers, the pages that change hands in the end, and the
session then. -/
inductive Run (start : Session) :
    List (Action × Answer) → Option (Nat × Nat) → Session → Prop where
  | refl : Run start [] none start
  | step {events : List (Action × Answer)} {moving : Option (Nat × Nat)} {s s' : Session}
      {a : Action} {answer : Answer} :
      Run start events moving s → s.machine.Legal moving a → a.perform s = .ok answer s' →
      Run start (events ++ [(a, answer)]) (a.moved moving answer) s'

variable {s s' s₁ s₂ : Session} {c c' : Machine} {events : List (Action × Answer)} {a : Action}
  {answer : Answer} {moving moving' : Option (Nat × Nat)} {e : Abort}

namespace Session

/-- The session has machine `c` and remembers nothing but its walks. -/
structure Shows (s : Session) (c : Machine) : Prop where
  eq : s = ⟨c.manager s.manager.memory.tlb, s.trail⟩
  within : s.manager.memory.tlb.Within c.ram.walk

namespace Shows

lemma machine_eq (h : s.Shows c) : s.machine = c := by
  rw [h.eq]
  rfl

lemma manager_eq (h : s.Shows c) : s.manager = c.manager s.manager.memory.tlb :=
  congrArg Session.manager h.eq

/-- What a step yields, every session with the machine shows. -/
lemma step_ok {α : Type} {x : Step α} {o : α} (h : s.Shows c) (yields : Yields c x o c') :
    ∃ s', x s = .ok o s' ∧ s'.Shows c' := by
  obtain ⟨t, trail, ended, within⟩ := yields s.manager.memory.tlb s.trail h.within
  rw [← h.eq] at ended
  exact ⟨_, ended, rfl, within⟩

lemma step_error {α : Type} {x : Step α} (h : s.Shows c) (fails : Fails c c.ram.walk x e) :
    ∃ s', x s = .error e s' := by
  obtain ⟨s', ended⟩ := fails s.manager.memory.tlb s.trail h.within
  rw [← h.eq] at ended
  exact ⟨s', ended⟩

lemma perform_ok (h : s.Shows c) (yields : Yields c a.perform answer c') :
    ∃ s', a.perform s = .ok answer s' ∧ s'.Shows c' := h.step_ok yields

end Shows

/-- Moreover the machine keeps the invariant. -/
structure Rests (s : Session) (c : Machine) (moving : Option (Nat × Nat)) : Prop
    extends s.Shows c where
  stands : c.Stands moving
  targeted : c.Targeted

namespace Rests

lemma machine_eq (h : s.Rests c moving) : s.machine = c := h.toShows.machine_eq

lemma coherent (h : s.Rests c moving) : s.Coherent := by
  intro va place found
  have few := c.ram.pages_le
  have offset := va.offset_lt
  obtain ⟨p, walked, rfl⟩ := h.within _ place found
  have ram : s.manager.memory.ram = c.ram := congrArg Machine.ram h.machine_eq
  have inside := Ram.walk_lt walked
  rw [ram]
  rcases Ram.translate_eq h.stands.ordered.toMapped.large va with
    ⟨q, walked', translated⟩ | ⟨unmapped, _⟩
  · cases walked.symm.trans walked'
    rw [translated]
    refine congrArg (fun place => Except.ok (Except.ok place)) (Address.ext ?_)
    rw [Address.toNat_add, Address.toNat_ofNat, Address.toNat_ofNat]
    omega
  · rw [walked] at unmapped
    cases unmapped

lemma check_eq (h : s.Rests c none) : s.manager.check = .ok none := by
  rw [h.manager_eq]
  exact Manager.check_eq h.stands h.targeted

/-- What an action leaves, every session that rests with the machine shows. -/
lemma perform_ok (h : s.Rests c moving) (leaves : c.Leaves moving a answer c') :
    ∃ s', a.perform s = .ok answer s' ∧ s'.Rests c' (a.moved moving answer) := by
  obtain ⟨s', ran, shows⟩ := h.toShows.perform_ok leaves.yields
  exact ⟨s', ran, shows, leaves.stands, leaves.targeted⟩

lemma perform_error (h : s.Rests c moving) (fails : Fails c c.ram.walk a.perform e) :
    ∃ s', a.perform s = .error e s' := h.toShows.step_error fails

/-- A legal action that moves no pages returns. -/
lemma returns (h : s.Rests c moving) (legal : c.Legal moving a) (stays : a.movesPages = false) :
    ∃ answer s', a.perform s = .ok answer s' := by
  rcases Machine.perform_outcome h.stands h.targeted legal with
    ⟨answer, c', leaves⟩ | ⟨moves, _⟩
  · obtain ⟨s', ran, _⟩ := h.perform_ok leaves
    exact ⟨answer, s', ran⟩
  · rw [stays] at moves
    cases moves

/-- A legal action that returns keeps the invariant. -/
theorem step (h : s.Rests c moving) (legal : c.Legal moving a)
    (ran : a.perform s = .ok answer s') :
    ∃ c', c.Leaves moving a answer c' ∧ s'.Rests c' (a.moved moving answer) := by
  rcases Machine.perform_outcome h.stands h.targeted legal with
    ⟨answer', c', leaves⟩ | ⟨_, e, fails⟩
  · obtain ⟨s'', ran', rests⟩ := h.perform_ok leaves
    cases ran.symm.trans ran'
    exact ⟨c', leaves, rests⟩
  · obtain ⟨s'', ended⟩ := h.perform_error fails
    cases ran.symm.trans ended

/-- A legal action that ends one session ends every other that rests with the machine, in the same
way. -/
theorem fails (h : s.Rests c moving) (legal : c.Legal moving a) (ended : a.perform s = .error e s')
    (h₂ : s₂.Rests c moving) : ∃ s₂', a.perform s₂ = .error e s₂' := by
  rcases Machine.perform_outcome h.stands h.targeted legal with
    ⟨answer', c', leaves⟩ | ⟨_, e', fails⟩
  · obtain ⟨s'', ran, _⟩ := h.perform_ok leaves
    cases ended.symm.trans ran
  · obtain ⟨s'', ended'⟩ := h.perform_error fails
    cases ended.symm.trans ended'
    exact h₂.perform_error fails

/-- Every run keeps the invariant, and every session that rests with the machine can follow it. -/
theorem run (h : s.Rests c none) (run : Run s events moving s') :
    ∃ c', s'.Rests c' moving ∧ ∀ s₂ : Session, s₂.Rests c none →
      ∃ s₂', Run s₂ events moving s₂' ∧ s₂'.Rests c' moving := by
  induction run with
  | refl => exact ⟨c, h, fun s₂ rests₂ => ⟨s₂, .refl, rests₂⟩⟩
  | step _ legal ran ih =>
    obtain ⟨d, rests, follows⟩ := ih
    rw [rests.machine_eq] at legal
    obtain ⟨c', leaves, rests'⟩ := rests.step legal ran
    refine ⟨c', rests', fun s₂ rests₂ => ?_⟩
    obtain ⟨d₂, run₂, at₂⟩ := follows s₂ rests₂
    obtain ⟨s₂', ran₂, at₂'⟩ := at₂.perform_ok leaves
    rw [← at₂.machine_eq] at legal
    exact ⟨s₂', run₂.step legal ran₂, at₂'⟩

/-- What every action keeps that leaves the invariant in place, every run keeps. -/
theorem holds_run {P : Machine → Prop} (h : s.Rests c none) (base : P c)
    (keeps : ∀ d moving a answer c', d.Stands moving → d.Leaves moving a answer c' → P d → P c')
    (run : Run s events moving s') : P s'.machine := by
  induction run with
  | refl =>
    rw [h.machine_eq]
    exact base
  | step run legal ran ih =>
    obtain ⟨d, rests, _⟩ := h.run run
    rw [rests.machine_eq] at legal ih
    obtain ⟨c', leaves, rests'⟩ := rests.step legal ran
    rw [rests'.machine_eq]
    exact keeps d _ _ _ c' rests.stands leaves ih

/-- No run changes the numbers of the layout. -/
theorem parameters_run (h : s.Rests c none) (run : Run s events moving s') :
    s'.machine.parameters = c.parameters :=
  h.holds_run (P := fun d => d.parameters = c.parameters) rfl
    (fun _ _ _ _ _ _ leaves same => leaves.parameters.trans same) run

/-- No run changes how much memory is installed. -/
theorem size_run (h : s.Rests c none) (run : Run s events moving s') :
    s'.machine.ram.size = c.ram.size :=
  h.holds_run (P := fun d => d.ram.size = c.ram.size) rfl
    (fun _ _ _ _ _ _ leaves same => leaves.size.trans same) run

end Rests

/-- With all of its memory installed and nothing remembered, a session comes up. What it is made of
does not depend on the kind of buffer. -/
theorem comes_up_sized (l : Layout) {p : Parameters} (boots : p.Boots) {ram : Ram}
    (size : p.ramSize ≤ ram.size) (trail : Array Note) :
    ∃ c : Machine, c.parameters = p ∧ c.ram.size = ram.size ∧
      (∃ H, c.CameUp H ∧ c.Furnished (c.parameters.spare H)) ∧
      ∀ t : Tlb, t.Fresh → ∃ m s, Manager.create ⟨ram, t⟩ l p = .ok m ∧
        Manager.boot ⟨m, trail⟩ = .ok () s ∧ s.Rests c none := by
  have window := boots.window
  obtain ⟨free, full⟩ : ∃ free, FreeList.full p.highestPage p.debuggerBoundary = .ok free :=
    ⟨_, FreeList.full_eq (by omega)⟩
  obtain ⟨c, booted, kept, targeted, parameters, size', cameUp⟩ := Manager.boot_leads
    (c := ⟨ram, l, p, free, .zero⟩) boots size full rfl
  refine ⟨c, parameters, size', cameUp, fun t fresh => ?_⟩
  obtain ⟨t', trail', ran, within⟩ := booted t trail fun page place found => by
    rw [fresh page] at found
    cases found
  refine ⟨⟨⟨ram, t⟩, l, p, free, .zero⟩, _, ?_, ran, ⟨rfl, within⟩, kept, targeted⟩
  rw [Manager.create, decide_eq_true size, full]
  rfl

theorem comes_up (l : Layout) {p : Parameters} (boots : p.Boots) {ram : Ram}
    (size : p.ramSize ≤ ram.size) (trail : Array Note) :
    ∃ c : Machine, c.parameters = p ∧ (∃ H, c.CameUp H ∧ c.Furnished (c.parameters.spare H)) ∧
      ∀ t : Tlb, t.Fresh → ∃ m s, Manager.create ⟨ram, t⟩ l p = .ok m ∧
        Manager.boot ⟨m, trail⟩ = .ok () s ∧ s.Rests c none := by
  obtain ⟨c, parameters, _, cameUp, comes⟩ := comes_up_sized l boots size trail
  exact ⟨c, parameters, cameUp, comes⟩

/-- With all of a layout's memory installed and nothing remembered, a session comes up. -/
theorem exists_boot (l : Layout) {ram : Ram} (size : l.parameters.ramSize ≤ ram.size)
    (trail : Array Note) :
    ∃ c : Machine, ∀ t : Tlb, t.Fresh → ∃ m s, Manager.create ⟨ram, t⟩ l l.parameters = .ok m ∧
      Manager.boot ⟨m, trail⟩ = .ok () s ∧ s.Rests c none := by
  obtain ⟨c, _, _, comes⟩ := comes_up l l.boots size trail
  exact ⟨c, comes⟩

/-- A layout comes up also with a lower limit for page tables, and rests after every run that leaves
no pages halfway. -/
lemma rests_after_runs (l : Layout) {limit : Nat} (low : limit < l.parameters.databasePage)
    (room : l.parameters.databaseTables ≤ ((Finset.range (limit + 1)).erase 0xF).card)
    {memory : GuestMemory} (size : l.parameters.ramSize ≤ memory.ram.size)
    (fresh : memory.tlb.Fresh) (trail : Array Note) :
    ∃ m s, Manager.create memory l { l.parameters with contiguousLimit := limit } = .ok m ∧
      Manager.boot ⟨m, trail⟩ = .ok () s ∧
      ∀ events s', Run s events none s' →
        s'.machine.parameters = { l.parameters with contiguousLimit := limit } ∧
          s'.Rests s'.machine none := by
  obtain ⟨c, parameters, _, comes⟩ := comes_up l (l.boots_lowered low room) size trail
  obtain ⟨m, s, created, booted, rests⟩ := comes memory.tlb fresh
  refine ⟨m, s, created, booted, fun events s' run => ?_⟩
  have same := (rests.parameters_run run).trans parameters
  obtain ⟨c', rests', _⟩ := rests.run run
  rw [rests'.machine_eq] at same ⊢
  exact ⟨same, rests'⟩

end Session

lemma Tlb.fresh_counting (n : Nat) : (Tlb.counting n).Fresh := fun _ => rfl

lemma Tlb.fresh_caching : (Tlb.caching []).Fresh := fun _ => rfl

/-- Whether a step returns, with an answer and a session that meet a test. -/
def Session.passes {α : Type} (s : Session) (x : Step α) (test : α → Session → Bool) : Bool :=
  match x s with
  | .error _ _ => false
  | .ok o s' => test o s'

/-- Whether a layout comes up, to a session that meets a test. -/
def Layout.passes (l : Layout) (memory : GuestMemory) (p : Parameters) (test : Session → Bool) :
    Bool :=
  match Manager.create memory l p with
  | .error _ => false
  | .ok m => Session.passes ⟨m, #[]⟩ Manager.boot fun _ s => test s

lemma Session.exists_of_passes {α : Type} {x : Step α} {test : α → Session → Bool}
    (h : s.passes x test = true) : ∃ o s', x s = .ok o s' ∧ test o s' = true := by
  unfold Session.passes at h
  cases ran : x s with
  | error e s' =>
    rw [ran] at h
    cases h
  | ok o s' =>
    rw [ran] at h
    exact ⟨o, s', rfl, h⟩

lemma Layout.exists_of_passes {memory : GuestMemory} {l : Layout} {p : Parameters}
    {test : Session → Bool} (h : l.passes memory p test = true) :
    ∃ m s, Manager.create memory l p = .ok m ∧ Manager.boot ⟨m, #[]⟩ = .ok () s ∧
      test s = true := by
  unfold Layout.passes at h
  cases created : Manager.create memory l p with
  | error e =>
    rw [created] at h
    cases h
  | ok m =>
    rw [created] at h
    obtain ⟨_, s, booted, met⟩ := Session.exists_of_passes h
    exact ⟨m, s, rfl, booted, met⟩

/-- A test that is computed from the layout holds of the session that came up. -/
lemma Layout.test_of_passes {memory : GuestMemory} {l : Layout} {p : Parameters} {m : Manager}
    (created : Manager.create memory l p = .ok m) (booted : Manager.boot ⟨m, #[]⟩ = .ok () s)
    (test : Session → Bool) (h : l.passes memory p test = true) : test s = true := by
  obtain ⟨m', s', created', booted', met⟩ := exists_of_passes h
  cases created.symm.trans created'
  cases booted.symm.trans booted'
  exact met

/-- A layout comes up from any contents of memory, also with a lower limit for page tables. The
directory, the database and its tables are all that is busy, and the tables are as high as the limit
allows. -/
theorem boot_comes_up (l : Layout) {limit : Nat} (low : limit < l.parameters.databasePage)
    (room : l.parameters.databaseTables ≤ ((Finset.range (limit + 1)).erase 0xF).card)
    {memory : GuestMemory} (size : l.parameters.ramSize ≤ memory.ram.size)
    (fresh : memory.tlb.Fresh) (trail : Array Note) :
    ∃ m s, Manager.create memory l { l.parameters with contiguousLimit := limit } = .ok m ∧
      Manager.boot ⟨m, trail⟩ = .ok () s ∧ s.manager.check = .ok none ∧
      s.machine.parameters = { l.parameters with contiguousLimit := limit } ∧
      ∃ H, s.machine.CameUp H := by
  obtain ⟨c, parameters, ⟨H, cameUp, _⟩, comes⟩ :=
    Session.comes_up l (l.boots_lowered low room) size trail
  obtain ⟨m, s, created, booted, rests⟩ := comes memory.tlb fresh
  refine ⟨m, s, created, booted, rests.check_eq, ?_⟩
  rw [rests.machine_eq]
  exact ⟨parameters, H, cameUp⟩

/-- A development kit whose two tables have to be the pages 0 and 1. -/
theorem boot_comes_up_debug :
    ∃ m s, Manager.create ⟨⟨0x8000000, .uniform 0xA5, by decide, by decide, by decide⟩, .caching []⟩
        .debug { Layout.debug.parameters with contiguousLimit := 1 } = .ok m ∧
      Manager.boot ⟨m, #[]⟩ = .ok () s ∧ s.manager.check = .ok none ∧
      s.machine.parameters = { Layout.debug.parameters with contiguousLimit := 1 } ∧
      ∃ H, s.machine.CameUp H :=
  boot_comes_up .debug (by decide) (by decide) (by decide) Tlb.fresh_caching #[]

/-- The manager's own check finds nothing when a session has come up, nor after any run of legal
actions that leaves no pages halfway; and no legal action ends the session but taking pages or
giving them back. -/
theorem run_stays_consistent (l : Layout) {memory : GuestMemory}
    (size : l.parameters.ramSize ≤ memory.ram.size) (fresh : memory.tlb.Fresh)
    (trail : Array Note) :
    ∃ m s, Manager.create memory l l.parameters = .ok m ∧ Manager.boot ⟨m, trail⟩ = .ok () s ∧
      ∀ events moving s', Run s events moving s' →
        (moving = none → s'.manager.check = .ok none) ∧
        ∀ a, s'.machine.Legal moving a → a.movesPages = false →
          ∃ answer s'', a.perform s' = .ok answer s'' := by
  obtain ⟨c, comes⟩ := Session.exists_boot l size trail
  obtain ⟨m, s, created, booted, rests⟩ := comes memory.tlb fresh
  refine ⟨m, s, created, booted, fun events moving s' run => ?_⟩
  obtain ⟨c', rests', _⟩ := rests.run run
  refine ⟨?_, fun a legal stays => ?_⟩
  · rintro rfl
    exact rests'.check_eq
  · rw [rests'.machine_eq] at legal
    exact rests'.returns legal stays

/-- A session with a debugger's pool and 128 MiB of used memory that remembers translations. -/
theorem run_stays_consistent_debug :
    ∃ m s, Manager.create ⟨⟨0x8000000, .uniform 0xA5, by decide, by decide, by decide⟩, .caching []⟩
        .debug Layout.debug.parameters = .ok m ∧ Manager.boot ⟨m, #[]⟩ = .ok () s ∧
      ∀ events moving s', Run s events moving s' →
        (moving = none → s'.manager.check = .ok none) ∧
        ∀ a, s'.machine.Legal moving a → a.movesPages = false →
          ∃ answer s'', a.perform s' = .ok answer s'' :=
  run_stays_consistent .debug (by decide) Tlb.fresh_caching #[]

/-- Sessions of which one may remember translations are in the same state: what is remembered is
what the tables say, and what ends one session ends the other. -/
structure Session.Agrees (s₁ s₂ : Session) (moving : Option (Nat × Nat)) : Prop where
  machine : s₁.machine = s₂.machine
  coherent : s₁.Coherent ∧ s₂.Coherent
  ends : ∀ a, s₁.machine.Legal moving a → ∀ e,
    (∃ s, a.perform s₁ = .error e s) ↔ ∃ s, a.perform s₂ = .error e s

lemma Session.Rests.agrees (h₁ : s₁.Rests c moving) (h₂ : s₂.Rests c moving) :
    s₁.Agrees s₂ moving := by
  refine ⟨h₁.machine_eq.trans h₂.machine_eq.symm, ⟨h₁.coherent, h₂.coherent⟩, fun a legal e => ?_⟩
  rw [h₁.machine_eq] at legal
  constructor
  · rintro ⟨s, ended⟩
    exact h₁.fails legal ended h₂
  · rintro ⟨s, ended⟩
    exact h₂.fails legal ended h₁

/-- A session that remembers translations and one that does not give the same answers over every run
of legal actions and are in the same state after it. -/
theorem run_ignores_buffer (l : Layout) {ram : Ram} (size : l.parameters.ramSize ≤ ram.size)
    (flushes : Nat) (trail : Array Note) :
    ∃ m₁ m₂ s₁ s₂, Manager.create ⟨ram, .counting flushes⟩ l l.parameters = .ok m₁ ∧
      Manager.create ⟨ram, .caching []⟩ l l.parameters = .ok m₂ ∧
      Manager.boot ⟨m₁, trail⟩ = .ok () s₁ ∧ Manager.boot ⟨m₂, trail⟩ = .ok () s₂ ∧
      s₁.Agrees s₂ none ∧ ∀ events moving,
        (∀ s₁', Run s₁ events moving s₁' → ∃ s₂', Run s₂ events moving s₂' ∧
          s₁'.Agrees s₂' moving) ∧
        ∀ s₂', Run s₂ events moving s₂' → ∃ s₁', Run s₁ events moving s₁' ∧
          s₁'.Agrees s₂' moving := by
  obtain ⟨c, comes⟩ := Session.exists_boot l size trail
  obtain ⟨m₁, s₁, created₁, booted₁, rests₁⟩ := comes _ (Tlb.fresh_counting flushes)
  obtain ⟨m₂, s₂, created₂, booted₂, rests₂⟩ := comes _ Tlb.fresh_caching
  refine ⟨m₁, m₂, s₁, s₂, created₁, created₂, booted₁, booted₂, rests₁.agrees rests₂,
    fun events moving => ⟨fun s₁' run => ?_, fun s₂' run => ?_⟩⟩
  · obtain ⟨c', rests', follows⟩ := rests₁.run run
    obtain ⟨s₂', run₂, rests₂'⟩ := follows s₂ rests₂
    exact ⟨s₂', run₂, rests'.agrees rests₂'⟩
  · obtain ⟨c', rests', follows⟩ := rests₂.run run
    obtain ⟨s₁', run₁, rests₁'⟩ := follows s₁ rests₁
    exact ⟨s₁', run₁, rests₁'.agrees rests'⟩

/-- Two sessions with 64 MiB of cleared memory. -/
theorem run_ignores_buffer_retail :
    ∃ m₁ m₂ s₁ s₂,
      Manager.create ⟨⟨0x4000000, .uniform 0, by decide, by decide, by decide⟩, .counting 0⟩
        .retail Layout.retail.parameters = .ok m₁ ∧
      Manager.create ⟨⟨0x4000000, .uniform 0, by decide, by decide, by decide⟩, .caching []⟩
        .retail Layout.retail.parameters = .ok m₂ ∧
      Manager.boot ⟨m₁, #[]⟩ = .ok () s₁ ∧ Manager.boot ⟨m₂, #[]⟩ = .ok () s₂ ∧
      s₁.Agrees s₂ none ∧ ∀ events moving,
        (∀ s₁', Run s₁ events moving s₁' → ∃ s₂', Run s₂ events moving s₂' ∧
          s₁'.Agrees s₂' moving) ∧
        ∀ s₂', Run s₂ events moving s₂' → ∃ s₁', Run s₁ events moving s₁' ∧
          s₁'.Agrees s₂' moving :=
  run_ignores_buffer .retail (by decide) 0 #[]

/-- Each page table has one directory entry, and is apart from the free pages, the directory and the
database, when a session has come up and after any run of legal actions, even one that leaves pages
halfway. -/
theorem run_keeps_owners (l : Layout) {memory : GuestMemory}
    (size : l.parameters.ramSize ≤ memory.ram.size) (fresh : memory.tlb.Fresh)
    (trail : Array Note) :
    ∃ m s, Manager.create memory l l.parameters = .ok m ∧ Manager.boot ⟨m, trail⟩ = .ok () s ∧
      ∀ events moving s', Run s events moving s' →
        s'.machine.parameters = l.parameters ∧ s'.machine.Owned := by
  obtain ⟨c, parameters, _, comes⟩ := Session.comes_up l l.boots size trail
  obtain ⟨m, s, created, booted, rests⟩ := comes memory.tlb fresh
  refine ⟨m, s, created, booted, fun events moving s' run => ?_⟩
  have same := (rests.parameters_run run).trans parameters
  obtain ⟨c', rests', _⟩ := rests.run run
  rw [rests'.machine_eq] at same ⊢
  exact ⟨same, rests'.stands.owns⟩

/-- A session with 128 MiB of memory, all of which may hold page tables. -/
theorem run_keeps_owners_arcade :
    ∃ m s, Manager.create ⟨⟨0x8000000, .uniform 0xFF, by decide, by decide, by decide⟩, .caching []⟩
        .arcade Layout.arcade.parameters = .ok m ∧ Manager.boot ⟨m, #[]⟩ = .ok () s ∧
      ∀ events moving s', Run s events moving s' →
        s'.machine.parameters = Layout.arcade.parameters ∧ s'.machine.Owned :=
  run_keeps_owners .arcade (by decide) Tlb.fresh_caching #[]

end ConsoleMemory
