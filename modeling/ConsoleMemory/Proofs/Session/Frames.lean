import ConsoleMemory.Proofs.Session.Runs

/-!
# What programs keep

No action of the manager changes a byte of a page that belongs to a program, and
neither does a question put to it (`run_spares_programs`).
-/

namespace ConsoleMemory

variable {α β : Type} {x : Step α} {f : α → Step β}

/-! ### Steps that only read -/

/-- Whether it returns or not, the step changes nothing but what is remembered and reported. -/
structure Quiet (x : Step α) : Prop where
  returns : ∀ s a s', x s = .ok a s' → s'.machine = s.machine
  ends : ∀ s e s', x s = .error e s' → s'.machine = s.machine

namespace Quiet

theorem pure (a : α) : Quiet (Pure.pure a : Step α) := by
  refine ⟨fun s b s' ran => ?_, fun s e s' ended => ?_⟩
  · cases ran
    rfl
  · cases ended

theorem throw (e : Abort) : Quiet (throw e : Step α) := by
  refine ⟨fun s b s' ran => ?_, fun s e s' ended => ?_⟩
  · cases ran
  · cases ended
    rfl

theorem lift (y : Except Abort α) : Quiet (liftM y : Step α) := by
  cases y with
  | ok a => exact pure a
  | error e => exact throw e

theorem bind (h : Quiet x) (h' : ∀ a, Quiet (f a)) : Quiet (x >>= f) := by
  refine ⟨fun s b s' ran => ?_, fun s e s' ended => ?_⟩
  · cases first : x s with
    | ok a s₁ =>
      simp only [Bind.bind, EStateM.bind, first] at ran
      exact ((h' a).returns _ _ _ ran).trans (h.returns _ _ _ first)
    | error e s₁ =>
      simp only [Bind.bind, EStateM.bind, first] at ran
      cases ran
  · cases first : x s with
    | ok a s₁ =>
      simp only [Bind.bind, EStateM.bind, first] at ended
      exact ((h' a).ends _ _ _ ended).trans (h.returns _ _ _ first)
    | error e s₁ =>
      simp only [Bind.bind, EStateM.bind, first] at ended
      cases ended
      exact h.ends _ _ _ first

theorem current {f : Manager → Step β} (h : ∀ m, Quiet (f m)) : Quiet (Manager.current >>= f) :=
  ⟨fun s => (h s.manager).returns s, fun s => (h s.manager).ends s⟩

end Quiet

namespace GuestMemory

variable {m m' : GuestMemory} {va : VirtualAddress} {place : PhysicalAddress}

lemma locate_ram (ok : m.locate va = .ok (.ok (place, m'))) : m'.ram = m.ram := by
  unfold locate at ok
  cases found : m.tlb.find? (va.pageNumber .small) with
  | some remembered =>
    rw [found] at ok
    cases ok
    rfl
  | none =>
    rw [found] at ok
    rcases translated : m.ram.translate va with e | fault | place
    all_goals
      rw [translated] at ok
      cases ok
    rfl

lemma readPieces_ram {pieces length : Nat} {loaded : Loaded}
    (ok : readPieces pieces m va length = .ok loaded) : loaded.memory.ram = m.ram := by
  induction pieces generalizing m va length loaded with
  | zero =>
    cases ok
    rfl
  | succ pieces ih =>
    cases length with
    | zero =>
      cases ok
      rfl
    | succ length =>
      rw [readPieces] at ok
      obtain ⟨result, located, ok⟩ := bind_eq_ok.mp ok
      cases result with
      | error fault =>
        cases ok
        rfl
      | ok found =>
        obtain ⟨place, m₁⟩ := found
        obtain ⟨bytes, _, ok⟩ := bind_eq_ok.mp ok
        obtain ⟨rest, read, ok⟩ := bind_eq_ok.mp ok
        cases ok
        exact (ih read).trans (locate_ram located)

lemma readWord_ram {result : Except PageFault UInt32} (ok : m.readWord va = .ok (result, m')) :
    m'.ram = m.ram := by
  obtain ⟨loaded, read, ok⟩ := bind_eq_ok.mp ok
  have same := readPieces_ram read
  cases fault : loaded.fault with
  | none =>
    rw [fault] at ok
    cases ok
    exact same
  | some fault' =>
    rw [fault] at ok
    cases ok
    exact same

end GuestMemory

namespace Manager

theorem readWord_quiet (va : VirtualAddress) : Quiet (readWord va) := by
  have same {s : Session} {result : Except PageFault UInt32} {m : GuestMemory}
      (read : s.manager.memory.readWord va = .ok (result, m)) :
      (⟨{ s.manager with memory := m }, s.trail⟩ : Session).machine = s.machine := by
    rw [Session.machine, Session.machine, GuestMemory.readWord_ram read]
  refine ⟨fun s w s' ran => ?_, fun s e s' ended => ?_⟩
  · rw [readWord, current_run] at ran
    rcases read : s.manager.memory.readWord va with e | ⟨fault | word, m⟩
    all_goals
      rw [read] at ran
      cases ran
    exact same read
  · rw [readWord, current_run] at ended
    rcases read : s.manager.memory.readWord va with e | ⟨fault | word, m⟩
    all_goals
      rw [read] at ended
      cases ended
    · rfl
    · exact same read

theorem readEntry_quiet (address : VirtualAddress) : Quiet (readEntry address) :=
  (readWord_quiet address).bind fun _ => .pure _

theorem readRecord_quiet (page : Nat) : Quiet (readRecord page) :=
  (Quiet.current fun _ => .lift _).bind fun _ => (readWord_quiet _).bind fun _ => .pure _

theorem tableOf_quiet (entry : VirtualAddress) : Quiet (tableOf entry) :=
  (readEntry_quiet _).bind fun _ => (Quiet.lift _).bind fun _ => (readRecord_quiet _).bind fun _ =>
    (Quiet.lift _).bind fun _ => .pure _

end Manager

/-! ### Questions -/

/-- What a kernel may ask the manager at any time. -/
inductive Question where
  | record (page : Nat)
  /-- The page of the table that holds an entry. -/
  | table (entry : VirtualAddress)
  | check

inductive Reply where
  | record (record : PfnRecord)
  | table (page : Nat)
  | checked (finding : Option Finding)

/-- How the manager finds the reply to a question. -/
def Question.ask : Question → Step Reply
  | record page => return .record (← Manager.readRecord page)
  | table entry => return .table (← Manager.tableOf entry)
  | check => do
    let m ← Manager.current
    return .checked (← m.check)

theorem Question.ask_quiet (q : Question) : Quiet q.ask := by
  cases q with
  | record page => exact (Manager.readRecord_quiet page).bind fun _ => .pure _
  | table entry => exact (Manager.tableOf_quiet entry).bind fun _ => .pure _
  | check => exact Quiet.current fun m => (Quiet.lift m.check).bind fun _ => .pure _

/-! ### Bytes -/

variable {s s' : Session} {c : Machine} {moving : Option (Nat × Nat)} {a : Action}
  {answer : Answer} {events : List (Action × Answer)}

/-- Every byte of the pages that are to be spared in session `s` is the same in `s'`. -/
def Session.SparedIn (s : Session) (moving : Option (Nat × Nat)) (s' : Session) : Prop :=
  ∀ p, s.machine.Spared moving p → ∀ k < 4096,
    s'.machine.ram.byteAt (p * 4096 + k) = s.machine.ram.byteAt (p * 4096 + k)

lemma Session.Rests.spares (h : s.Rests c moving) (legal : c.Legal moving a)
    (manages : a.stores = false) (ran : a.perform s = .ok answer s') : s.SparedIn moving s' := by
  obtain ⟨c', leaves, rests⟩ := h.step legal ran
  intro p spared k hk
  rw [h.machine_eq] at spared ⊢
  rw [rests.machine_eq]
  exact Ram.byteAt_congr (congrArg Entry.bits (leaves.spares manages p spared (k / 4) (by omega)))

/-- After any run of legal actions, a legal action of the manager that returns leaves every byte of
the pages that are to be spared, and a question leaves all of memory, even where it ends the
session. -/
theorem run_spares_programs (l : Layout) {memory : GuestMemory}
    (size : l.parameters.ramSize ≤ memory.ram.size) (fresh : memory.tlb.Fresh)
    (trail : Array Note) :
    ∃ m s, Manager.create memory l l.parameters = .ok m ∧ Manager.boot ⟨m, trail⟩ = .ok () s ∧
      ∀ events moving s', Run s events moving s' →
        s'.machine.parameters = l.parameters ∧
        (∀ a answer s'', s'.machine.Legal moving a → a.stores = false →
          a.perform s' = .ok answer s'' → s'.SparedIn moving s'') ∧
        ∀ q : Question, (∀ reply s'', q.ask s' = .ok reply s'' → s''.machine = s'.machine) ∧
          ∀ e s'', q.ask s' = .error e s'' → s''.machine = s'.machine := by
  obtain ⟨c, parameters, _, comes⟩ := Session.comes_up l l.boots size trail
  obtain ⟨m, s, created, booted, rests⟩ := comes memory.tlb fresh
  refine ⟨m, s, created, booted, fun events moving s' run => ⟨?_, ?_, fun q => ?_⟩⟩
  · exact (rests.parameters_run run).trans parameters
  · intro a answer s'' legal manages ran
    obtain ⟨c', rests', _⟩ := rests.run run
    rw [rests'.machine_eq] at legal
    exact rests'.spares legal manages ran
  · exact ⟨q.ask_quiet.returns s', q.ask_quiet.ends s'⟩

/-- A session with 64 MiB of memory that remembers translations. -/
theorem run_spares_programs_retail :
    ∃ m s, Manager.create ⟨⟨0x4000000, .uniform 0x5A, by decide, by decide, by decide⟩, .caching []⟩
        .retail Layout.retail.parameters = .ok m ∧ Manager.boot ⟨m, #[]⟩ = .ok () s ∧
      ∀ events moving s', Run s events moving s' →
        s'.machine.parameters = Layout.retail.parameters ∧
        (∀ a answer s'', s'.machine.Legal moving a → a.stores = false →
          a.perform s' = .ok answer s'' → s'.SparedIn moving s'') ∧
        ∀ q : Question, (∀ reply s'', q.ask s' = .ok reply s'' → s''.machine = s'.machine) ∧
          ∀ e s'', q.ask s' = .error e s'' → s''.machine = s'.machine :=
  run_spares_programs .retail (by decide) Tlb.fresh_caching #[]

end ConsoleMemory
