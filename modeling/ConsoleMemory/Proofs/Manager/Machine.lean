import ConsoleMemory.Manager.Basic
import ConsoleMemory.Proofs.Guest.Coherence

/-!
# Steps of a machine

A machine is a manager apart from what its buffer remembers. A step leads from
one machine to another if it does so whatever is remembered, within a map of
pages that is known beforehand; so the two kinds of buffer need no proofs of
their own. At rest the map is the walk.
-/

namespace ConsoleMemory

structure Machine where
  ram : Ram
  layout : Layout
  parameters : Parameters
  freeList : FreeList
  usage : Usage

namespace Machine

/-- The machine with a buffer. -/
def manager (c : Machine) (t : Tlb) : Manager :=
  ⟨⟨c.ram, t⟩, c.layout, c.parameters, c.freeList, c.usage⟩

/-- The machine with other contents of memory. -/
def withRam (c : Machine) (r : Ram) : Machine := { c with ram := r }

/-- The machine with the word `i` of page `p` changed. -/
def setWord (c : Machine) (p i : Nat) (w : UInt32) : Machine :=
  { c with ram := c.ram.setWord p i w }

/-- The machine with `count` pages from `p` on cleared. -/
def wipe (c : Machine) (p count : Nat) : Machine := { c with ram := c.ram.wipe p count }

end Machine

variable {α β : Type} {c c₁ c₂ : Machine} {V W W₁ W₂ : PageMap} {x : Step α} {f : α → Step β}
  {a : α} {b : β} {e : Abort}

/-- From `c`, with nothing remembered outside of `W`, the step gives `a` and goes on to `c₁`, with
nothing remembered outside of `W₁`. -/
def Leads (c : Machine) (W : PageMap) (x : Step α) (a : α) (c₁ : Machine) (W₁ : PageMap) : Prop :=
  ∀ t trail, t.Within W → ∃ t' trail',
    x ⟨c.manager t, trail⟩ = .ok a ⟨c₁.manager t', trail'⟩ ∧ t'.Within W₁

/-- From `c`, with nothing remembered outside of `W`, the step ends with `e`. -/
def Fails (c : Machine) (W : PageMap) (x : Step α) (e : Abort) : Prop :=
  ∀ t trail, t.Within W → ∃ s, x ⟨c.manager t, trail⟩ = .error e s

/-- The step leads from one machine at rest to another. -/
abbrev Yields (c : Machine) (x : Step α) (a : α) (c₁ : Machine) : Prop :=
  Leads c c.ram.walk x a c₁ c₁.ram.walk

lemma current_run (f : Manager → Step β) (s : Session) :
    (Manager.current >>= f) s = f s.manager s := rfl

lemma change_run (g : Manager → Except Abort Manager) (s : Session) :
    Manager.change g s = (do
      let manager ← g s.manager
      set { s with manager } : Step Unit) s := rfl

namespace Leads

theorem bind (h : Leads c W x a c₁ W₁) (h' : Leads c₁ W₁ (f a) b c₂ W₂) :
    Leads c W (x >>= f) b c₂ W₂ := by
  intro t trail within
  obtain ⟨t', trail', ran, within'⟩ := h t trail within
  obtain ⟨t'', trail'', ran', within''⟩ := h' t' trail' within'
  refine ⟨t'', trail'', ?_, within''⟩
  simp only [Bind.bind, EStateM.bind, ran, ran']

theorem mono (h : Leads c W x a c₁ W₁) (le : W₁.Le W₂) : Leads c W x a c₁ W₂ := by
  intro t trail within
  obtain ⟨t', trail', ran, within'⟩ := h t trail within
  exact ⟨t', trail', ran, within'.mono le⟩

theorem pure : Leads c W (Pure.pure a) a c W := fun t trail within => ⟨t, trail, rfl, within⟩

theorem lift {y : Except Abort α} (h : y = .ok a) : Leads c W (liftM y) a c W := by
  subst h
  exact fun t trail within => ⟨t, trail, rfl, within⟩

theorem require {p : Bool} (h : p = true) : Leads c W (liftM (ConsoleMemory.require p e)) () c W :=
  lift (if_pos h)

theorem note (n : Note) : Leads c W (Manager.note n) () c W :=
  fun t trail within => ⟨t, trail.push n, rfl, within⟩

theorem notes (ns : List Note) : Leads c W (Manager.notes ns) () c W := by
  induction ns with
  | nil => exact pure
  | cons n rest ih => exact (note n).bind ih

/-- What is made of the manager must not depend on its buffer. -/
theorem current {f : Manager → Step β} (h : ∀ t, Leads c W (f (c.manager t)) b c₁ W₁) :
    Leads c W (Manager.current >>= f) b c₁ W₁ :=
  fun t trail within => h t t trail within

theorem change {g : Manager → Except Abort Manager}
    (h : ∀ t, g (c.manager t) = .ok (c₁.manager t)) : Leads c W (Manager.change g) () c₁ W := by
  intro t trail within
  refine ⟨t, trail, ?_, within⟩
  rw [change_run, h]
  rfl

/-! ### Memory -/

variable {va : VirtualAddress} {p i count : Nat} {w : UInt32}

theorem readWord (large : 0xF < c.ram.pages) (sound : W.Le c.ram.walk)
    (mapped : c.ram.walk (va.pageNumber .small) = some p) (aligned : va.offset .small = i * 4)
    (hi : i < 1024) : Leads c W (Manager.readWord va) (c.ram.word p i) c c.ram.walk := by
  intro t trail within
  obtain ⟨t', ran, within'⟩ := GuestMemory.readWord_eq large within sound mapped aligned hi
  refine ⟨t', trail, ?_, within'⟩
  have ran' : (c.manager t).memory.readWord va = .ok (.ok (c.ram.word p i), ⟨c.ram, t'⟩) := ran
  rw [Manager.readWord, current_run, ran']
  rfl

theorem writeWord (large : 0xF < c.ram.pages) (sound : W.Le c.ram.walk)
    (mapped : c.ram.walk (va.pageNumber .small) = some p) (aligned : va.offset .small = i * 4)
    (hi : i < 1024) : Leads c W (Manager.writeWord va w) () (c.setWord p i w) c.ram.walk := by
  intro t trail within
  obtain ⟨t', ran, within'⟩ :=
    GuestMemory.writeWord_eq (w := w) large within sound mapped aligned hi
  refine ⟨t', trail, ?_, within'⟩
  have ran' : (c.manager t).memory.writeWord va w = .ok ⟨none, ⟨c.ram.setWord p i w, t'⟩⟩ := ran
  rw [Manager.writeWord, current_run, ran']
  rfl

theorem flush (first last : VirtualAddress) :
    Leads c W (Manager.flush first last) () c
      (W.off (first.pageNumber .small) (last.pageNumber .small)) :=
  fun _ trail within => ⟨_, trail, rfl, within.flush _ _⟩

theorem clearRam {a : PhysicalAddress} {bytes : Nat} (place : a.toNat = p * 4096)
    (length : bytes = count * 4096) (fits : p + count ≤ c.ram.pages) :
    Leads c W (Manager.changeMemory fun memory => memory.clearRam a bytes) () (c.wipe p count)
      W := by
  refine change fun t => ?_
  have cleared : (c.manager t).memory.ram.clear a bytes = .ok (c.ram.wipe p count) :=
    length ▸ Ram.clear_eq place fits
  simp only [GuestMemory.clearRam, cleared]
  rfl

theorem writeRamWord {a : PhysicalAddress} (place : a.toNat = p * 4096 + i * 4)
    (hp : p < c.ram.pages) (hi : i < 1024) :
    Leads c W (Manager.changeMemory fun memory => memory.writeRamWord a w) () (c.setWord p i w)
      W := by
  refine change fun t => ?_
  have written : (c.manager t).memory.ram.write a (LittleEndian.encode w) =
      .ok (c.ram.setWord p i w) := Ram.writeWord_eq place hp hi
  simp only [GuestMemory.writeRamWord, GuestMemory.writeRam, written]
  rfl

end Leads

namespace Fails

theorem bind (h : Fails c W x e) : Fails c W (x >>= f) e := by
  intro t trail within
  obtain ⟨s, ran⟩ := h t trail within
  refine ⟨s, ?_⟩
  simp only [Bind.bind, EStateM.bind, ran]

theorem after (h : Leads c W x a c₁ W₁) (h' : Fails c₁ W₁ (f a) e) : Fails c W (x >>= f) e := by
  intro t trail within
  obtain ⟨t', trail', ran, within'⟩ := h t trail within
  obtain ⟨s, ran'⟩ := h' t' trail' within'
  refine ⟨s, ?_⟩
  simp only [Bind.bind, EStateM.bind, ran, ran']

theorem lift {y : Except Abort α} (h : y = .error e) : Fails c W (liftM y : Step α) e := by
  subst h
  exact fun t trail _ => ⟨_, rfl⟩

theorem current {f : Manager → Step β} (h : ∀ t, Fails c W (f (c.manager t)) e) :
    Fails c W (Manager.current >>= f) e :=
  fun t trail within => h t t trail within

theorem change {g : Manager → Except Abort Manager} (h : ∀ t, g (c.manager t) = .error e) :
    Fails c W (Manager.change g) e := by
  intro t trail within
  refine ⟨⟨c.manager t, trail⟩, ?_⟩
  rw [change_run, h]
  rfl

end Fails

end ConsoleMemory
