import ConsoleMemory.Proofs.Manager.Filling
import ConsoleMemory.Proofs.Manager.Guest
import ConsoleMemory.Proofs.Manager.Committing
import ConsoleMemory.Proofs.Manager.Ownership

/-!
# What a kernel asks for

An action is one request to the manager, or an access of a program. `Legal` is
what a kernel has to observe; it speaks of memory and of the manager but not of
what is remembered. Every legal action that does not end the session leaves the
invariant in place.
-/

namespace ConsoleMemory

inductive Action where
  | commit (va : VirtualAddress) (size : Nat)
  | release (va : VirtualAddress) (size : Nat)
  | take (request : PageRequest)
  /-- Marks pages busy; the entries that map them lie from `entry` on. -/
  | markBusy (first last : Nat) (entry : VirtualAddress) (type : PageType)
  | markIdle (first last : Nat)
  | giveBack (first last : Nat)
  | fill (first last : VirtualAddress) (template : Entry) (page : Nat)
  | clear (first last : VirtualAddress)
  | load (va : VirtualAddress) (length : Nat)
  | store (va : VirtualAddress) (bytes : List UInt8)

inductive Answer where
  | done
  | committed (result : Except CommitError Unit)
  | taken (page : Option Nat)
  | loaded (bytes : List UInt8) (fault : Option PageFault)
  | stored (fault : Option PageFault)

namespace Action

/-- What the manager does on an action. -/
def perform : Action → Step Answer
  | commit va size => return .committed (← Manager.commitTables va size)
  | release va size => do
    Manager.releaseTables va size
    return .done
  | take request => return .taken (← Manager.take request)
  | markBusy first last entry type => do
    Manager.markBusy first last entry type
    return .done
  | markIdle first last => do
    Manager.markIdle first last
    return .done
  | giveBack first last => do
    Manager.giveBack first last
    return .done
  | fill first last template page => do
    Manager.fillEntries first last template page
    return .done
  | clear first last => do
    Manager.clearEntries first last
    return .done
  | load va length => do
    let (bytes, fault) ← Manager.load va length
    return .loaded bytes fault
  | store va bytes => return .stored (← Manager.store va bytes)

/-- Whether pages leave or join the free list, which ends the session where the pools disagree. -/
def movesPages : Action → Bool
  | take _ | giveBack .. => true
  | _ => false

/-- Whether a program writes. -/
def stores : Action → Bool
  | store .. => true
  | _ => false

/-- The pages that change hands after an action, the first and the last, if `moving` did before. -/
def moved (moving : Option (Nat × Nat)) : Action → Answer → Option (Nat × Nat)
  | take request, .taken page => page.map fun p => (p, p + request.count - 1)
  | markIdle first last, _ => some (first, last)
  | markBusy .., _ | giveBack .., _ => none
  | _, _ => moving

end Action

namespace Machine

variable {c c' : Machine} {a : Action} {va : VirtualAddress} {n count page : Nat} {r : Ram}
  {moving : Option (Nat × Nat)}

/-- The bytes of a write, up to the first that faults, land in pages that are open to programs. -/
def LandsOpen (c : Machine) (va : VirtualAddress) (length : Nat) : Prop :=
  ∀ i < length, (∀ j < i, ∃ place, (c.ram.translate (va + j)).run = .ok (.ok place)) →
    ∀ place, (c.ram.translate (va + i)).run = .ok (.ok place) → c.Open (place.toNat / 4096)

/-- A page that entries may map: one past the end of memory, or a busy one that holds no page
table. -/
def Mappable (c : Machine) (page : Nat) : Prop :=
  page ≤ 0xFFFFF ∧ (page ≤ c.parameters.highestPage →
    (c.record page).busy = true ∧ (c.record page).pageType.isPageTable = false)

/-- What a kernel must observe. While pages change hands it has to settle what becomes of them, and
only programs go on. -/
def Legal (c : Machine) : Option (Nat × Nat) → Action → Prop
  | none, .commit va size => va.toNat + size ≤ 0x100000000
  | none, .release va size => va.toNat + size ≤ 0x100000000
  | none, .take _ => True
  | none, .markIdle first last => c.Dispensable first last
  | none, .fill first last template page => template.valid = true ∧ c.Covers first last ∧
    ∀ k, first.toNat + 4 * k ≤ last.toNat → c.Mappable (page + k)
  | none, .clear first last => c.Covers first last
  | some moving, .markBusy first last _ type => moving = (first, last) ∧ type.isPageTable = false
  | some moving, .giveBack first last => moving = (first, last)
  | _, .load _ _ => True
  | _, .store va bytes => c.LandsOpen va bytes.length
  | _, _ => False

/-- The invariant of the manager, at rest or while pages change hands. -/
def Stands (c : Machine) : Option (Nat × Nat) → Prop
  | none => c.Kept
  | some (first, last) => c.Lacks first last

lemma Stands.ordered (h : c.Stands moving) : c.Ordered := by
  cases moving with
  | none => exact Kept.toOrdered h
  | some pages => exact Lacks.toOrdered h

lemma Stands.owns (h : c.Stands moving) : c.Owned := by
  cases moving with
  | none => exact Kept.owns h
  | some pages => exact Lacks.owns h

lemma Stands.withRam (h : c.Stands moving) (same : c.ram.SameOff c.Open r) :
    (c.withRam r).Stands moving := by
  cases moving with
  | none => exact Kept.withRam h same
  | some pages => exact Lacks.withRam h same

/-- The walk and the translation lead to the same pages. -/
lemma LandsOpen.lands (h : c.LandsOpen va n) (mapped : c.Mapped) :
    GuestMemory.Lands c.ram.walk va n c.Open := by
  intro i hi before p hp
  have few := c.ram.pages_le
  have translated {k q : Nat} (walked : c.ram.walk ((va + k).pageNumber .small) = some q) :
      (c.ram.translate (va + k)).run =
        .ok (.ok (.ofNat (q * 4096 + (va + k).offset .small))) := by
    rcases Ram.translate_eq mapped.large (va + k) with ⟨q', walked', translated⟩ | ⟨unmapped, _⟩
    · cases walked.symm.trans walked'
      exact translated
    · rw [walked] at unmapped
      cases unmapped
  have opened := h i hi (fun j hj => by
    obtain ⟨q, walked⟩ := Option.ne_none_iff_exists'.mp (before j hj)
    exact ⟨_, translated walked⟩) _ (translated hp)
  have inside := Ram.walk_lt hp
  have offset := (va + i).offset_lt
  rw [Address.toNat_ofNat] at opened
  have page : (p * 4096 + (va + i).offset .small) % 0x100000000 / 4096 = p := by omega
  rwa [page] at opened

/-- Entries stay on target if each one is left alone or maps a mappable page. -/
lemma Targeted.change (h : c.Targeted) (roles : c.SameRoles c')
    (entries : ∀ i t, c.Table i t → ∀ j < 1024, c'.pte t j = c.pte t j ∨
      ((c'.pte t j).valid = true → c.Mappable (c'.pte t j).frame)) : c'.Targeted := by
  intro i t table j hj valid frame
  have table := roles.table_iff.mp table
  rw [roles.parameters] at frame
  rw [(roles.record _ frame).1, (roles.record _ frame).2]
  rcases entries i t table j hj with same | mappable
  · rw [same] at valid frame ⊢
    exact h i t table j hj valid frame
  · exact (mappable valid).2 frame

/-- Entries that a sweep fills with mappable pages are on target. -/
lemma Targeted.filled {template : Entry} (h : c.Targeted)
    (filled : Manager.Filled c c' template n page count)
    (frames : ∀ k < count, c.Mappable (page + k)) : c'.Targeted := by
  refine h.change filled.roles fun i t table j hj => ?_
  have entry := filled.pte i t table j hj
  by_cases inside : n ≤ i * 1024 + j ∧ i * 1024 + j < n + count
  · rw [if_pos inside, Manager.fillWith] at entry
    by_cases zero : (c.pte t j).isZero = true
    · have target := frames (i * 1024 + j - n) (by omega)
      have small := target.1
      have same : i * 1024 + j + page - n = page + (i * 1024 + j - n) := by omega
      refine Or.inr fun _ => ?_
      rw [entry, if_pos zero, same, Entry.frame_framed (by omega)]
      exact target
    · rw [if_neg zero] at entry
      exact Or.inl entry
  · rw [if_neg inside] at entry
    exact Or.inl entry

/-- Clearing entries leaves the others on target. -/
lemma Targeted.cleared (h : c.Targeted)
    (swept : Manager.Swept c c' n count fun _ _ => .zero) : c'.Targeted := by
  refine h.change swept.roles fun i t table j hj => ?_
  have entry := swept.pte i t table j hj
  by_cases inside : n ≤ i * 1024 + j ∧ i * 1024 + j < n + count
  · refine Or.inr fun valid => ?_
    rw [entry, if_pos inside, Entry.valid_zero] at valid
    cases valid
  · rw [if_neg inside] at entry
    exact Or.inl entry

/-- Pages to which the manager does not write: at rest those that are occupied, and while pages
change hands all that are no part of the PFN database. -/
def Spared (c : Machine) : Option (Nat × Nat) → Nat → Prop
  | none, p => c.Occupied p
  | some _, p => p ≤ c.parameters.highestPage ∧ (p < c.parameters.databasePage ∨
    c.parameters.databasePage + c.parameters.databasePages ≤ p)

/-- An action that returns `answer` leaves the machine `c'`: the invariant holds, only programs
write to pages that are to be spared, and the database is mapped by the tables that mapped it. -/
structure Leaves (c : Machine) (moving : Option (Nat × Nat)) (a : Action) (answer : Answer)
    (c' : Machine) : Prop where
  yields : Yields c a.perform answer c'
  stands : c'.Stands (a.moved moving answer)
  targeted : c'.Targeted
  parameters : c'.parameters = c.parameters
  size : c'.ram.size = c.ram.size
  spares : a.stores = false → ∀ p, c.Spared moving p → ∀ i < 1024,
    c'.ram.entry p i = c.ram.entry p i
  database : ∀ n, c.ShowsDatabase n → c'.pde (n / 1024) = c.pde (n / 1024)

/-- What a step of the manager does: it keeps the invariant, or else it ends the session. -/
def Outcome (c : Machine) (moving : Option (Nat × Nat)) (a : Action) : Prop :=
  (∃ answer c', c.Leaves moving a answer c') ∨
    a.movesPages = true ∧ ∃ e, Fails c c.ram.walk a.perform e

lemma Outcome.of_spares (answer : Answer) (yields : Yields c a.perform answer c')
    (stands : c'.Stands (a.moved none answer)) (targeted : c'.Targeted) (spares : c.Spares c') :
    c.Outcome none a :=
  Or.inl ⟨answer, c', yields, stands, targeted, spares.parameters, spares.size,
    fun _ => spares.entry, spares.database⟩

lemma Stands.load (h : c.Stands moving) (targeted : c.Targeted) (va : VirtualAddress)
    (length : Nat) : c.Outcome moving (.load va length) := by
  obtain ⟨⟨bytes, fault⟩, ran⟩ := Manager.load_yields h.ordered.toMapped va length
  exact Or.inl ⟨.loaded bytes fault, c, ran.bind .pure, h, targeted, rfl, rfl,
    fun _ _ _ _ _ => rfl, fun _ _ => rfl⟩

lemma Stands.store (h : c.Stands moving) (targeted : c.Targeted) {bytes : List UInt8}
    (lands : c.LandsOpen va bytes.length) : c.Outcome moving (.store va bytes) := by
  have mapped := h.ordered.toMapped
  obtain ⟨fault, r, ran, same⟩ := Manager.store_yields mapped (lands.lands mapped)
  exact Or.inl ⟨.stored fault, c.withRam r, ran.bind .pure, h.withRam same,
    targeted.withRam mapped same, rfl, same.size, nofun, fun _ shows =>
      pde_withRam mapped same (shows.lt mapped)⟩

lemma Kept.outcome (h : c.Kept) (targeted : c.Targeted) (legal : c.Legal none a) :
    c.Outcome none a := by
  have stands : c.Stands none := h
  cases a with
  | commit va size =>
    obtain ⟨result, c', ran, kept, upholds, _⟩ := Manager.commitTables_yields h legal
    exact .of_spares (.committed result) (ran.bind .pure) kept (upholds.targeted targeted)
      upholds.toSpares
  | release va size =>
    obtain ⟨c', ran, kept, upholds, _⟩ := Manager.releaseTables_yields h legal
    exact .of_spares .done (ran.bind .pure) kept (upholds.targeted targeted)
      upholds.toSpares
  | take request =>
    rcases Manager.take_outcome (r := request) h with ⟨e, ended⟩ | ran | ⟨page, l, ran, lacks⟩
    · exact Or.inr ⟨rfl, e, ended.bind⟩
    · exact .of_spares (.taken none) (ran.bind .pure) h targeted (.refl c)
    · exact .of_spares (.taken (some page)) (ran.bind .pure) lacks (targeted.setFree l)
        ⟨rfl, rfl, fun _ _ _ _ => rfl, fun _ _ => rfl⟩
  | markIdle first last =>
    obtain ⟨c', ran, lacks, same, on⟩ := Manager.markIdle_yields h legal
    exact .of_spares .done (ran.bind .pure) lacks (on targeted)
      (same.spares h.toMapped)
  | fill first last template page =>
    obtain ⟨valid, covers, frames⟩ := legal
    obtain ⟨c', n, count, ran, filled, _, spans⟩ := Manager.fillEntries_yields h covers template
      fun k le => Nat.lt_succ_of_le (frames k le).1
    have kept : c'.Kept := filled.kept_of_solid h fun i t _ =>
      Finset.filter_eq_empty_iff.mpr fun j _ blank => by
        rw [Entry.not_isZero_of_valid (Entry.valid_framed.trans valid)] at blank
        cases blank
    exact .of_spares .done (ran.bind .pure) kept
      (targeted.filled filled fun k hk => frames k ((spans.within k).mp hk))
      (filled.roles.spares h.toOrdered)
  | clear first last =>
    obtain ⟨c', n, count, ran, swept, _⟩ := Manager.clearEntries_yields h legal
    exact .of_spares .done (ran.bind .pure) swept.kept (targeted.cleared swept)
      (swept.roles.spares h.toOrdered)
  | load va length => exact stands.load targeted va length
  | store va bytes => exact stands.store targeted legal
  | markBusy => exact legal.elim
  | giveBack => exact legal.elim

lemma Lacks.outcome {first last : Nat} (h : c.Lacks first last) (targeted : c.Targeted)
    (legal : c.Legal (some (first, last)) a) : c.Outcome (some (first, last)) a := by
  have stands : c.Stands (some (first, last)) := h
  cases a with
  | markBusy first' last' entry type =>
    obtain ⟨eq, nontable⟩ := legal
    cases eq
    obtain ⟨c', ran, kept, same, on⟩ := Manager.markBusy_yields h entry nontable
    exact Or.inl ⟨.done, c', ran.bind .pure, kept, on targeted, same.parameters, same.size,
      fun _ p spared => same.entry p (Nat.lt_of_le_of_lt spared.1 h.installed) spared.2,
      fun _ shows => same.pde h.toMapped (shows.lt h.toMapped)⟩
  | giveBack first' last' =>
    cases legal
    rcases Manager.giveBack_outcome h with ⟨e, ended⟩ | ⟨l, ran, kept⟩
    · exact Or.inr ⟨rfl, e, ended.bind⟩
    · exact Or.inl ⟨.done, c.setFree l, ran.bind .pure, kept, targeted.setFree l, rfl, rfl,
        fun _ _ _ _ _ => rfl, fun _ _ => rfl⟩
  | load va length => exact stands.load targeted va length
  | store va bytes => exact stands.store targeted legal
  | _ => exact legal.elim

/-- A legal action keeps the invariant, or else it moves pages and ends the session. -/
theorem perform_outcome (h : c.Stands moving) (targeted : c.Targeted)
    (legal : c.Legal moving a) : c.Outcome moving a := by
  cases moving with
  | none => exact Kept.outcome h targeted legal
  | some pages => exact Lacks.outcome h targeted legal

end Machine

end ConsoleMemory
