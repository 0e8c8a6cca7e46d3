import ConsoleMemory.Proofs.Guest.Pieces
import ConsoleMemory.Proofs.Manager.Pages

/-!
# What programs read and write

A program reaches memory through the same tables. What it reads does not depend
on what is remembered, and what it writes leaves the invariant alone as long as
it lands in pages that the manager does not look into.
-/

namespace ConsoleMemory

namespace Machine

variable {c : Machine} {r : Ram} {first last p i t : Nat}

/-- The page holds neither the page directory nor a page table nor a part of the PFN database. -/
structure Open (c : Machine) (p : Nat) : Prop where
  directory : p ≠ 0xF
  table : ∀ i, ¬ c.Table i p
  database : p < c.parameters.databasePage ∨
    c.parameters.databasePage + c.parameters.databasePages ≤ p

section
variable (h : c.Mapped) (same : c.ram.SameOff c.Open r)
include h same

lemma pde_withRam (hi : i < 1024) : (c.withRam r).pde i = c.pde i :=
  congrArg Entry.mk (same.word 0xF i h.large hi fun opened => opened.directory rfl)

lemma pte_withRam (table : c.Table i t) {j : Nat} (hj : j < 1024) :
    (c.withRam r).pte t j = c.pte t j :=
  congrArg Entry.mk (same.word t j (h.lt_pages table) hj fun opened => opened.table i table)

lemma record_withRam (hp : p ≤ c.parameters.highestPage) :
    (c.withRam r).record p = c.record p := by
  obtain ⟨database, place⟩ := h.record_place hp
  have shut : ¬ c.Open (c.parameters.databasePage + p / 1024) := fun opened => by
    have := opened.database
    omega
  exact congrArg PfnRecord.mk (same.word _ _ place (Nat.mod_lt _ (by decide)) shut)

lemma reassigned_withRam : Reassigned c (c.withRam r) fun _ => False := by
  refine ⟨rfl, rfl, rfl, nofun, fun p hp _ => record_withRam h same hp,
    fun i t _ => ⟨fun table => ?_, fun table => ?_⟩,
    fun i t table _ j hj => pte_withRam h same table hj⟩
  · exact table.congr fun i hi => (pde_withRam h same hi).symm
  · exact table.congr fun i hi => pde_withRam h same hi

end

lemma Ordered.withRam (h : c.Ordered) (same : c.ram.SameOff c.Open r) : (c.withRam r).Ordered := by
  have mapped := h.toMapped
  refine (reassigned_withRam mapped same).ordered h ?_ ?_ nofun nofun nofun
  · exact h.toWired.congr rfl same.pages (fun i hi => pde_withRam mapped same hi)
      fun i t table j hj => pte_withRam mapped same table hj
  · refine h.counted.congr rfl rfl fun p hp => ?_
    rw [record_withRam mapped same hp]
    exact ⟨rfl, rfl⟩

lemma idlePages_withRam (h : c.Mapped) (same : c.ram.SameOff c.Open r) :
    (c.withRam r).idlePages = c.idlePages :=
  idlePages_congr rfl fun p hp => by rw [record_withRam h same hp]

lemma Kept.withRam (h : c.Kept) (same : c.ram.SameOff c.Open r) : (c.withRam r).Kept := by
  refine ⟨h.toOrdered.withRam same, ?_⟩
  rw [idlePages_withRam h.toMapped same]
  exact h.free

lemma Lacks.withRam (h : c.Lacks first last) (same : c.ram.SameOff c.Open r) :
    (c.withRam r).Lacks first last := by
  have pages := idlePages_withRam h.toMapped same
  refine ⟨h.toOrdered.withRam same, h.le, fun p low high => ?_, ?_⟩
  · rw [pages]
    exact h.idle p low high
  · rw [pages]
    exact h.free

lemma Targeted.withRam (targeted : c.Targeted) (h : c.Mapped) (same : c.ram.SameOff c.Open r) :
    (c.withRam r).Targeted :=
  (reassigned_withRam h same).targeted targeted nofun fun _ _ _ _ _ _ _ _ => id

lemma Mapped.walk_withRam (h : c.Mapped) (same : c.ram.SameOff c.Open r) :
    r.walk = c.ram.walk := by
  refine h.walk_blind (fun p wires opened => ?_) same
  rcases wires with rfl | ⟨i, table⟩
  · exact opened.directory rfl
  · exact opened.table i table

end Machine

namespace Manager

open Machine

variable {c : Machine} {va : VirtualAddress} {length : Nat} {bytes : List UInt8}

lemma load_of_reads {bytes : List UInt8} {fault : Option PageFault}
    (reads : ∀ t : Tlb, t.Within c.ram.walk → ∃ t',
      GuestMemory.readPieces length ⟨c.ram, t⟩ va length = .ok ⟨bytes, fault, ⟨c.ram, t'⟩⟩ ∧
      t'.Within c.ram.walk) : Yields c (load va length) (bytes, fault) c := by
  intro t trail within
  obtain ⟨t', read, within'⟩ := reads t within
  refine ⟨t', trail, ?_, within'⟩
  have ran : (c.manager t).memory.read va length = .ok ⟨bytes, fault, ⟨c.ram, t'⟩⟩ := read
  rw [load, current_run, ran]
  rfl

lemma store_of_writes (h : c.Mapped) {fault : Option PageFault} {r : Ram}
    (same : c.ram.SameOff c.Open r)
    (writes : ∀ t : Tlb, t.Within c.ram.walk → ∃ t',
      GuestMemory.writePieces bytes.length ⟨c.ram, t⟩ va bytes = .ok ⟨fault, ⟨r, t'⟩⟩ ∧
      t'.Within c.ram.walk) : Yields c (store va bytes) fault (c.withRam r) := by
  intro t trail within
  obtain ⟨t', written, within'⟩ := writes t within
  have walk : (c.withRam r).ram.walk = c.ram.walk := h.walk_withRam same
  refine ⟨t', trail, ?_, walk ▸ within'⟩
  have ran : (c.manager t).memory.write va bytes = .ok ⟨fault, ⟨r, t'⟩⟩ := written
  rw [store, current_run, ran]
  rfl

theorem load_yields (h : c.Mapped) (va : VirtualAddress) (length : Nat) :
    ∃ answer, Yields c (load va length) answer c := by
  obtain ⟨bytes, fault, reads⟩ := GuestMemory.readPieces_eq h.large length va length
  exact ⟨(bytes, fault), load_of_reads reads⟩

theorem store_yields (h : c.Mapped)
    (lands : GuestMemory.Lands c.ram.walk va bytes.length c.Open) :
    ∃ answer r, Yields c (store va bytes) answer (c.withRam r) ∧ c.ram.SameOff c.Open r := by
  obtain ⟨fault, r, same, writes⟩ := GuestMemory.writePieces_eq h.large
    (fun r' same => h.walk_withRam same) bytes.length va bytes lands (.refl _ _)
  exact ⟨fault, r, store_of_writes h same writes, same⟩

end Manager

end ConsoleMemory
