import ConsoleMemory.Proofs.Guest.Pieces
import ConsoleMemory.Proofs.Manager.Committing

/-!
# Where the directory is read and written

Committing and releasing walk along the page directory, one entry for every span
of the range. Which words they take for directory entries is seen by giving them
another access to such words: for a range inside the address space nothing changes
as long as the two accesses agree on the 1024 words of the directory. For a longer
range the walk goes on behind the last of them, where nothing is mapped as long as
directory entry 0x301 is empty.
-/

namespace ConsoleMemory

open VirtualAddress

namespace DirectoryAccess

open Manager

/-- At this address the access is the manager's. -/
structure OwnAt (d : DirectoryAccess) (address : VirtualAddress) : Prop where
  read : d.read address = readEntry address
  write : d.write address = writeEntry address

/-- The access is the manager's at the 1024 words of the page directory. -/
def OwnInside (d : DirectoryAccess) : Prop :=
  ∀ i < 1024, d.OwnAt (.ofNat (MemoryMap.pageDirectoryBase + 4 * i))

/-- The access is the manager's at `count` words from `entry` on. -/
def OwnAlong (d : DirectoryAccess) (count : Nat) (entry : VirtualAddress) : Prop :=
  ∀ k < count, d.OwnAt (nextEntry^[k] entry)

variable {d : DirectoryAccess} {entry va : VirtualAddress} {count table size : Nat} {t : PageType}
  {committed : List (VirtualAddress × Nat)}

lemma OwnAlong.first (h : d.OwnAlong (count + 1) entry) : d.OwnAt entry := h 0 (Nat.succ_pos count)

lemma OwnAlong.rest (h : d.OwnAlong (count + 1) entry) : d.OwnAlong count entry.nextEntry :=
  fun k hk => h (k + 1) (Nat.succ_lt_succ hk)

lemma countMissing_eq (h : d.OwnAlong count entry) :
    d.countMissing count entry = directory.countMissing count entry := by
  induction count generalizing entry with
  | zero => rfl
  | succ count ih =>
    rw [countMissing, countMissing, h.first.read, ih h.rest]

lemma releaseTable_eq (h : d.OwnAt entry) :
    d.releaseTable entry table = directory.releaseTable entry table := by
  rw [releaseTable, releaseTable, h.write]

lemma releaseAll_eq (h : ∀ e ∈ committed, d.OwnAt e.1) :
    d.releaseAll committed = directory.releaseAll committed := by
  induction committed with
  | nil => rfl
  | cons e rest ih =>
    obtain ⟨here, later⟩ := List.forall_mem_cons.mp h
    rw [releaseAll, releaseAll, releaseTable_eq here, ih later]

lemma commitTable_eq (h : d.OwnAt entry) :
    d.commitTable t entry table = directory.commitTable t entry table := by
  rw [commitTable, commitTable, h.write]

lemma commitFrom_eq (h : d.OwnAlong count entry) (h' : ∀ e ∈ committed, d.OwnAt e.1) :
    d.commitFrom t count entry committed = directory.commitFrom t count entry committed := by
  induction count generalizing entry committed with
  | zero => rfl
  | succ count ih =>
    rw [commitFrom, commitFrom, h.first.read, releaseAll_eq h', ih h.rest h']
    refine bind_congr fun e => ?_
    split
    · rfl
    · refine bind_congr fun page => ?_
      cases page with
      | none => rfl
      | some table =>
        have grown : ∀ e ∈ (entry, table) :: committed, d.OwnAt e.1 :=
          List.forall_mem_cons.mpr ⟨h.first, h'⟩
        change (do
          d.commitTable t entry table
          d.commitFrom t count entry.nextEntry ((entry, table) :: committed)) = _
        rw [commitTable_eq h.first, ih h.rest grown]

lemma releaseIfEmpty_eq (h : d.OwnAt entry) :
    d.releaseIfEmpty entry = directory.releaseIfEmpty entry := by
  rw [releaseIfEmpty, releaseIfEmpty, h.read]
  simp only [releaseTable_eq h]

lemma releaseFrom_eq (h : d.OwnAlong count entry) :
    d.releaseFrom count entry = directory.releaseFrom count entry := by
  induction count generalizing entry with
  | zero => rfl
  | succ count ih => rw [releaseFrom, releaseFrom, releaseIfEmpty_eq h.first, ih h.rest]

lemma commitTables_eq
    (h : d.OwnAlong (va.pagesSpanned .large size) va.directoryEntryAddress) :
    d.commitTables va size = Manager.commitTables va size := by
  have none : ∀ e ∈ ([] : List (VirtualAddress × Nat)), d.OwnAt e.1 := nofun
  simp only [Manager.commitTables, commitTables, countMissing_eq h, commitFrom_eq h none]

lemma releaseTables_eq
    (h : d.OwnAlong (va.pagesSpanned .large size) va.directoryEntryAddress) :
    d.releaseTables va size = Manager.releaseTables va size := by
  rw [Manager.releaseTables, releaseTables, releaseTables, releaseFrom_eq h]

lemma iterate_nextEntry (i k : Nat) :
    nextEntry^[k] (directoryEntryOf i) = directoryEntryOf (i + k) := by
  induction k generalizing i with
  | zero => rfl
  | succ k ih =>
    rw [Function.iterate_succ_apply, nextEntry_directoryEntryOf, ih, Nat.add_right_comm,
      Nat.add_assoc]

lemma directoryEntryOf_eq (i : Nat) :
    directoryEntryOf i = .ofNat (MemoryMap.pageDirectoryBase + 4 * i) := by
  rw [directoryEntryOf, entryOf, MemoryMap.pageDirectoryBase]
  exact congrArg Address.ofNat (by omega)

/-- For a range inside the address space, what the access does outside the directory is never
seen. -/
theorem OwnInside.along (h : d.OwnInside) (fits : va.toNat + size ≤ 0x100000000) :
    d.OwnAlong (va.pagesSpanned .large size) va.directoryEntryAddress := by
  intro k hk
  have inside := pagesSpanned_le fits
  rw [directoryEntryAddress_eq, iterate_nextEntry, directoryEntryOf_eq]
  exact h _ (by omega)

end DirectoryAccess

namespace VirtualAddress

variable {va : VirtualAddress} {size : Nat}

/-- The directory entries of a range that passes the end of the address space. -/
lemma lt_pagesSpanned (beyond : 0x100000000 < va.toNat + size) :
    va.pageNumber .large ≤ 1024 ∧
      1024 < va.pageNumber .large + va.pagesSpanned .large size := by
  have lt := va.toNat_lt
  rw [pagesSpanned, Address.offset, Address.pageNumber, PageSize.offsetMask, PageSize.bytes]
  omega

end VirtualAddress

namespace Manager

open Machine

variable {c : Machine} {va : VirtualAddress} {fault : PageFault} {i count size : Nat}

lemma readWord_fails (unmapped : c.ram.walk (va.pageNumber .small) = none)
    (failed : (c.ram.translate va).run = .ok (.error fault)) :
    Fails c c.ram.walk (readWord va) (.fatal (.faultReading va fault)) := by
  intro t trail within
  have located := GuestMemory.locate_fault within unmapped failed
  have ran : (c.manager t).memory.readWord va = .ok (.error fault, ⟨c.ram, t⟩) := by
    change (do
      let loaded ← GuestMemory.readPieces 4 ⟨c.ram, t⟩ va 4
      _ : Except Abort _) = _
    rw [GuestMemory.readPieces_faulted located]
    rfl
  refine ⟨⟨c.manager t, trail⟩, ?_⟩
  rw [readWord, current_run, ran]
  rfl

/-- How an operation ends that takes the word behind the page directory for an entry of it. -/
def pastDirectory : Abort :=
  .fatal (.faultReading (.ofNat 0xC0301000) (.notPresent (.ofNat 0xC0301000)))

/-- The word behind the directory is the first of the page that shows the table of directory entry
0x301. -/
lemma readPastDirectory (h : c.Mapped) (invalid : (c.pde 0x301).valid = false) :
    Fails c c.ram.walk (readEntry (directoryEntryOf 1024)) pastDirectory := by
  have place : directoryEntryOf 1024 = .ofNat 0xC0301000 := by decide +kernel
  have page : (directoryEntryOf 1024).pageNumber .small = 0xC0301 := by decide +kernel
  have self : c.ram.entry 0xF ((directoryEntryOf 1024).pageNumber .small / 1024) = .selfMap := by
    rw [page]
    exact h.selfMap
  have unmapped : c.ram.walk ((directoryEntryOf 1024).pageNumber .small) = none := by
    rw [page]
    exact h.walk_window_eq_none (by decide) invalid
  have names : (c.ram.entry 0xF ((directoryEntryOf 1024).pageNumber .small / 1024)).namesTable =
      true := self ▸ Entry.namesTable_selfMap
  have physical := Ram.physical_table h.large names (self ▸ h.page?_selfMap)
  have vacant : (c.ram.entry 0xF ((directoryEntryOf 1024).pageNumber .small % 1024)).valid =
      false := by
    rw [page]
    exact invalid
  rw [vacant, if_neg Bool.false_ne_true] at physical
  have failed := readWord_fails unmapped (Ram.translate_of_fault physical)
  rw [place] at failed ⊢
  exact failed.bind

lemma countMissing_fails (h : c.Mapped) (invalid : (c.pde 0x301).valid = false) (start : i ≤ 1024)
    (beyond : 1024 < i + count) :
    Fails c c.ram.walk (directory.countMissing count (directoryEntryOf i)) pastDirectory := by
  induction count generalizing i with
  | zero => omega
  | succ count ih =>
    rw [DirectoryAccess.countMissing, nextEntry_directoryEntryOf]
    rcases Nat.eq_or_lt_of_le start with rfl | hi
    · exact (readPastDirectory h invalid).bind
    · exact .after (readDirectoryEntry h hi) (ih (i := i + 1) hi (by omega)).bind

lemma releaseFrom_fails (h : c.Kept) (invalid : (c.pde 0x301).valid = false) (start : i ≤ 1024)
    (beyond : 1024 < i + count) :
    Fails c c.ram.walk (directory.releaseFrom count (directoryEntryOf i)) pastDirectory := by
  induction count generalizing c i with
  | zero => omega
  | succ count ih =>
    rw [DirectoryAccess.releaseFrom, nextEntry_directoryEntryOf]
    rcases Nat.eq_or_lt_of_le start with rfl | hi
    · rw [DirectoryAccess.releaseIfEmpty]
      exact (readPastDirectory h.toMapped invalid).bind.bind
    · obtain ⟨d, released, kept, _, w⟩ := releaseIfEmpty_yields h hi
      -- Releasing tables makes no entry of the directory valid.
      have invalid' : (d.pde 0x301).valid = false := by
        rw [w.pde 0x301 (by decide)]
        split
        · exact Entry.valid_zero
        · exact invalid
      exact .after released (ih kept invalid' (i := i + 1) hi (by omega))

/-- A range that passes the end of the address space ends committing before anything is
committed. -/
theorem commitTables_fails (h : c.Mapped) (invalid : (c.pde 0x301).valid = false)
    (beyond : 0x100000000 < va.toNat + size) :
    Fails c c.ram.walk (commitTables va size) pastDirectory := by
  have lt := va.toNat_lt
  obtain ⟨start, stop⟩ := lt_pagesSpanned beyond
  rw [commitTables, DirectoryAccess.commitTables, if_neg (by omega), directoryEntryAddress_eq]
  exact (countMissing_fails h invalid start stop).bind

/-- The tables of such a range are released up to the end of the address space. -/
theorem releaseTables_fails (h : c.Kept) (invalid : (c.pde 0x301).valid = false)
    (beyond : 0x100000000 < va.toNat + size) :
    Fails c c.ram.walk (releaseTables va size) pastDirectory := by
  have lt := va.toNat_lt
  obtain ⟨start, stop⟩ := lt_pagesSpanned beyond
  rw [releaseTables, DirectoryAccess.releaseTables, if_neg (by omega), directoryEntryAddress_eq]
  exact releaseFrom_fails h invalid start stop

end Manager

end ConsoleMemory
