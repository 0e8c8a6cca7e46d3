import ConsoleMemory.Guest.PageWalk
import ConsoleMemory.Proofs.Guest.Words

/-!
# The page walk, page by page

A walk never leaves installed memory by accident and treats all addresses of a
page alike: it is a function from virtual to installed page numbers. It reads at
most two words, so a change elsewhere does not show.
-/

lemma ConsoleMemory.Address.offset_lt (va : VirtualAddress) : va.offset .small < 4096 :=
  Nat.mod_lt _ (by decide)

namespace ConsoleMemory.Ram

variable {r r' : Ram} {n p t frame : Nat} {va : VirtualAddress}

/-- Entry `i` of the table in page `p`. -/
def entry (r : Ram) (p i : Nat) : Entry := ⟨r.word p i⟩

/-- Page number of the window that a frame is seen through. -/
def windowPage (frame : Nat) : Nat :=
  if 0xF8000 ≤ frame then 0xF8000
  else if 0xF0000 ≤ frame then 0xF0000
  else if 0x80000 ≤ frame then 0x80000
  else 0

/-- The installed page behind a frame. -/
def page? (r : Ram) (frame : Nat) : Option Nat :=
  if frame - windowPage frame < r.pages then some (frame - windowPage frame) else none

/-- The installed page that virtual page `n` is mapped to. -/
def walk (r : Ram) (n : Nat) : Option Nat :=
  let directoryEntry := r.entry 0xF (n / 1024)
  if n < 0x100000 ∧ directoryEntry.valid then
    if directoryEntry.isLarge then r.page? (directoryEntry.frame / 1024 * 1024 + n % 1024)
    else (r.page? directoryEntry.frame).bind fun table =>
      if (r.entry table (n % 1024)).valid then r.page? (r.entry table (n % 1024)).frame else none
  else none

/-- What the tables say of a virtual page. -/
inductive Mapping where
  /-- No valid entry maps the page. -/
  | absent
  /-- The page table that would map it lies in a frame outside of memory. -/
  | tableless (frame : Nat)
  | mapped (frame : Nat)

/-- What the tables say of virtual page `n`. -/
def mapping (r : Ram) (n : Nat) : Mapping :=
  let directoryEntry := r.entry 0xF (n / 1024)
  if directoryEntry.valid then
    if directoryEntry.isLarge then .mapped (directoryEntry.frame / 1024 * 1024 + n % 1024)
    else match r.page? directoryEntry.frame with
      | none => .tableless directoryEntry.frame
      | some table =>
        if (r.entry table (n % 1024)).valid then .mapped (r.entry table (n % 1024)).frame
        else .absent
  else .absent

/-- The place of an address, or its fault, by what the tables say of its page. -/
def Mapping.outcome (r : Ram) (va : VirtualAddress) : Mapping → Except PageFault PhysicalAddress
  | absent => .error (.notPresent va)
  | tableless frame => .error (.outsideRam va (Pfn.base frame))
  | mapped frame => match r.page? frame with
    | some p => .ok (.ofNat (p * 4096 + va.offset .small))
    | none => .error (.outsideRam va (Pfn.base frame + va.offset .small))

lemma page?_lt (h : r.page? frame = some p) : p < r.pages := by
  unfold page? at h
  split at h
  · next inside =>
    cases h
    exact inside
  · cases h

lemma page?_of_lt (h : frame < r.pages) (low : frame < 0x80000) : r.page? frame = some frame := by
  have window : windowPage frame = 0 := by
    unfold windowPage
    rw [if_neg (by omega), if_neg (by omega), if_neg (by omega)]
  rw [page?, window, Nat.sub_zero, if_pos h]

lemma walk_lt (h : r.walk n = some p) : p < r.pages := by
  unfold walk at h
  dsimp only at h
  split at h
  · split at h
    · exact page?_lt h
    · obtain ⟨table, _, h⟩ := Option.bind_eq_some_iff.mp h
      split at h
      · exact page?_lt h
      · cases h
  · cases h

/-- Installed memory is resolved page by page. -/
lemma resolve_eq (r : Ram) (a : PhysicalAddress) :
    r.resolve a =
      (r.page? (a.toNat / 4096)).map fun p => .ofNat (p * 4096 + a.toNat % 4096) := by
  have size := r.size_eq
  have lt := a.toNat_lt
  have window : (if MemoryMap.uncachedBase ≤ a.toNat then MemoryMap.uncachedBase
      else if MemoryMap.writeCombinedBase ≤ a.toNat then MemoryMap.writeCombinedBase
      else if MemoryMap.contiguousBase ≤ a.toNat then MemoryMap.contiguousBase
      else 0) = windowPage (a.toNat / 4096) * 4096 ∧
      windowPage (a.toNat / 4096) * 4096 ≤ a.toNat := by
    have edge (c : Nat) : c ≤ a.toNat / 4096 ↔ c * 4096 ≤ a.toNat :=
      Nat.le_div_iff_mul_le (by decide)
    simp only [MemoryMap.uncachedBase, MemoryMap.writeCombinedBase, MemoryMap.contiguousBase,
      windowPage, edge]
    by_cases uncached : 0xF8000000 ≤ a.toNat
    · simp [uncached]
    by_cases combined : 0xF0000000 ≤ a.toNat
    · simp [uncached, combined]
    by_cases contiguous : 0x80000000 ≤ a.toNat
    · simp [uncached, combined, contiguous]
    · simp [uncached, combined, contiguous]
  obtain ⟨window, below⟩ := window
  unfold resolve page?
  simp only [window]
  by_cases inside : a.toNat / 4096 - windowPage (a.toNat / 4096) < r.pages
  · rw [if_pos inside, if_pos (by omega), Option.map_some]
    congr 2
    omega
  · rw [if_neg inside, if_neg (by omega)]
    rfl

lemma entryAt_eq {table : PhysicalAddress} {i : Nat} (place : table.toNat = p * 4096)
    (hp : p < r.pages) (hi : i < 1024) : r.entryAt table i = .ok (r.entry p i) := by
  have := r.pages_le
  have word : r.readWord (table + i * MemoryMap.entryBytes) = .ok (r.word p i) := by
    refine readWord_eq ?_ hp hi
    rw [Address.toNat_add, place, MemoryMap.entryBytes]
    omega
  rw [entryAt, word]
  rfl

lemma liftM_ok_bind {α β : Type} (a : α) (f : α → Walk β) :
    (liftM (.ok a : Except Abort α) >>= f) = f a := rfl

lemma physical_eq (va : VirtualAddress) {d : Entry}
    (directory : r.entryAt Ram.directory va.directoryIndex = .ok d) :
    (r.physical va).run = if d.valid then
        if d.isLarge then .ok (.ok ((Pfn.base d.frame).withOffset .large (va.offset .large)))
        else match r.resolve (Pfn.base d.frame) with
          | none => .ok (.error (.outsideRam va (Pfn.base d.frame)))
          | some table => (r.entryAt table va.entryIndex).map fun e =>
            if e.valid then .ok (Pfn.base e.frame + va.offset .small) else .error (.notPresent va)
      else .ok (.error (.notPresent va)) := by
  unfold physical
  rw [directory, liftM_ok_bind]
  cases d.valid
  · rfl
  cases d.isLarge
  · simp only [if_true, Bool.false_eq_true, if_false]
    cases r.resolve (Pfn.base d.frame) with
    | none => rfl
    | some table =>
      cases read : r.entryAt table va.entryIndex with
      | error e =>
        simp only [read]
        rfl
      | ok e =>
        simp only [read, liftM_ok_bind]
        cases valid : e.valid
        · simp only [Except.map, valid, Bool.false_eq_true, if_false]
          rfl
        · simp only [Except.map, valid, if_true]
          rfl
  · rfl

lemma translate_of_physical {a : PhysicalAddress} (ok : (r.physical va).run = .ok (.ok a)) :
    (r.translate va).run = .ok (match r.resolve a with
      | some place => .ok place
      | none => .error (.outsideRam va a)) := by
  have ok' : r.physical va = .ok (.ok a) := ok
  unfold translate
  rw [ok']
  change ExceptT.run (match r.resolve a with | some place => _ | none => _) = _
  cases r.resolve a <;> rfl

lemma translate_of_fault {fault : PageFault} (ok : (r.physical va).run = .ok (.error fault)) :
    (r.translate va).run = .ok (.error fault) := by
  have ok' : r.physical va = .ok (.error fault) := ok
  unfold translate
  rw [ok']
  rfl

/-- What a walk that names an address comes to. -/
lemma translate_resolved {a : PhysicalAddress} (ok : (r.physical va).run = .ok (.ok a))
    (place : a.toNat = frame * 4096 + va.offset .small) :
    (r.translate va).run = .ok ((Mapping.mapped frame).outcome r va) := by
  have offset := va.offset_lt
  have lt := a.toNat_lt
  have named : a = Pfn.base frame + va.offset .small := by
    apply Address.ext
    rw [Address.toNat_add, Pfn.toNat_base]
    omega
  have page : a.toNat / 4096 = frame := by omega
  have rest : a.toNat % 4096 = va.offset .small := by omega
  rw [translate_of_physical ok, resolve_eq, page, rest, named]
  simp only [Mapping.outcome]
  cases r.page? frame <;> rfl

lemma frame_lt (e : Entry) : e.frame < 0x100000 := BitField.read_lt Entry.frameField e.bits

lemma toNat_base_frame (e : Entry) : (Pfn.base e.frame).toNat = e.frame * 4096 := by
  have := frame_lt e
  rw [Pfn.toNat_base]
  omega

lemma resolve_base (e : Entry) :
    r.resolve (Pfn.base e.frame) = (r.page? e.frame).map fun p => .ofNat (p * 4096) := by
  have page := Nat.mul_div_cancel e.frame (show 0 < 4096 by decide)
  simp only [resolve_eq, toNat_base_frame, page, Nat.mul_mod_left, Nat.add_zero]

lemma directoryIndex_eq (va : VirtualAddress) :
    va.directoryIndex = va.pageNumber .small / 1024 := by
  simp only [VirtualAddress.directoryIndex, Address.pageNumber, PageSize.bytes]
  omega

/-- Inside a large page the walk goes on by small pages. -/
lemma toNat_large (e : Entry) (va : VirtualAddress) :
    ((Pfn.base e.frame).withOffset .large (va.offset .large)).toNat =
      (e.frame / 1024 * 1024 + va.pageNumber .small % 1024) * 4096 + va.offset .small := by
  have lt := va.toNat_lt
  have frame := toNat_base_frame e
  have := frame_lt e
  simp only [Address.withOffset, Address.toNat_ofNat, Address.pageNumber, Address.offset,
    PageSize.bytes, frame]
  omega

lemma toNat_small (e : Entry) (va : VirtualAddress) :
    (Pfn.base e.frame + va.offset .small).toNat = e.frame * 4096 + va.offset .small := by
  have offset := va.offset_lt
  have := frame_lt e
  rw [Address.toNat_add, toNat_base_frame]
  omega

/-- The entry of the directory that a walk reads. -/
lemma directoryEntry_eq (large : 0xF < r.pages) (va : VirtualAddress) :
    r.entryAt Ram.directory va.directoryIndex =
      .ok (r.entry 0xF (va.pageNumber .small / 1024)) := by
  have lt := va.toNat_lt
  rw [directoryIndex_eq]
  refine entryAt_eq rfl large ?_
  simp only [Address.pageNumber, PageSize.bytes]
  omega

/-- Nothing is mapped through an entry of the directory that is not valid. -/
lemma physical_vacant (large : 0xF < r.pages)
    (vacant : (r.entry 0xF (va.pageNumber .small / 1024)).valid = false) :
    (r.physical va).run = .ok (.error (.notPresent va)) := by
  rw [physical_eq va (directoryEntry_eq large va), vacant]
  rfl

/-- What an entry of a page table maps. -/
lemma physical_table (large : 0xF < r.pages)
    (names : (r.entry 0xF (va.pageNumber .small / 1024)).namesTable = true)
    (resolved : r.page? (r.entry 0xF (va.pageNumber .small / 1024)).frame = some t) :
    (r.physical va).run = .ok (if (r.entry t (va.pageNumber .small % 1024)).valid then
        .ok (Pfn.base (r.entry t (va.pageNumber .small % 1024)).frame + va.offset .small)
      else .error (.notPresent va)) := by
  have inside := page?_lt resolved
  have few := r.pages_le
  have read : r.entryAt (.ofNat (t * 4096)) va.entryIndex =
      .ok (r.entry t (va.pageNumber .small % 1024)) := by
    refine entryAt_eq ?_ inside (Nat.mod_lt _ (by decide))
    rw [Address.toNat_ofNat]
    omega
  have physical := physical_eq va (directoryEntry_eq large va)
  simp only [Entry.namesTable, Bool.and_eq_true, Bool.not_eq_true'] at names
  rw [names.1, names.2, resolve_base, resolved] at physical
  simp only [if_true, Bool.false_eq_true, if_false, Option.map_some, read, Except.map] at physical
  exact physical

/-- Two tables with the same entry map the same. -/
lemma physical_table_congr {t' : Nat} (large : 0xF < r.pages) (large' : 0xF < r'.pages)
    (names : (r.entry 0xF (va.pageNumber .small / 1024)).namesTable = true)
    (names' : (r'.entry 0xF (va.pageNumber .small / 1024)).namesTable = true)
    (resolved : r.page? (r.entry 0xF (va.pageNumber .small / 1024)).frame = some t)
    (resolved' : r'.page? (r'.entry 0xF (va.pageNumber .small / 1024)).frame = some t')
    (same : r'.entry t' (va.pageNumber .small % 1024) = r.entry t (va.pageNumber .small % 1024)) :
    (r'.physical va).run = (r.physical va).run := by
  rw [physical_table large names resolved, physical_table large' names' resolved', same]

/-- A translation is what the tables say of the page of its address. -/
theorem translate_run (large : 0xF < r.pages) (va : VirtualAddress) :
    (r.translate va).run = .ok ((r.mapping (va.pageNumber .small)).outcome r va) := by
  have physical := physical_eq va (directoryEntry_eq large va)
  unfold mapping
  dsimp only
  cases valid : (r.entry 0xF (va.pageNumber .small / 1024)).valid with
  | false => exact translate_of_fault (physical_vacant large valid)
  | true =>
  cases isLarge : (r.entry 0xF (va.pageNumber .small / 1024)).isLarge with
  | true =>
    rw [valid, isLarge] at physical
    exact translate_resolved physical (toNat_large _ va)
  | false =>
  cases resolved : r.page? (r.entry 0xF (va.pageNumber .small / 1024)).frame with
  | none =>
    rw [valid, isLarge, resolve_base, resolved] at physical
    exact translate_of_fault physical
  | some t =>
  have mapped := physical_table large (by rw [Entry.namesTable, valid, isLarge]; rfl) resolved
  simp only [if_true, Bool.false_eq_true, if_false]
  cases present : (r.entry t (va.pageNumber .small % 1024)).valid with
  | false =>
    rw [present] at mapped
    exact translate_of_fault mapped
  | true =>
    rw [present] at mapped
    exact translate_resolved mapped (toNat_small _ va)

/-- The walk of a page forgets why it fails. -/
lemma walk_eq_mapping {n : Nat} (hn : n < 0x100000) : r.walk n = match r.mapping n with
    | .mapped frame => r.page? frame
    | _ => none := by
  unfold walk mapping
  dsimp only
  cases valid : (r.entry 0xF (n / 1024)).valid with
  | false => simp
  | true =>
  cases isLarge : (r.entry 0xF (n / 1024)).isLarge with
  | true => simp [hn]
  | false =>
  cases resolved : r.page? (r.entry 0xF (n / 1024)).frame with
  | none => simp [hn]
  | some t =>
    cases present : (r.entry t (n % 1024)).valid with
    | false => simp [hn, present]
    | true => simp [hn, present]

lemma pageNumber_lt (va : VirtualAddress) : va.pageNumber .small < 0x100000 := by
  have lt := va.toNat_lt
  simp only [Address.pageNumber, PageSize.bytes]
  omega

/-- A translation at an address is the walk of its page, at the offset of the address. -/
theorem translate_eq (large : 0xF < r.pages) (va : VirtualAddress) :
    (∃ p, r.walk (va.pageNumber .small) = some p ∧
        (r.translate va).run = .ok (.ok (.ofNat (p * 4096 + va.offset .small)))) ∨
      r.walk (va.pageNumber .small) = none ∧
        ∃ fault, (r.translate va).run = .ok (.error fault) := by
  rw [translate_run large, walk_eq_mapping (pageNumber_lt va)]
  cases r.mapping (va.pageNumber .small) with
  | absent => exact Or.inr ⟨rfl, _, rfl⟩
  | tableless frame => exact Or.inr ⟨rfl, _, rfl⟩
  | mapped frame =>
    simp only [Mapping.outcome]
    cases r.page? frame with
    | none => exact Or.inr ⟨rfl, _, rfl⟩
    | some p => exact Or.inl ⟨p, rfl, rfl⟩

/-- An address on a mapped page is translated to its place in that page. -/
lemma translate_of_walk (large : 0xF < r.pages) (mapped : r.walk (va.pageNumber .small) = some p) :
    r.translate va = .ok (.ok (.ofNat (p * 4096 + va.offset .small))) := by
  rcases translate_eq large va with ⟨q, walked, translated⟩ | ⟨unmapped, _⟩
  · cases walked.symm.trans mapped
    exact translated
  · cases mapped.symm.trans unmapped

/-- An address is translated just where its page is mapped. -/
lemma translate_ok_iff {place : PhysicalAddress} (large : 0xF < r.pages) :
    r.translate va = .ok (.ok place) ↔
      ∃ p, r.walk (va.pageNumber .small) = some p ∧
        place = .ofNat (p * 4096 + va.offset .small) := by
  constructor
  · intro ok
    have run : (r.translate va).run = .ok (.ok place) := ok
    rcases translate_eq large va with ⟨p, mapped, found⟩ | ⟨_, f, failed⟩
    · cases run.symm.trans found
      exact ⟨p, mapped, rfl⟩
    · cases run.symm.trans failed
  · rintro ⟨p, mapped, rfl⟩
    exact translate_of_walk large mapped

/-- An address is translated as before only if its page is where it was. -/
lemma walk_of_translate (large : 0xF < r.pages) (large' : 0xF < r'.pages)
    (same : r'.translate va = r.translate va) :
    r'.walk (va.pageNumber .small) = r.walk (va.pageNumber .small) := by
  have run : (r'.translate va).run = (r.translate va).run := congrArg ExceptT.run same
  rcases translate_eq large va with ⟨p, walked, place⟩ | ⟨unmapped, fault, failed⟩
  · rcases translate_eq large' va with ⟨q, walked', place'⟩ | ⟨_, fault', failed'⟩
    · rw [place, place'] at run
      have places := congrArg Address.toNat (Except.ok.inj (Except.ok.inj run))
      have inside := walk_lt walked
      have inside' := walk_lt walked'
      have few := r.pages_le
      have few' := r'.pages_le
      have offset := va.offset_lt
      rw [Address.toNat_ofNat, Address.toNat_ofNat] at places
      have pages : q = p := by omega
      rw [walked, walked', pages]
    · rw [place, failed'] at run
      cases run
  · rcases translate_eq large' va with ⟨q, walked', place'⟩ | ⟨unmapped', _⟩
    · rw [failed, place'] at run
      cases run
    · rw [unmapped, unmapped']

/-- Beyond the last page nothing is mapped. -/
lemma walk_beyond (r : Ram) (beyond : ¬ n < 0x100000) : r.walk n = none :=
  if_neg fun valid => beyond valid.1

/-- A translation depends on the address that the walk comes to. -/
lemma translate_congr (size : r'.size = r.size) (same : r'.physical va = r.physical va) :
    r'.translate va = r.translate va := by
  have resolves : r'.resolve = r.resolve := by
    funext a
    rw [resolve, resolve, size]
  rw [translate, translate, same, resolves]

/-- A walk through a page table. -/
lemma walk_table_eq (hn : n < 0x100000) (names : (r.entry 0xF (n / 1024)).namesTable = true)
    (resolved : r.page? (r.entry 0xF (n / 1024)).frame = some t) : r.walk n =
      if (r.entry t (n % 1024)).valid then r.page? (r.entry t (n % 1024)).frame else none := by
  simp only [Entry.namesTable, Bool.and_eq_true, Bool.not_eq_true'] at names
  unfold walk
  simp only [names.1, names.2, hn, resolved, and_self, if_true, Bool.false_eq_true, if_false,
    Option.bind_some]

/-! ### Changes that a walk does not see -/

/-- A walk reads the directory's entry and, where that names a table, one entry of it. -/
lemma walk_congr (size : r'.pages = r.pages)
    (directory : n < 0x100000 → r'.entry 0xF (n / 1024) = r.entry 0xF (n / 1024))
    (table : ∀ t, n < 0x100000 → (r.entry 0xF (n / 1024)).namesTable = true →
      r.page? (r.entry 0xF (n / 1024)).frame = some t →
      r'.entry t (n % 1024) = r.entry t (n % 1024)) : r'.walk n = r.walk n := by
  have same (frame : Nat) : r'.page? frame = r.page? frame := by
    unfold page?
    rw [size]
  unfold walk
  by_cases hn : n < 0x100000
  · simp only [hn, true_and, directory hn]
    split
    · next valid =>
      split
      · rw [same]
      · next small =>
        rw [same]
        refine Option.bind_congr fun t resolved => ?_
        rw [table t hn (by simp [Entry.namesTable, valid, small]) resolved, same]
    · rfl
  · simp only [hn, false_and, if_false]

end ConsoleMemory.Ram
