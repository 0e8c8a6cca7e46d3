import ConsoleMemory.Proofs.Guest.Coherence

/-!
# Accesses, piece by piece

An access is cut at page boundaries, and each piece goes to the page that the walk
finds. So what is read or written does not depend on what is remembered, as long
as no piece changes a walk; and where consecutive pages show consecutive memory, an
access comes to one access of that memory.
-/

namespace ConsoleMemory

namespace Ram

variable {r : Ram} {a m n : Nat} {xs ys bytes : List UInt8}

/-- Memory with a list of bytes from place `a` on. -/
def put (r : Ram) (a : Nat) (bytes : List UInt8) : Ram := { r with image := store r.image a bytes }

@[simp] lemma size_put : (r.put a bytes).size = r.size := rfl

@[simp] lemma pages_put : (r.put a bytes).pages = r.pages := rfl

lemma read_eq {place : PhysicalAddress} (inside : place.toNat + n ≤ r.size) :
    r.read place n = .ok (r.slice place.toNat n) := by
  rw [read, requireInside_eq inside]
  rfl

lemma write_eq {place : PhysicalAddress} (inside : place.toNat + bytes.length ≤ r.size) :
    r.write place bytes = .ok (r.put place.toNat bytes) := by
  rw [write, requireInside_eq inside]
  rfl

lemma slice_append (r : Ram) (a m n : Nat) :
    r.slice a m ++ r.slice (a + m) n = r.slice a (m + n) := by
  simp only [slice, ← List.map_append, ← List.range'_append, Nat.one_mul]

lemma store_append (t : Image) (a : Nat) (xs ys : List UInt8) :
    store (store t a xs) (a + xs.length) ys = store t a (xs ++ ys) := by
  induction xs generalizing t a with
  | nil => rfl
  | cons x xs ih =>
    have next : a + (x :: xs).length = a + 1 + xs.length := by
      simp only [List.length_cons]
      omega
    rw [next]
    exact ih (t.set 32 a x) (a + 1)

lemma put_append (r : Ram) (a : Nat) (xs ys : List UInt8) :
    (r.put a xs).put (a + xs.length) ys = r.put a (xs ++ ys) := by
  simp only [put, store_append]

lemma byteAt_put {k : Nat} (hk : k < 0x100000000) (fits : a + bytes.length ≤ 0x100000000) :
    (r.put a bytes).byteAt k =
      if h : a ≤ k ∧ k < a + bytes.length then
        bytes.get ⟨k - a, Nat.sub_lt_left_of_lt_add h.1 h.2⟩
      else r.byteAt k :=
  get_store r.image a bytes k hk fits

/-- Bytes that are put into one page leave the words of all others. -/
lemma word_put {p q i : Nat} (inside : bytes.length ≤ 4096) (hq : q < 0x100000) (hp : p < 0x100000)
    (hi : i < 1024) (other : p ≠ q) : (r.put (q * 4096) bytes).word p i = r.word p i := by
  have fits : q * 4096 + bytes.length ≤ 0x100000000 := by omega
  apply word_congr
  intro k low high
  have small : k < 0x100000000 := by omega
  rw [byteAt_put small fits, dif_neg (by omega)]

/-- Bytes that were put somewhere are found there. -/
lemma slice_put (fits : a + bytes.length ≤ 0x100000000) :
    (r.put a bytes).slice a bytes.length = bytes := by
  apply List.ext_getElem
  · simp [slice]
  · intro k inside inside'
    simp only [slice, List.getElem_map, List.getElem_range', Nat.one_mul]
    have byte := get_store r.image a bytes (a + k) (by omega) fits
    rw [dif_pos ⟨Nat.le_add_right a k, by omega⟩] at byte
    simp only [Nat.add_sub_cancel_left, List.get_eq_getElem] at byte
    exact byte

end Ram

namespace GuestMemory

variable {r : Ram} {t t' : Tlb} {va : VirtualAddress} {W : PageMap} {p length pieces : Nat}
  {bytes : List UInt8}

/-! ### One piece -/

lemma add_zero (va : VirtualAddress) : va + 0 = va := by
  ext
  rw [Address.toNat_add, Nat.add_zero, Nat.mod_eq_of_lt va.toNat_lt]

lemma add_add (va : VirtualAddress) (m n : Nat) : va + m + n = va + (m + n) := by
  ext
  rw [Address.toNat_add, Address.toNat_add, Address.toNat_add]
  omega

lemma pieceLength_le (va : VirtualAddress) (length : Nat) :
    pieceLength va length ≤ 4096 - va.offset .small := Nat.min_le_left _ _

/-- A piece is the whole access, or it ends with its page. -/
lemma pieceLength_cut (va : VirtualAddress) (length : Nat) :
    pieceLength va length = length ∨ (va + pieceLength va length).offset .small = 0 := by
  have lt := va.toNat_lt
  simp only [pieceLength, MemoryMap.pageBytes, Address.offset, Address.toNat_add, PageSize.bytes]
  omega

/-- A piece lies in one page. -/
lemma toNat_place (va : VirtualAddress) (inside : p < r.pages) :
    (.ofNat (p * 4096 + va.offset .small) : PhysicalAddress).toNat = p * 4096 + va.offset .small ∧
      p * 4096 + 4096 ≤ r.size := by
  have few := r.pages_le
  have size := r.size_eq
  have offset := va.offset_lt
  rw [Address.toNat_ofNat]
  omega

lemma read_piece (inside : p < r.pages) (length : Nat) :
    r.read (.ofNat (p * 4096 + va.offset .small)) (pieceLength va length) =
      .ok (r.slice (p * 4096 + va.offset .small) (pieceLength va length)) := by
  obtain ⟨place, page⟩ := toNat_place va inside
  have piece := pieceLength_le va length
  have offset := va.offset_lt
  rw [Ram.read_eq (by omega), place]

lemma write_piece (inside : p < r.pages) (bytes : List UInt8) :
    r.write (.ofNat (p * 4096 + va.offset .small)) (bytes.take (pieceLength va bytes.length)) =
      .ok (r.put (p * 4096 + va.offset .small)
        (bytes.take (pieceLength va bytes.length))) := by
  obtain ⟨place, page⟩ := toNat_place va inside
  have piece := pieceLength_le va bytes.length
  have offset := va.offset_lt
  have taken := List.length_take_le (pieceLength va bytes.length) bytes
  rw [Ram.write_eq (by omega), place]

lemma readPieces_located (inside : p < r.pages)
    (located : ((⟨r, t⟩ : GuestMemory).locate va).run =
      .ok (.ok (.ofNat (p * 4096 + va.offset .small), ⟨r, t'⟩))) :
    readPieces (pieces + 1) ⟨r, t⟩ va (length + 1) = (do
      let rest ← readPieces pieces ⟨r, t'⟩ (va + pieceLength va (length + 1))
        (length + 1 - pieceLength va (length + 1))
      return { rest with
        bytes := r.slice (p * 4096 + va.offset .small) (pieceLength va (length + 1)) ++
          rest.bytes }) := by
  rw [readPieces, located]
  simp only [bind, Except.bind, read_piece inside]

lemma writePieces_located (inside : p < r.pages)
    (located : ((⟨r, t⟩ : GuestMemory).locate va).run =
      .ok (.ok (.ofNat (p * 4096 + va.offset .small), ⟨r, t'⟩))) (pos : 0 < bytes.length) :
    writePieces (pieces + 1) ⟨r, t⟩ va bytes = writePieces pieces
      ⟨r.put (p * 4096 + va.offset .small) (bytes.take (pieceLength va bytes.length)), t'⟩
      (va + pieceLength va bytes.length) (bytes.drop (pieceLength va bytes.length)) := by
  obtain ⟨b, rest, rfl⟩ := List.exists_cons_of_length_pos pos
  rw [writePieces, located]
  simp only [bind, Except.bind, write_piece inside]

lemma readPieces_faulted {fault : PageFault}
    (located : ((⟨r, t⟩ : GuestMemory).locate va).run = .ok (.error fault)) :
    readPieces (pieces + 1) ⟨r, t⟩ va (length + 1) = .ok ⟨[], some fault, ⟨r, t⟩⟩ := by
  rw [readPieces, located]
  rfl

lemma writePieces_faulted {fault : PageFault}
    (located : ((⟨r, t⟩ : GuestMemory).locate va).run = .ok (.error fault))
    (pos : 0 < bytes.length) :
    writePieces (pieces + 1) ⟨r, t⟩ va bytes = .ok ⟨some fault, ⟨r, t⟩⟩ := by
  obtain ⟨b, rest, rfl⟩ := List.exists_cons_of_length_pos pos
  rw [writePieces, located]
  rfl

/-- A piece that goes to a page of `O` changes no other page. -/
lemma sameOff_piece {O : Nat → Prop} {s : Ram} (va : VirtualAddress) (bytes : List UInt8)
    (same : r.SameOff O s) (inside : p < s.pages) (opened : O p) : r.SameOff O
      (s.put (p * 4096 + va.offset .small) (bytes.take (pieceLength va bytes.length))) := by
  have place := (toNat_place va inside).1
  have piece := pieceLength_le va bytes.length
  have offset := va.offset_lt
  have taken := List.length_take_le (pieceLength va bytes.length) bytes
  refine same.write (write_piece inside bytes) ?_ ?_ opened
  · rw [place]
    exact Nat.le_add_right _ _
  · rw [place]
    omega

/-! ### Whole accesses -/

lemma write_nil (m : GuestMemory) (va : VirtualAddress) : m.write va [] = .ok ⟨none, m⟩ := rfl

/-- Pieces to spare change nothing. -/
lemma writePieces_enough {m : GuestMemory} {more : Nat} (enough : bytes.length ≤ pieces)
    (enough' : bytes.length ≤ more) :
    writePieces pieces m va bytes = writePieces more m va bytes := by
  induction pieces generalizing more m va bytes with
  | zero =>
    cases List.eq_nil_of_length_eq_zero (Nat.le_zero.mp enough)
    cases more <;> rfl
  | succ pieces ih =>
    cases bytes with
    | nil => cases more <;> rfl
    | cons b rest =>
      cases more with
      | zero => exact absurd enough' (Nat.not_succ_le_zero _)
      | succ more =>
        have piece : 0 < pieceLength va (b :: rest).length := pieceLength_pos va (Nat.succ_pos _)
        rw [writePieces, writePieces]
        refine bind_congr fun located => ?_
        rcases located with fault | ⟨place, m'⟩
        · rfl
        · refine bind_congr fun ram => ih ?_ ?_
          · rw [List.length_drop]
            omega
          · rw [List.length_drop]
            omega

lemma write_located (inside : p < r.pages)
    (located : ((⟨r, t⟩ : GuestMemory).locate va).run =
      .ok (.ok (.ofNat (p * 4096 + va.offset .small), ⟨r, t'⟩))) (pos : 0 < bytes.length) :
    (⟨r, t⟩ : GuestMemory).write va bytes = (⟨r.put (p * 4096 + va.offset .small)
        (bytes.take (pieceLength va bytes.length)), t'⟩ : GuestMemory).write
      (va + pieceLength va bytes.length) (bytes.drop (pieceLength va bytes.length)) := by
  have piece := pieceLength_pos va pos
  obtain ⟨b, rest, rfl⟩ := List.exists_cons_of_length_pos pos
  refine (writePieces_located inside located pos).trans (writePieces_enough ?_ (Nat.le_refl _))
  rw [List.length_drop]
  exact Nat.le_of_lt_succ (Nat.sub_lt pos piece)

/-- Bytes that fill the rest of a page are written to it. -/
lemma write_append {x y : List UInt8} (inside : p < r.pages)
    (located : ((⟨r, t⟩ : GuestMemory).locate va).run =
      .ok (.ok (.ofNat (p * 4096 + va.offset .small), ⟨r, t'⟩))) (pos : 0 < x.length)
    (fills : pieceLength va (x ++ y).length = x.length) :
    (⟨r, t⟩ : GuestMemory).write va (x ++ y) =
      (⟨r.put (p * 4096 + va.offset .small) x, t'⟩ : GuestMemory).write (va + x.length) y := by
  have pos' : 0 < (x ++ y).length := by
    rw [List.length_append]
    omega
  rw [write_located inside located pos', fills, List.take_left, List.drop_left]

lemma write_faulted {fault : PageFault}
    (located : ((⟨r, t⟩ : GuestMemory).locate va).run = .ok (.error fault))
    (pos : 0 < bytes.length) :
    (⟨r, t⟩ : GuestMemory).write va bytes = .ok ⟨some fault, ⟨r, t⟩⟩ := by
  obtain ⟨b, rest, rfl⟩ := List.exists_cons_of_length_pos pos
  exact writePieces_faulted located pos

lemma read_byte (inside : p < r.pages) (located : ((⟨r, t⟩ : GuestMemory).locate va).run =
      .ok (.ok (.ofNat (p * 4096 + va.offset .small), ⟨r, t'⟩))) :
    (⟨r, t⟩ : GuestMemory).read va 1 =
      .ok ⟨[r.byteAt (p * 4096 + va.offset .small)], none, ⟨r, t'⟩⟩ := by
  have single : pieceLength va 1 = 1 := by
    have offset := va.offset_lt
    rw [pieceLength, MemoryMap.pageBytes]
    omega
  rw [read, readPieces_located inside located, single]
  rfl

/-! ### Whatever is remembered -/

/-- A read comes to the same whatever is remembered. -/
theorem readPieces_eq (large : 0xF < r.pages) (pieces : Nat) (va : VirtualAddress) (length : Nat) :
    ∃ bytes fault, ∀ t, t.Within r.walk → ∃ t',
      readPieces pieces ⟨r, t⟩ va length = .ok ⟨bytes, fault, ⟨r, t'⟩⟩ ∧ t'.Within r.walk := by
  induction pieces generalizing va length with
  | zero => exact ⟨[], none, fun t within => ⟨t, rfl, within⟩⟩
  | succ pieces ih =>
    cases length with
    | zero => exact ⟨[], none, fun t within => ⟨t, rfl, within⟩⟩
    | succ length =>
      rcases Ram.translate_eq large va with ⟨p, mapped, _⟩ | ⟨unmapped, fault, failed⟩
      · obtain ⟨bytes, fault, rest⟩ :=
          ih (va + pieceLength va (length + 1)) (length + 1 - pieceLength va (length + 1))
        refine ⟨r.slice (p * 4096 + va.offset .small) (pieceLength va (length + 1)) ++ bytes, fault,
          fun t within => ?_⟩
        obtain ⟨t', located, within'⟩ := locate_ok large within (PageMap.Le.refl _) mapped
        obtain ⟨t'', rest, within''⟩ := rest t' within'
        refine ⟨t'', ?_, within''⟩
        rw [readPieces_located (Ram.walk_lt mapped) located, rest]
        rfl
      · refine ⟨[], some fault, fun t within => ⟨t, ?_, within⟩⟩
        exact readPieces_faulted (locate_fault within unmapped failed)

/-- The bytes of a write of `length` bytes at `va`, up to the first that faults, land in pages of
`O`. -/
def Lands (W : PageMap) (va : VirtualAddress) (length : Nat) (O : Nat → Prop) : Prop :=
  ∀ i < length, (∀ j < i, W ((va + j).pageNumber .small) ≠ none) →
    ∀ p, W ((va + i).pageNumber .small) = some p → O p

lemma pageNumber_add {j : Nat} (inside : va.offset .small + j < 4096) :
    (va + j).pageNumber .small = va.pageNumber .small := by
  have lt := va.toNat_lt
  simp only [Address.pageNumber, Address.offset, Address.toNat_add, PageSize.bytes] at *
  omega

lemma Lands.rest {O : Nat → Prop} {length : Nat} (h : Lands W va length O)
    (mapped : W (va.pageNumber .small) = some p) :
    Lands W (va + pieceLength va length) (length - pieceLength va length) O := by
  intro i hi before q hq
  have piece : pieceLength va length ≤ 4096 - va.offset .small := Nat.min_le_left _ _
  rw [add_add] at hq
  refine h (pieceLength va length + i) (by omega) (fun j hj => ?_) q hq
  by_cases first : j < pieceLength va length
  · rw [pageNumber_add (by omega), mapped]
    exact nofun
  · have later := before (j - pieceLength va length) (by omega)
    rw [add_add] at later
    rwa [show pieceLength va length + (j - pieceLength va length) = j by omega] at later

/-- A write to pages that no walk reads comes to the same whatever is remembered. -/
theorem writePieces_eq {O : Nat → Prop} (large : 0xF < r.pages)
    (blind : ∀ r', r.SameOff O r' → r'.walk = r.walk) (pieces : Nat) (va : VirtualAddress)
    (bytes : List UInt8) (lands : Lands r.walk va bytes.length O) {s : Ram} (same : r.SameOff O s) :
    ∃ fault s', r.SameOff O s' ∧ ∀ t, t.Within r.walk → ∃ t',
      writePieces pieces ⟨s, t⟩ va bytes = .ok ⟨fault, ⟨s', t'⟩⟩ ∧ t'.Within r.walk := by
  induction pieces generalizing va bytes s with
  | zero => exact ⟨none, s, same, fun t within => ⟨t, rfl, within⟩⟩
  | succ pieces ih =>
    rcases Nat.eq_zero_or_pos bytes.length with none | pos
    · rw [List.eq_nil_of_length_eq_zero none]
      exact ⟨.none, s, same, fun t within => ⟨t, rfl, within⟩⟩
    have walk_eq := blind s same
    have large' : 0xF < s.pages := by rwa [same.pages]
    have sound : PageMap.Le r.walk s.walk := walk_eq ▸ PageMap.Le.refl _
    rcases Ram.translate_eq large' va with ⟨p, mapped, _⟩ | ⟨unmapped, fault, failed⟩
    · have mapped' : r.walk (va.pageNumber .small) = some p := walk_eq ▸ mapped
      have opened : O p := by
        refine lands 0 pos (fun j hj => absurd hj (Nat.not_lt_zero j)) p ?_
        rw [pageNumber_add va.offset_lt]
        exact mapped'
      have lands' := lands.rest mapped'
      rw [← List.length_drop] at lands'
      obtain ⟨fault, s', same', rest⟩ :=
        ih _ _ lands' (sameOff_piece va bytes same (Ram.walk_lt mapped) opened)
      refine ⟨fault, s', same', fun t within => ?_⟩
      obtain ⟨t', located, within'⟩ := locate_ok large' within sound mapped
      obtain ⟨t'', rest, within''⟩ := rest t' (walk_eq ▸ within')
      exact ⟨t'', (writePieces_located (Ram.walk_lt mapped) located pos).trans rest, within''⟩
    · refine ⟨some fault, s, same, fun t within => ⟨t, ?_, within⟩⟩
      exact writePieces_faulted (locate_fault within (walk_eq ▸ unmapped) failed) pos

/-! ### Mirrored memory -/

variable {a : Nat}

/-- From `va` on, `length` virtual bytes mirror memory from place `a` on. -/
def Mirrors (r : Ram) (va : VirtualAddress) (a length : Nat) : Prop :=
  ∀ k < length, r.walk ((va + k).pageNumber .small) = some ((a + k) / 4096) ∧
    (va + k).offset .small = (a + k) % 4096

namespace Mirrors

lemma zero (h : Mirrors r va a length) (pos : 0 < length) :
    r.walk (va.pageNumber .small) = some (a / 4096) ∧ va.offset .small = a % 4096 := by
  obtain ⟨walked, place⟩ := h 0 pos
  rw [add_zero] at walked place
  exact ⟨walked, place⟩

lemma rest (h : Mirrors r va a length) (n : Nat) : Mirrors r (va + n) (a + n) (length - n) := by
  intro k hk
  rw [add_add, Nat.add_assoc]
  exact h (n + k) (by omega)

/-- A byte of mirrored memory is found in it. -/
lemma translate {k : Nat} (h : Mirrors r va a length) (large : 0xF < r.pages) (hk : k < length) :
    r.translate (va + k) = .ok (.ok (.ofNat (a + k))) ∧
      (.ofNat (a + k) : PhysicalAddress).toNat = a + k ∧ a + k < r.size := by
  obtain ⟨mapped, offset⟩ := h k hk
  have found := Ram.translate_of_walk large mapped
  obtain ⟨place, page⟩ := toNat_place (va + k) (Ram.walk_lt mapped)
  rw [offset, Nat.div_add_mod'] at found place
  exact ⟨found, place, by omega⟩

end Mirrors

/-- A piece of a page mirrors its part of the page. -/
lemma mirrors_piece (mapped : r.walk (va.pageNumber .small) = some p)
    (fits : va.offset .small + length ≤ 4096) :
    Mirrors r va (p * 4096 + va.offset .small) length := by
  intro j hj
  constructor
  · rw [pageNumber_add (by omega), mapped]
    congr 1
    omega
  · simp only [Address.offset, Address.toNat_add, PageSize.bytes] at fits ⊢
    omega

/-- A read of mirrored memory gives its bytes. -/
theorem readPieces_mirrored (large : 0xF < r.pages) (enough : length ≤ pieces)
    (mirrors : Mirrors r va a length) (within : t.Within r.walk) : ∃ t',
      readPieces pieces ⟨r, t⟩ va length = .ok ⟨r.slice a length, none, ⟨r, t'⟩⟩ ∧
      t'.Within r.walk := by
  induction pieces generalizing va a length t with
  | zero =>
    cases Nat.le_zero.mp enough
    exact ⟨t, rfl, within⟩
  | succ pieces ih =>
    cases length with
    | zero => exact ⟨t, rfl, within⟩
    | succ length =>
      have piece : 0 < pieceLength va (length + 1) := pieceLength_pos va length.succ_pos
      have fits : pieceLength va (length + 1) ≤ length + 1 := Nat.min_le_right _ _
      obtain ⟨mapped, offset⟩ := mirrors.zero length.succ_pos
      obtain ⟨t', located, within'⟩ := locate_ok large within (PageMap.Le.refl _) mapped
      obtain ⟨t'', rest, within''⟩ :=
        ih (by omega) (mirrors.rest (pieceLength va (length + 1))) within'
      refine ⟨t'', ?_, within''⟩
      have place : a / 4096 * 4096 + va.offset .small = a := offset ▸ Nat.div_add_mod' a 4096
      have whole : pieceLength va (length + 1) + (length + 1 - pieceLength va (length + 1)) =
          length + 1 := Nat.add_sub_cancel' fits
      rw [readPieces_located (Ram.walk_lt mapped) located, rest, place, ← whole, ← Ram.slice_append,
        whole]
      rfl

/-- A write to mirrored memory, to pages that no walk reads, puts the bytes there. -/
theorem writePieces_mirrored {O : Nat → Prop} {s : Ram} (large : 0xF < r.pages)
    (blind : ∀ r', r.SameOff O r' → r'.walk = r.walk) (enough : bytes.length ≤ pieces)
    (mirrors : Mirrors r va a bytes.length) (opened : ∀ k < bytes.length, O ((a + k) / 4096))
    (same : r.SameOff O s) (within : t.Within r.walk) : r.SameOff O (s.put a bytes) ∧ ∃ t',
      writePieces pieces ⟨s, t⟩ va bytes = .ok ⟨none, ⟨s.put a bytes, t'⟩⟩ ∧
      t'.Within r.walk := by
  induction pieces generalizing va a bytes s t with
  | zero =>
    cases List.eq_nil_of_length_eq_zero (Nat.le_zero.mp enough)
    exact ⟨same, t, rfl, within⟩
  | succ pieces ih =>
    rcases Nat.eq_zero_or_pos bytes.length with none | pos
    · cases List.eq_nil_of_length_eq_zero none
      exact ⟨same, t, rfl, within⟩
    have piece : 0 < pieceLength va bytes.length := pieceLength_pos va pos
    have fits : pieceLength va bytes.length ≤ bytes.length := Nat.min_le_right _ _
    have walk_eq := blind s same
    have large' : 0xF < s.pages := by rwa [same.pages]
    have sound : PageMap.Le r.walk s.walk := walk_eq ▸ PageMap.Le.refl _
    obtain ⟨walked, offset⟩ := mirrors.zero pos
    have mapped : s.walk (va.pageNumber .small) = some (a / 4096) := walk_eq ▸ walked
    have place : a / 4096 * 4096 + va.offset .small = a := offset ▸ Nat.div_add_mod' a 4096
    have same₁ := sameOff_piece va bytes same (Ram.walk_lt mapped) (opened 0 pos)
    obtain ⟨t', located, within'⟩ := locate_ok large' within sound mapped
    rw [place] at same₁
    have later := mirrors.rest (pieceLength va bytes.length)
    rw [← List.length_drop] at later
    obtain ⟨same₂, t'', rest, within''⟩ := ih (by rw [List.length_drop]; omega) later
      (fun k hk => by
        rw [List.length_drop] at hk
        rw [Nat.add_assoc]
        exact opened _ (by omega)) same₁ (walk_eq ▸ within')
    have whole := Ram.put_append s a (bytes.take (pieceLength va bytes.length))
      (bytes.drop (pieceLength va bytes.length))
    rw [List.length_take_of_le fits, List.take_append_drop] at whole
    rw [whole] at same₂ rest
    refine ⟨same₂, t'', ?_, within''⟩
    rw [writePieces_located (Ram.walk_lt mapped) located pos, place]
    exact rest

end GuestMemory

end ConsoleMemory
