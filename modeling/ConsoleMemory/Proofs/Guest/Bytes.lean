import ConsoleMemory.Proofs.Guest.Safety
import Mathlib.Data.Finset.Card

/-!
# Accesses, byte by byte

An access is cut at page boundaries, but it comes to what it would come to byte by
byte: each byte is where the tables have it, and the first that they do not have ends
the access. For a write this holds as long as it does not come to the tables it is
translated by (`Untangled`), since a piece is translated once and its bytes would be
translated one after the other. If in addition no two pages of the range are one page
of memory, what was written is read again.
-/

namespace ConsoleMemory

namespace Ram

variable {r s s' : Ram} {O : Nat → Prop} {va : VirtualAddress} {a p k length : Nat} {b : UInt8}
  {xs ys bytes : List UInt8} {fault : Option PageFault} {f : PageFault} {place : PhysicalAddress}

/-- Writes bytes one by one, each to where the tables lead by then, up to the first that faults. -/
def writeBytes : Ram → VirtualAddress → List UInt8 → Except Abort (Option PageFault × Ram)
  | r, _, [] => .ok (none, r)
  | r, va, b :: rest => do
    match ← (r.translate va).run with
    | .error f => return (some f, r)
    | .ok place =>
      let r ← r.write place [b]
      writeBytes r (va + 1) rest

/-- What reading `length` bytes at `va` one by one gives: the byte at each place up to the first
that faults, and its fault. -/
structure Loads (r : Ram) (va : VirtualAddress) (length : Nat) (bytes : List UInt8)
    (fault : Option PageFault) : Prop where
  byte : ∀ i (h : i < bytes.length), ∃ place, r.translate (va + i) = .ok (.ok place) ∧
    place.toNat < r.size ∧ bytes.get ⟨i, h⟩ = r.byteAt place.toNat
  whole : fault = none → bytes.length = length
  first : ∀ f, fault = some f → bytes.length < length ∧
    r.translate (va + bytes.length) = .ok (.error f) ∧
    (f.address = va ∨ f.address.offset .small = 0)

/-- The page of the page table that an address is translated by, if the directory names one. -/
def table? (r : Ram) (va : VirtualAddress) : Option Nat :=
  let directoryEntry := r.entry 0xF (va.pageNumber .small / 1024)
  if directoryEntry.namesTable then r.page? directoryEntry.frame else none

/-- An access at `va` comes to its byte `i`, since no byte before it faults. -/
def Comes (r : Ram) (va : VirtualAddress) (i : Nat) : Prop :=
  ∀ j < i, ∃ place, r.translate (va + j) = .ok (.ok place)

/-- Page `p` is not the directory nor a page table that an access is translated by. -/
structure Unread (r : Ram) (va : VirtualAddress) (length p : Nat) : Prop where
  directory : p ≠ 0xF
  table : ∀ k < length, r.Comes va k → r.table? (va + k) ≠ some p

/-- No byte that an access comes to lies in the directory or in a table that it is translated by. -/
def Untangled (r : Ram) (va : VirtualAddress) (length : Nat) : Prop :=
  ∀ i < length, r.Comes va i → ∀ place, r.translate (va + i) = .ok (.ok place) →
    r.Unread va length (place.pageNumber .small)

/-- No two pages of the range are one page of memory. -/
def Scattered (r : Ram) (va : VirtualAddress) (length : Nat) : Prop :=
  ∀ i < length, ∀ j < length, ∀ a b, r.translate (va + i) = .ok (.ok a) →
    r.translate (va + j) = .ok (.ok b) → a.pageNumber .small = b.pageNumber .small →
    (va + i).pageNumber .small = (va + j).pageNumber .small

/-! ### Translations and walks -/

/-- The bytes before one that an access comes to are mapped. -/
lemma Comes.walked (comes : r.Comes va k) (large : 0xF < r.pages) {j : Nat} (hj : j < k) :
    ∃ p, r.walk ((va + j).pageNumber .small) = some p := by
  obtain ⟨place, found⟩ := comes j hj
  obtain ⟨p, mapped, _⟩ := (translate_ok_iff large).mp found
  exact ⟨p, mapped⟩

/-- A fault names the address that was to be translated. -/
lemma fault_address (large : 0xF < r.pages) (failed : (r.translate va).run = .ok (.error f)) :
    f.address = va := by
  have outcome := Except.ok.inj ((translate_run large va).symm.trans failed)
  obtain ⟨f', again, address, _⟩ := Mapping.outcome_error outcome va
  cases outcome.symm.trans again
  exact address

/-- A walk sees nothing of pages that are not the directory nor its table. -/
lemma walk_unread (same : r.SameOff O s) (lots : 0xF < r.pages) (directory : ¬ O 0xF)
    (table : ∀ t, r.table? va = some t → ¬ O t) :
    s.walk (va.pageNumber .small) = r.walk (va.pageNumber .small) := by
  have entries (q i : Nat) (hq : q < r.pages) (hi : i < 1024) (shut : ¬ O q) :
      s.entry q i = r.entry q i := congrArg Entry.mk (same.word q i hq hi shut)
  apply walk_congr same.pages
  · intro lt
    exact entries 0xF _ lots (by omega) directory
  · intro t _ names frame
    have named : r.table? va = some t := by
      rw [table?, if_pos names, frame]
    exact entries t _ (page?_lt frame) (Nat.mod_lt _ (by decide)) (table t named)

/-! ### One byte -/

/-- The place in memory of the byte at an address, by the walk of its page. -/
def place? (r : Ram) (va : VirtualAddress) : Option Nat :=
  (r.walk (va.pageNumber .small)).map fun p => p * 4096 + va.offset .small

lemma place?_eq_some_iff : r.place? va = some a ↔
    ∃ p, r.walk (va.pageNumber .small) = some p ∧ p * 4096 + va.offset .small = a :=
  Option.map_eq_some_iff

lemma byteAt_put_one (hk : k < 0x100000000) (ha : a < 0x100000000) :
    (s.put a [b]).byteAt k = if k = a then b else s.byteAt k := by
  rw [byteAt_put hk (by rw [List.length_singleton]; omega)]
  by_cases same : k = a
  · rw [dif_pos (by rw [List.length_singleton]; omega), if_pos same]
    simp
  · rw [dif_neg (by rw [List.length_singleton]; omega), if_neg same]

lemma write_byte (inside : p < s.pages) (va : VirtualAddress) (b : UInt8) :
    s.write (.ofNat (p * 4096 + va.offset .small)) [b] =
      .ok (s.put (p * 4096 + va.offset .small) [b]) := by
  obtain ⟨place, page⟩ := GuestMemory.toNat_place va inside
  have offset := va.offset_lt
  rw [write_eq (by rw [place, List.length_singleton]; omega), place]

/-- A byte that goes to a page of `O` changes no other page. -/
lemma SameOff.byte (same : r.SameOff O s) (inside : p < s.pages) (opened : O p)
    (va : VirtualAddress) (b : UInt8) : r.SameOff O (s.put (p * 4096 + va.offset .small) [b]) := by
  have place := (GuestMemory.toNat_place va inside).1
  have offset := va.offset_lt
  refine same.write (write_byte inside va b) ?_ ?_ opened
  · rw [place]
    exact Nat.le_add_right _ _
  · rw [place, List.length_singleton]
    omega

lemma writeBytes_walked (large : 0xF < s.pages) (mapped : s.walk (va.pageNumber .small) = some p)
    (b : UInt8) (xs : List UInt8) :
    s.writeBytes va (b :: xs) =
      (s.put (p * 4096 + va.offset .small) [b]).writeBytes (va + 1) xs := by
  have found := translate_of_walk large mapped
  rw [writeBytes, found]
  simp only [bind, Except.bind, ExceptT.run, write_byte (walk_lt mapped)]

lemma writeBytes_faulted (failed : (s.translate va).run = .ok (.error f)) :
    s.writeBytes va (b :: xs) = .ok (some f, s) := by
  rw [writeBytes, failed]
  rfl

end Ram

namespace GuestMemory

open Ram

variable {r s s' : Ram} {O : Nat → Prop} {va : VirtualAddress} {a p n k length pieces : Nat}
  {xs ys bytes : List UInt8} {fault : Option PageFault}

/-! ### Reading -/

/-- The bytes of a piece, before those of the rest. -/
lemma loads_append (rest : r.Loads (va + n) (length - n) bytes fault) (large : 0xF < r.pages)
    (mirrors : Mirrors r va a n) (fits : n ≤ length)
    (cut : n = length ∨ (va + n).offset .small = 0) :
    r.Loads va length (r.slice a n ++ bytes) fault := by
  have taken : (r.slice a n).length = n := by
    rw [slice, List.length_map, List.length_range']
  constructor
  · intro i hi
    rcases Nat.lt_or_ge i n with early | late
    · obtain ⟨found, place, inside⟩ := mirrors.translate large early
      refine ⟨_, found, lt_of_eq_of_lt place inside, ?_⟩
      simp only [place, List.get_eq_getElem]
      rw [List.getElem_append_left (by omega)]
      simp only [slice, List.getElem_map, List.getElem_range', Nat.one_mul]
    · obtain ⟨place, found, inside, byte⟩ := rest.byte (i - n) (by
        rw [List.length_append, taken] at hi
        omega)
      rw [add_add, Nat.add_sub_cancel' late] at found
      refine ⟨place, found, inside, ?_⟩
      simp only [List.get_eq_getElem] at byte ⊢
      rw [List.getElem_append_right (by omega), ← byte]
      simp only [taken]
  · intro none
    rw [List.length_append, taken, rest.whole none]
    omega
  · intro f failed
    obtain ⟨short, found, address⟩ := rest.first f failed
    rw [add_add] at found
    rw [List.length_append, taken]
    refine ⟨by omega, found, Or.inr ?_⟩
    rcases address with start | start
    · rcases cut with all | cut
      · omega
      · rwa [start]
    · exact start

/-- A read loads the bytes of the range. The induction is on the pieces, of which each mirrors its
part of a page. -/
theorem readPieces_loads (flushes : Nat) (large : 0xF < r.pages) (va : VirtualAddress)
    (enough : length ≤ pieces) :
    ∃ bytes fault, readPieces pieces ⟨r, .counting flushes⟩ va length =
      .ok ⟨bytes, fault, ⟨r, .counting flushes⟩⟩ ∧ r.Loads va length bytes fault := by
  have nothing (va : VirtualAddress) : r.Loads va 0 [] none := ⟨nofun, fun _ => rfl, nofun⟩
  induction pieces generalizing va length with
  | zero =>
    cases Nat.le_zero.mp enough
    exact ⟨_, _, rfl, nothing va⟩
  | succ pieces ih =>
    cases length with
    | zero => exact ⟨_, _, rfl, nothing va⟩
    | succ length =>
      rcases translate_eq large va with ⟨p, mapped, _⟩ | ⟨_, f, failed⟩
      · have piece : 0 < pieceLength va (length + 1) := pieceLength_pos va length.succ_pos
        have fits : pieceLength va (length + 1) ≤ length + 1 := Nat.min_le_right _ _
        have inPage := pieceLength_le va (length + 1)
        have offset := va.offset_lt
        have fewer : length + 1 - pieceLength va (length + 1) ≤ pieces := by omega
        obtain ⟨bytes, fault, rest, loads⟩ := ih (va + pieceLength va (length + 1)) fewer
        refine ⟨_, _, ?_, loads_append loads large (mirrors_piece mapped (by omega)) fits
          (pieceLength_cut va (length + 1))⟩
        rw [readPieces_located (walk_lt mapped) (locate_counting large mapped), rest]
        rfl
      · refine ⟨_, _, readPieces_faulted (locate_failed rfl failed), nofun, nofun,
          fun f' same => ?_⟩
        cases same
        refine ⟨length.succ_pos, ?_, Or.inl (fault_address large failed)⟩
        rw [List.length_nil, add_zero]
        exact failed

/-! ### Writing -/

/-- Bytes that are written one by one to mirrored memory are put there, if no walk on the way sees
the pages of `O` that they go to. -/
lemma writeBytes_mirrored (large : 0xF < s.pages) (ys : List UInt8)
    (opened : ∀ j < xs.length, O ((a + j) / 4096))
    (mirrors : ∀ t, s.SameOff O t → Mirrors t va a xs.length) :
    s.writeBytes va (xs ++ ys) = (s.put a xs).writeBytes (va + xs.length) ys ∧
      s.SameOff O (s.put a xs) := by
  induction xs generalizing s va a with
  | nil => exact ⟨congrArg (writeBytes s · ys) (add_zero va).symm, .refl O s⟩
  | cons b xs ih =>
    obtain ⟨mapped, offset⟩ := (mirrors s (.refl O s)).zero (Nat.succ_pos _)
    have place : a / 4096 * 4096 + va.offset .small = a := offset ▸ Nat.div_add_mod' a 4096
    have one := (SameOff.refl O s).byte (walk_lt mapped) (opened 0 (Nat.succ_pos _)) va b
    have step := writeBytes_walked large mapped b (xs ++ ys)
    rw [place] at one step
    have opened' (j : Nat) (hj : j < xs.length) : O ((a + 1 + j) / 4096) := by
      rw [Nat.add_assoc]
      exact opened (1 + j) (by rw [List.length_cons]; omega)
    obtain ⟨rest, same⟩ := ih (s := s.put a [b]) large opened' fun t same =>
      (mirrors t (one.trans same)).rest 1
    have whole : (s.put a [b]).put (a + 1) xs = s.put a (b :: xs) := put_append s a [b] xs
    have past : va + 1 + xs.length = va + (b :: xs).length := by
      rw [add_add, List.length_cons, Nat.add_comm]
    rw [whole, past] at rest
    rw [whole] at same
    exact ⟨step.trans rest, one.trans same⟩

/-- The bytes of an access land in pages of `O`, and whatever these come to hold, each byte that it
comes to stays where it is. -/
structure Steady (r : Ram) (va : VirtualAddress) (length : Nat) (O : Nat → Prop) : Prop where
  lands : ∀ k < length, r.Comes va k → ∀ p, r.walk ((va + k).pageNumber .small) = some p → O p
  walk : ∀ s, r.SameOff O s → ∀ k < length, r.Comes va k →
    s.walk ((va + k).pageNumber .small) = r.walk ((va + k).pageNumber .small)

lemma steady_untangled (large : 0xF < r.pages) (h : r.Untangled va length) :
    Steady r va length (r.Unread va length) := by
  constructor
  · intro i hi comes p mapped
    have unread := h i hi comes _ (translate_of_walk large mapped)
    rwa [(place_inside (walk_lt mapped) (va + i)).2.1] at unread
  · intro s same k hk comes
    apply walk_unread same large
    · intro unread
      exact unread.directory rfl
    · intro t named unread
      exact unread.table k hk comes named

/-- An access that comes to a mapped page comes to the bytes behind it as well, up to the next page.
-/
lemma comes_add (large : 0xF < r.pages) (comes : r.Comes va k)
    (mapped : r.walk ((va + k).pageNumber .small) = some p)
    (fits : (va + k).offset .small + n ≤ 4096) : r.Comes va (k + n) := by
  intro j hj
  rcases Nat.lt_or_ge j k with early | late
  · exact comes j early
  · obtain ⟨i, rfl⟩ := Nat.exists_eq_add_of_le late
    obtain ⟨found, _⟩ := (mirrors_piece mapped fits).translate large (Nat.lt_of_add_lt_add_left hj)
    rw [add_add] at found
    exact ⟨_, found⟩

section

variable (large : 0xF < r.pages) (steady : Steady r va length O) (same : r.SameOff O s)
  (comes : r.Comes va k)
include large steady same comes

/-- The bytes of a piece are put into its page one by one as at once, since the page stays where it
is. -/
lemma writeBytes_piece (hk : k < length) (mapped : s.walk ((va + k).pageNumber .small) = some p)
    (fits : (va + k).offset .small + n ≤ 4096) (enough : n ≤ bytes.length) :
    s.writeBytes (va + k) bytes = (s.put (p * 4096 + (va + k).offset .small)
        (bytes.take n)).writeBytes (va + (k + n)) (bytes.drop n) ∧
      r.SameOff O (s.put (p * 4096 + (va + k).offset .small) (bytes.take n)) ∧
      r.Comes va (k + n) := by
  have large' : 0xF < s.pages := by rwa [same.pages]
  have walked : r.walk ((va + k).pageNumber .small) = some p :=
    (steady.walk s same k hk comes).symm.trans mapped
  have opened : O p := steady.lands k hk comes p walked
  have taken : (bytes.take n).length = n := List.length_take_of_le enough
  have mirrors (t : Ram) (same' : s.SameOff O t) :
      Mirrors t (va + k) (p * 4096 + (va + k).offset .small) (bytes.take n).length := by
    rw [taken]
    exact mirrors_piece ((steady.walk t (same.trans same') k hk comes).trans walked) fits
  have inside (j : Nat) (hj : j < (bytes.take n).length) :
      O ((p * 4096 + (va + k).offset .small + j) / 4096) := by
    rwa [show (p * 4096 + (va + k).offset .small + j) / 4096 = p by omega]
  obtain ⟨one, same'⟩ := writeBytes_mirrored large' (bytes.drop n) inside mirrors
  rw [List.take_append_drop, taken, add_add] at one
  exact ⟨one, same.trans same', comes_add large comes walked fits⟩

/-- A write in pieces is a write byte by byte, from each byte on that the access comes to. -/
theorem writePieces_bytewise (flushes : Nat) (whole : k + bytes.length = length)
    (enough : bytes.length ≤ pieces) :
    ∃ fault s', writePieces pieces ⟨s, .counting flushes⟩ (va + k) bytes =
        .ok ⟨fault, ⟨s', .counting flushes⟩⟩ ∧ s.writeBytes (va + k) bytes = .ok (fault, s') := by
  induction pieces generalizing k s bytes with
  | zero =>
    cases List.eq_nil_of_length_eq_zero (Nat.le_zero.mp enough)
    exact ⟨none, s, rfl, rfl⟩
  | succ pieces ih =>
    rcases Nat.eq_zero_or_pos bytes.length with none | pos
    · cases List.eq_nil_of_length_eq_zero none
      exact ⟨.none, s, rfl, rfl⟩
    have large' : 0xF < s.pages := by rwa [same.pages]
    rcases translate_eq large' (va + k) with ⟨p, mapped, _⟩ | ⟨_, f, failed⟩
    · have piece : 0 < pieceLength (va + k) bytes.length := pieceLength_pos _ pos
      have short : pieceLength (va + k) bytes.length ≤ bytes.length := Nat.min_le_right _ _
      have inPage := pieceLength_le (va + k) bytes.length
      have offset := (va + k).offset_lt
      rw [writePieces_located (walk_lt mapped) (locate_counting large' mapped) pos]
      generalize pieceLength (va + k) bytes.length = n at piece short inPage ⊢
      obtain ⟨one, same', comes'⟩ :=
        writeBytes_piece (n := n) large steady same comes (by omega) mapped (by omega) short
      have rest : (bytes.drop n).length = bytes.length - n := List.length_drop
      have whole' : k + n + (bytes.drop n).length = length := by omega
      obtain ⟨fault, s', cut, bytewise⟩ := ih same' comes' whole' (by omega)
      rw [add_add]
      exact ⟨fault, s', cut, one.trans bytewise⟩
    · refine ⟨some f, s, ?_, ?_⟩
      · exact writePieces_faulted (locate_failed rfl failed) pos
      · obtain ⟨b, rest, rfl⟩ := List.exists_cons_of_length_pos pos
        exact writeBytes_faulted failed

/-- A write byte by byte that no fault ends comes to every byte. Memory is the same but for the
places that it comes to, and a place that it comes to no more holds its byte. -/
theorem writeBytes_stores (whole : k + bytes.length = length)
    (done : s.writeBytes (va + k) bytes = .ok (none, s')) :
    r.SameOff O s' ∧ r.Comes va length ∧
      (∀ a < 0x100000000, (∀ j, k ≤ j → j < length → r.place? (va + j) ≠ some a) →
        s'.byteAt a = s.byteAt a) ∧
      ∀ i (h : i < bytes.length) a, r.place? (va + (k + i)) = some a →
        (∀ j, k + i < j → j < length → r.place? (va + j) ≠ some a) →
        s'.byteAt a = bytes.get ⟨i, h⟩ := by
  induction bytes generalizing k s with
  | nil =>
    cases done
    cases whole
    exact ⟨same, comes, fun a _ _ => rfl, nofun⟩
  | cons b bytes ih =>
    rw [List.length_cons] at whole
    have hk : k < length := by omega
    have large' : 0xF < s.pages := by rwa [same.pages]
    rcases translate_eq large' (va + k) with ⟨p, mapped, _⟩ | ⟨_, f, failed⟩
    · have walked : r.walk ((va + k).pageNumber .small) = some p :=
        (steady.walk s same k hk comes).symm.trans mapped
      have own := place?_eq_some_iff.mpr ⟨p, walked, rfl⟩
      have offset := (va + k).offset_lt
      have bounded : p * 4096 + (va + k).offset .small < 0x100000000 := by
        have few := r.pages_le
        have inside := walk_lt walked
        omega
      rw [writeBytes_walked large' mapped, add_add] at done
      obtain ⟨same', all, frame, stored⟩ := ih
        (same.byte (walk_lt mapped) (steady.lands k hk comes p walked) (va + k) b)
        (comes_add (n := 1) large comes walked (by omega)) (by omega) done
      refine ⟨same', all, ?_, ?_⟩
      · intro a ha apart
        rw [frame a ha fun j hj => apart j (by omega), byteAt_put_one ha bounded, if_neg]
        rintro rfl
        exact apart k (Nat.le_refl k) hk own
      · intro i hi a found last
        cases i with
        | zero =>
          cases own.symm.trans found
          rw [frame _ bounded fun j hj => last j (by omega), byteAt_put_one bounded bounded,
            if_pos rfl]
          rfl
        | succ i =>
          have past : k + 1 + i = k + (i + 1) := by omega
          rw [← past] at found last
          exact stored i (Nat.lt_of_succ_lt_succ hi) a found last
    · rw [writeBytes_faulted failed] at done
      cases done

end

/-! ### Reading what was written -/

section

variable (large : 0xF < r.pages) (scattered : r.Scattered va length)
include large scattered

/-- Two bytes of one page of memory are on one page of the range. -/
lemma page_eq_of_scattered {i j : Nat} (hi : i < length) (hj : j < length)
    (first : r.walk ((va + i).pageNumber .small) = some p)
    (second : r.walk ((va + j).pageNumber .small) = some p) :
    (va + i).pageNumber .small = (va + j).pageNumber .small := by
  have inside := walk_lt first
  refine scattered i hi j hj _ _ (translate_of_walk large first) (translate_of_walk large second) ?_
  rw [(place_inside inside (va + i)).2.1, (place_inside inside (va + j)).2.1]

variable (all : r.Comes va length)
include all

/-- There are more virtual pages than pages of memory, so the range does not come back to where it
begins. -/
lemma length_lt_of_scattered : length < 0x100000000 := by
  refine Nat.lt_of_not_le fun long => ?_
  have met (n : Nat) (hn : n < 0x100000) : ∃ i < length, (va + i).pageNumber .small = n := by
    have lt := va.toNat_lt
    refine ⟨(n * 4096 + 0x100000000 - va.toNat) % 0x100000000, by omega, ?_⟩
    simp only [Address.pageNumber, Address.toNat_add, PageSize.bytes]
    omega
  have inside : ∀ n ∈ Finset.range 0x100000, (r.walk n).getD 0 ∈ Finset.range r.pages := by
    intro n hn
    obtain ⟨i, hi, rfl⟩ := met n (Finset.mem_range.mp hn)
    obtain ⟨p, walked⟩ := all.walked large hi
    rw [walked]
    exact Finset.mem_range.mpr (walk_lt walked)
  have fewer : (Finset.range r.pages).card < (Finset.range 0x100000).card := by
    rw [Finset.card_range, Finset.card_range]
    exact r.pages_le
  obtain ⟨m, hm, n, hn, apart, same⟩ :=
    Finset.exists_ne_map_eq_of_card_lt_of_maps_to fewer inside
  obtain ⟨i, hi, rfl⟩ := met m (Finset.mem_range.mp hm)
  obtain ⟨j, hj, rfl⟩ := met n (Finset.mem_range.mp hn)
  obtain ⟨p, walked⟩ := all.walked large hi
  obtain ⟨q, walked'⟩ := all.walked large hj
  simp only [walked, walked', Option.getD_some] at same
  subst same
  exact apart (page_eq_of_scattered large scattered hi hj walked walked')

/-- Each byte of the range has a place of its own. -/
lemma place?_ne_of_scattered {i j : Nat} (before : i < j) (hj : j < length)
    (found : r.place? (va + i) = some a) : r.place? (va + j) ≠ some a := by
  intro found'
  have short := length_lt_of_scattered large scattered all
  obtain ⟨p, walked, place⟩ := place?_eq_some_iff.mp found
  obtain ⟨q, walked', place'⟩ := place?_eq_some_iff.mp found'
  have offset := (va + i).offset_lt
  have offset' := (va + j).offset_lt
  have pages : q = p := by omega
  subst pages
  have same := page_eq_of_scattered large scattered (before.trans hj) hj walked walked'
  have lt := va.toNat_lt
  simp only [Address.pageNumber, Address.offset, Address.toNat_add, PageSize.bytes]
    at same place place'
  omega

end

/-- If no two of its pages are one page of memory, a range that was written is read again. -/
theorem read_writeBytes (flushes : Nat) (large : 0xF < r.pages)
    (steady : Steady r va bytes.length O) (scattered : r.Scattered va bytes.length)
    (done : r.writeBytes va bytes = .ok (none, s)) :
    (⟨s, .counting flushes⟩ : GuestMemory).read va bytes.length =
      .ok ⟨bytes, none, ⟨s, .counting flushes⟩⟩ := by
  rw [← add_zero va] at done
  obtain ⟨same, all, _, stored⟩ :=
    writeBytes_stores (k := 0) large steady (.refl O r) nofun (Nat.zero_add _) done
  have large' : 0xF < s.pages := by rwa [same.pages]
  have walked (i : Nat) (hi : i < bytes.length) :
      ∃ p, r.walk ((va + i).pageNumber .small) = some p ∧
        s.walk ((va + i).pageNumber .small) = some p := by
    obtain ⟨p, mapped⟩ := all.walked large hi
    have still := steady.walk s same i hi fun j hj => all j (hj.trans hi)
    exact ⟨p, mapped, still.trans mapped⟩
  obtain ⟨loaded, fault, read, loads⟩ :=
    readPieces_loads flushes large' va (Nat.le_refl bytes.length)
  have passes : fault = none := by
    cases fault with
    | none => rfl
    | some f =>
      obtain ⟨short, failed, _⟩ := loads.first f rfl
      obtain ⟨p, _, mapped⟩ := walked _ short
      cases failed.symm.trans (translate_of_walk large' mapped)
  have equal : loaded = bytes := by
    apply List.ext_get (loads.whole passes)
    intro i hi hi'
    obtain ⟨place, found, _, byte⟩ := loads.byte i hi
    obtain ⟨p, mapped, mapped'⟩ := walked i hi'
    cases found.symm.trans (translate_of_walk large' mapped')
    have own := place?_eq_some_iff.mpr ⟨p, mapped, rfl⟩
    have last (j : Nat) (later : i < j) (hj : j < bytes.length) :=
      place?_ne_of_scattered large scattered all later hj own
    have again := stored i hi' (p * 4096 + (va + i).offset .small)
    rw [Nat.zero_add] at again
    rw [byte, (toNat_place (va + i) (walk_lt mapped)).1]
    exact again own last
  rw [equal, passes] at read
  exact read

end GuestMemory

namespace Ram

open GuestMemory

/-- Without a buffer, a read of any length at any address gives what reading the bytes one by one
gives, up to the first that faults. A write that stays off the tables it is translated by leaves
memory as writing its bytes one by one, and ends with the same fault. If none ends it and no two of
its pages are one page of memory, the range is read as it was written. -/
theorem access_bytewise {r : Ram} (large : 0x10000 ≤ r.size) (flushes : Nat)
    (va : VirtualAddress) :
    (∀ length, ∃ bytes fault, (⟨r, .counting flushes⟩ : GuestMemory).read va length =
        .ok ⟨bytes, fault, ⟨r, .counting flushes⟩⟩ ∧ r.Loads va length bytes fault) ∧
      ∀ bytes, r.Untangled va bytes.length → ∃ fault s,
        (⟨r, .counting flushes⟩ : GuestMemory).write va bytes =
          .ok ⟨fault, ⟨s, .counting flushes⟩⟩ ∧ r.writeBytes va bytes = .ok (fault, s) ∧
        (fault = none → r.Scattered va bytes.length →
          (⟨s, .counting flushes⟩ : GuestMemory).read va bytes.length =
            .ok ⟨bytes, none, ⟨s, .counting flushes⟩⟩) := by
  have lots := large_of_size large
  constructor
  · intro length
    exact readPieces_loads flushes lots va (Nat.le_refl length)
  · intro bytes untangled
    have steady := steady_untangled lots untangled
    obtain ⟨fault, s, wrote, bytewise⟩ :=
      writePieces_bytewise (k := 0) lots steady (.refl _ r) nofun
      flushes (Nat.zero_add _) (Nat.le_refl _)
    rw [add_zero] at wrote bytewise
    refine ⟨fault, s, wrote, bytewise, ?_⟩
    rintro rfl scattered
    exact read_writeBytes flushes lots steady scattered bytewise

/-- Twenty pages in which the last virtual page is page 5 and the first one page 4. -/
def wrapped : Ram :=
  let cleared : Ram := ⟨0x14000, .uniform 0, by decide, by decide, by decide⟩
  (((cleared.setWord 0xF 1023 0x1067).setWord 0xF 0 0x2067).setWord 1 1023 0x5067).setWord 2 0
    0x4067

/-- Two bytes before the end of the address space. -/
def brink : VirtualAddress := .ofNat 0xFFFFFFFE

/-- Four bytes around the end of the address space are written and read again. A read that goes on
ends at the second page. -/
theorem access_bytewise_wrapped :
    0x10000 ≤ wrapped.size ∧ wrapped.Untangled brink 4 ∧ wrapped.Scattered brink 4 ∧
      (∃ s, (⟨wrapped, .counting 0⟩ : GuestMemory).write brink [1, 2, 3, 4] =
          .ok ⟨none, ⟨s, .counting 0⟩⟩ ∧ wrapped.writeBytes brink [1, 2, 3, 4] = .ok (none, s) ∧
        (⟨s, .counting 0⟩ : GuestMemory).read brink 4 =
          .ok ⟨[1, 2, 3, 4], none, ⟨s, .counting 0⟩⟩) ∧
      ∃ bytes, (⟨wrapped, .counting 0⟩ : GuestMemory).read brink 0x2000 =
          .ok ⟨bytes, some (.notPresent (.ofNat 0x1000)), ⟨wrapped, .counting 0⟩⟩ ∧
        wrapped.Loads brink 0x2000 bytes (some (.notPresent (.ofNat 0x1000))) := by
  have large : 0x10000 ≤ wrapped.size := by decide
  have lots := large_of_size large
  have untangled : wrapped.Untangled brink 4 := by
    have apart : ∀ i < 4, ∀ k < 4, wrapped.walk ((brink + i).pageNumber .small) ≠ some 0xF ∧
        wrapped.walk ((brink + i).pageNumber .small) ≠ wrapped.table? (brink + k) := by decide
    intro i hi _ place found
    obtain ⟨p, walked, rfl⟩ := (translate_ok_iff lots).mp found
    rw [(place_inside (walk_lt walked) (brink + i)).2.1]
    constructor
    · rintro rfl
      exact (apart i hi i hi).1 walked
    · intro k hk _ named
      exact (apart i hi k hk).2 (walked.trans named.symm)
  have scattered : wrapped.Scattered brink 4 := by
    have pages : ∀ i < 4, (brink + i).pageNumber .small =
        if wrapped.walk ((brink + i).pageNumber .small) = some 5 then 0xFFFFF else 0 := by decide
    intro i hi j hj a b found found' same
    obtain ⟨p, walked, rfl⟩ := (translate_ok_iff lots).mp found
    obtain ⟨q, walked', rfl⟩ := (translate_ok_iff lots).mp found'
    rw [(place_inside (walk_lt walked) (brink + i)).2.1,
      (place_inside (walk_lt walked') (brink + j)).2.1] at same
    rw [pages i hi, pages j hj, walked, walked', same]
  obtain ⟨reads, writes⟩ := access_bytewise large 0 brink
  refine ⟨large, untangled, scattered, ?_, ?_⟩
  · obtain ⟨fault, s, wrote, bytewise, again⟩ := writes [1, 2, 3, 4] untangled
    have ends : (match (⟨wrapped, .counting 0⟩ : GuestMemory).write brink [1, 2, 3, 4] with
      | .ok stored => stored.fault == none
      | .error _ => false) = true := by decide +kernel
    rw [wrote] at ends
    cases eq_of_beq ends
    exact ⟨s, wrote, bytewise, again rfl scattered⟩
  · obtain ⟨bytes, fault, read, loads⟩ := reads 0x2000
    have ends : (match (⟨wrapped, .counting 0⟩ : GuestMemory).read brink 0x2000 with
      | .ok loaded => loaded.fault == some (.notPresent (.ofNat 0x1000))
      | .error _ => false) = true := by decide +kernel
    rw [read] at ends
    cases eq_of_beq ends
    exact ⟨bytes, read, loads⟩

end Ram

end ConsoleMemory
