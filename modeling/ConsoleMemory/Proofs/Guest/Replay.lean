import ConsoleMemory.Proofs.Guest.Contract

/-!
# Accesses replayed

If a program flushes what it maps anew, and no write changes the translation of a page
before it comes to that page, nothing tells whether translations are remembered
(`replay_ignores_buffer`). It is not enough that a write changes no translation from
before to after.
-/

namespace ConsoleMemory

variable {r s : Ram} {t t₀ : Tlb} {va : VirtualAddress} {bytes : List UInt8}
  {stale : VirtualAddress → Prop} {a : Access} {accesses : List Access}

namespace GuestMemory

/-- A write to a single page comes to no other page. -/
lemma finds_single (m : GuestMemory) (single : bytes.length ≤ pieceLength va bytes.length) :
    m.Finds va bytes := by
  intro k hk cut m' written
  have first : k = 0 := by
    rcases cut with first | cut
    · exact first
    · have lt := va.toNat_lt
      simp only [pieceLength, MemoryMap.pageBytes, Address.offset, Address.toNat_add,
        PageSize.bytes] at single cut
      omega
  subst first
  rw [List.take_zero, write_nil] at written
  cases written
  rfl

section

variable {p : Nat} {t' : Tlb} (inside : p < r.pages)
  (located : ((⟨r, t⟩ : GuestMemory).locate va).run =
    .ok (.ok (.ofNat (p * 4096 + va.offset .small), ⟨r, t'⟩))) (pos : 0 < bytes.length)
include inside located pos

/-- A write of the first piece and `k` more bytes begins with the first piece. -/
lemma write_take {k : Nat} (hk : pieceLength va bytes.length + k ≤ bytes.length) :
    (⟨r, t⟩ : GuestMemory).write va (bytes.take (pieceLength va bytes.length + k)) =
      (⟨r.put (p * 4096 + va.offset .small) (bytes.take (pieceLength va bytes.length)), t'⟩ :
        GuestMemory).write (va + pieceLength va bytes.length)
          ((bytes.drop (pieceLength va bytes.length)).take k) := by
  have piece := pieceLength_pos va pos
  have taken := List.length_take_of_le hk
  have first : pieceLength va (pieceLength va bytes.length + k) = pieceLength va bytes.length := by
    simp only [pieceLength] at hk ⊢
    omega
  have pos' : 0 < (bytes.take (pieceLength va bytes.length + k)).length := by omega
  have begun := write_located inside located pos'
  rw [taken, first, List.take_take, Nat.min_eq_left (Nat.le_add_right _ _), List.drop_take,
    Nat.add_sub_cancel_left] at begun
  exact begun

/-- What is left after the first piece comes to pages as the whole does. -/
lemma Meets.piece {T : VirtualAddress → Walk PhysicalAddress}
    (meets : (⟨r, t⟩ : GuestMemory).Meets T va bytes) :
    (⟨r.put (p * 4096 + va.offset .small) (bytes.take (pieceLength va bytes.length)), t'⟩ :
      GuestMemory).Meets T (va + pieceLength va bytes.length)
        (bytes.drop (pieceLength va bytes.length)) := by
  have begins {k : Nat} := write_take (k := k) inside located pos
  have cut := pieceLength_cut va bytes.length
  generalize pieceLength va bytes.length = n at *
  intro k hk cut' m' written
  rw [List.length_drop] at hk
  rw [add_add] at cut' ⊢
  refine meets (n + k) (by omega) (Or.inr ?_) m' ((begins (by omega)).trans written)
  rcases cut' with rfl | cut'
  · exact cut.resolve_left (by omega)
  · exact cut'

end

/-- A write that finds its pages as they are remembered comes to the same whatever is remembered. -/
lemma Meets.write {b : Ram} (large : 0xF < r.pages) (base : 0xF < b.pages)
    (within₀ : t₀.Within b.walk) (meets : (⟨r, t₀⟩ : GuestMemory).Meets b.translate va bytes) :
    ∃ fault s, s.size = r.size ∧ ∀ t, t.Within b.walk → ∃ t',
      (⟨r, t⟩ : GuestMemory).write va bytes = .ok ⟨fault, ⟨s, t'⟩⟩ ∧ t'.Within b.walk := by
  -- The pieces before have changed memory from `b` to `r`; what is remembered is still of `b`.
  induction count : bytes.length using Nat.strongRecOn generalizing r t₀ va bytes with
  | ind count ih =>
  rcases Nat.eq_zero_or_pos bytes.length with none | pos
  · rw [List.eq_nil_of_length_eq_zero none]
    exact ⟨.none, r, rfl, fun t within => ⟨t, rfl, within⟩⟩
  have here : r.translate va = b.translate va := by
    have first := meets 0 pos (Or.inl rfl) ⟨r, t₀⟩ (write_nil _ _)
    rwa [add_zero] at first
  have same : r.walk (va.pageNumber .small) = b.walk (va.pageNumber .small) :=
    Ram.walk_of_translate base large here
  rcases Ram.translate_eq large va with ⟨p, mapped, _⟩ | ⟨unmapped, fault, failed⟩
  · have inside := Ram.walk_lt mapped
    have piece := pieceLength_pos va pos
    obtain ⟨t₁, located₀, within₁⟩ := locate_same large within₀ (same ▸ mapped) mapped
    obtain ⟨fault, s, size, rest⟩ := ih _ (by rw [List.length_drop]; omega) (by exact large) within₁
      (meets.piece inside located₀ pos) rfl
    refine ⟨fault, s, size, fun t within => ?_⟩
    obtain ⟨t', located, within'⟩ := locate_same large within (same ▸ mapped) mapped
    rw [write_located inside located pos]
    exact rest t' within'
  · refine ⟨some fault, r, rfl, fun t within => ⟨t, ?_, within⟩⟩
    exact write_faulted (locate_fault within (same ▸ unmapped) failed) pos

end GuestMemory

lemma Ram.clear_ok {place : PhysicalAddress} {length : Nat}
    (inside : place.toNat + length ≤ r.size) :
    ∃ s, r.clear place length = .ok s ∧ s.size = r.size := by
  rw [clear, requireInside_eq inside]
  exact ⟨_, rfl, rfl⟩

namespace Access

variable {reply : Reply}

/-- The access gives `reply` and leads from memory `r` to `s` whatever is remembered, if only pages
where a flush is due are remembered wrongly. -/
structure Answers (r : Ram) (stale : VirtualAddress → Prop) (a : Access) (reply : Reply) (s : Ram) :
    Prop where
  size : s.size = r.size
  performs : ∀ t : Tlb, t.Trusted r.walk stale → ∃ t', a.perform ⟨r, t⟩ = .ok (reply, ⟨s, t'⟩) ∧
    t'.Trusted s.walk (a.Due r s stale)

/-- Where the walk may change but nothing is flushed. -/
lemma Answers.of_change (large : 0xF < r.pages) (size : s.size = r.size)
    (flushless : ∀ va, ¬ a.Flushes va)
    (performs : ∀ t : Tlb, t.Trusted r.walk stale → ∃ t',
      a.perform ⟨r, t⟩ = .ok (reply, ⟨s, t'⟩) ∧ t'.Trusted r.walk stale) :
    Answers r stale a reply s := by
  have large' : 0xF < s.pages := by
    rw [Ram.pages, size]
    exact large
  refine ⟨size, fun t trusted => ?_⟩
  obtain ⟨t', performed, trusted'⟩ := performs t trusted
  exact ⟨t', performed, (trusted'.change large large').mono fun va due => ⟨due, flushless va⟩⟩

/-- An allowed access gives and leaves the same whatever is remembered. -/
theorem exists_answers (large : 0xF < r.pages) (trusted₀ : t₀.Trusted r.walk stale)
    (allowed : a.Allowed GuestMemory.Finds ⟨r, t₀⟩ stale) :
    ∃ reply s, Answers r stale a reply s := by
  cases a with
  | poke place bytes =>
    refine ⟨([], none), r.put place.toNat bytes, .of_change large rfl (fun _ => id)
      fun t trusted => ⟨t, ?_, trusted⟩⟩
    rw [perform, GuestMemory.writeRam, Ram.write_eq allowed]
    rfl
  | wipe place length =>
    obtain ⟨s, cleared, size⟩ := Ram.clear_ok allowed
    refine ⟨([], none), s, .of_change large size (fun _ => id) fun t trusted => ⟨t, ?_, trusted⟩⟩
    rw [perform, GuestMemory.clearRam, cleared]
    rfl
  | read va length =>
    obtain ⟨bytes, fault, reads⟩ := GuestMemory.readPieces_eq large length va length
    refine ⟨(bytes, fault), r, .of_change large rfl (fun _ => id) fun t trusted => ?_⟩
    obtain ⟨t', read, within⟩ := reads t (trusted.within allowed)
    have read' : (⟨r, t⟩ : GuestMemory).read va length = .ok ⟨bytes, fault, ⟨r, t'⟩⟩ := read
    refine ⟨t', ?_, within.trusted⟩
    rw [perform, read']
    rfl
  | write va bytes =>
    obtain ⟨fresh, found⟩ := allowed
    have finds : (⟨r, t₀⟩ : GuestMemory).Finds va bytes := by
      rcases Nat.lt_or_ge (GuestMemory.pieceLength va bytes.length) bytes.length with many | single
      · exact found many
      · exact GuestMemory.finds_single _ single
    obtain ⟨fault, s, size, writes⟩ :=
      GuestMemory.Meets.write large large (trusted₀.within fresh) finds
    refine ⟨([], fault), s, .of_change large size (fun _ => id) fun t trusted => ?_⟩
    obtain ⟨t', written, within⟩ := writes t (trusted.within fresh)
    refine ⟨t', ?_, within.trusted⟩
    rw [perform, written]
    rfl
  | flush first last =>
    refine ⟨([], none), r, rfl, fun t trusted => ⟨_, rfl, ?_⟩⟩
    exact (trusted.flush first last).mono fun va due => ⟨Or.inl due.1, due.2⟩

end Access

/-- A sequence of accesses that observes the contract gives the same and leaves the same whatever is
remembered. -/
theorem Observes.replay (large : 0xF < r.pages) (trusted₀ : t₀.Trusted r.walk stale)
    (observes : Observes GuestMemory.Finds ⟨r, t₀⟩ stale accesses) :
    ∃ seen, ∀ t : Tlb, t.Trusted r.walk stale → replay ⟨r, t⟩ accesses = .ok seen := by
  induction accesses generalizing r t₀ stale with
  | nil => exact ⟨[], fun _ _ => rfl⟩
  | cons a rest ih =>
    obtain ⟨allowed, later⟩ := observes
    obtain ⟨reply, s, answers⟩ := Access.exists_answers large trusted₀ allowed
    obtain ⟨t₁, performed₀, trusted₁⟩ := answers.performs t₀ trusted₀
    have large' : 0xF < s.pages := by
      rw [Ram.pages, answers.size]
      exact large
    obtain ⟨seen, replays⟩ := ih large' trusted₁ (later reply _ performed₀)
    refine ⟨(reply, s) :: seen, fun t trusted => ?_⟩
    obtain ⟨t', performed, trusted'⟩ := answers.performs t trusted
    rw [ConsoleMemory.replay, performed]
    simp only [bind, Except.bind, replays t' trusted']
    rfl

/-- A program that flushes what it maps anew cannot tell whether translations are remembered: every
reply, with the fault if there is one, and memory after every access are the same. A write to more
than one page must find each of them where it was before the write. -/
theorem replay_ignores_buffer {ram : Ram} (size : 0x10000 ≤ ram.size) (flushes : Nat)
    {accesses : List Access}
    (observes : Observes GuestMemory.Finds ⟨ram, .counting flushes⟩ (fun _ => False) accesses) :
    ∃ seen, replay ⟨ram, .counting flushes⟩ accesses = .ok seen ∧
      replay ⟨ram, .caching []⟩ accesses = .ok seen := by
  have large : 0xF < ram.pages := by
    have whole := ram.size_eq
    omega
  have counting : (Tlb.counting flushes).Trusted ram.walk fun _ => False :=
    (Tlb.Within.counting flushes _).trusted
  have caching : (Tlb.caching []).Trusted ram.walk fun _ => False := fun _ _ found => by cases found
  obtain ⟨seen, replays⟩ := observes.replay large counting
  exact ⟨seen, replays _ counting, replays _ caching⟩

namespace Rewiring

/-! ### A page mapped anew, and flushed -/

/-- Sixteen pages of memory. Pages 1 and 2 hold tables with the same entries: the last two map page
1 and page 4. The directory names the first of them, and a table in page 3 that maps the directory.
-/
def memory : Ram :=
  let cleared : Ram := ⟨0x10000, .uniform 0, by decide, by decide, by decide⟩
  ((((((cleared.setWord 0xF 0 0x1067).setWord 0xF 1 0x3067).setWord 1 1022 0x1067).setWord
    1 1023 0x4067).setWord 2 1022 0x1067).setWord 2 1023 0x4067).setWord 3 0 0xF067

/-- Memory with page 5 mapped in place of page 4. -/
def moved : Ram := memory.setWord 1 1023 0x5067

/-- The page that is moved. -/
def second : VirtualAddress := .ofNat 0x3FF000

def third : VirtualAddress := .ofNat 0x400000

/-- The last address of that page. -/
def edge : VirtualAddress := .ofNat 0x3FFFFF

variable {p q i : Nat} {D : List UInt8}

lemma page?_eq {r : Ram} (pages : r.pages = 16) (hp : p < 16) : r.page? p = some p :=
  Ram.page?_of_lt (pages ▸ hp) (by omega)

lemma pages_memory : memory.pages = 16 := rfl

lemma size_moved : moved.size = memory.size := by rw [moved, Ram.size_setWord]

lemma pages_moved : moved.pages = 16 := by rw [moved, Ram.pages_setWord, pages_memory]

lemma word_moved (hp : p < 0x100000) (hi : i < 1024) :
    moved.word p i = if p = 1 ∧ i = 1023 then 0x5067 else memory.word p i := by
  rw [moved, Ram.word_setWord (by decide) (by decide) hp hi]

lemma walk_moved : moved.walk (second.pageNumber .small) = some 5 := by decide

/-- Without a buffer an address is found where the walk leads to. -/
lemma locate_counting {r : Ram} {flushes : Nat} (pages : r.pages = 16) {va : VirtualAddress}
    (mapped : r.walk (va.pageNumber .small) = some p) :
    ((⟨r, .counting flushes⟩ : GuestMemory).locate va).run =
      .ok (.ok (.ofNat (p * 4096 + va.offset .small), ⟨r, .counting flushes⟩)) :=
  GuestMemory.locate_counting (by rw [pages]; decide) mapped

def flushAll : Access := .flush (.ofNat 0) (.ofNat 0xFFFFFFFF)

lemma not_due_flushAll {r s : Ram} {stale : VirtualAddress → Prop} (va : VirtualAddress) :
    ¬ flushAll.Due r s stale va := by
  have lt := va.toNat_lt
  refine fun due => due.2 ⟨Nat.zero_le _, ?_⟩
  simp only [Address.pageNumber, PageSize.bytes, Address.toNat_ofNat]
  omega

/-- The page is moved and flushed before bytes are written across its end, and the write is flushed
before the page is read. -/
def flushed : List Access :=
  [.poke (.ofNat 0x1FFC) (LittleEndian.encode 0x5067), flushAll, .write edge [1, 0x67], flushAll,
    .read second 1]

/-- The write does not move the page after. -/
lemma finds_across : (⟨moved, .counting 1⟩ : GuestMemory).Finds edge [1, 0x67] := by
  have located : ((⟨moved, .counting 1⟩ : GuestMemory).locate edge).run =
      .ok (.ok (.ofNat (5 * 4096 + edge.offset .small), ⟨moved, .counting 1⟩)) :=
    locate_counting pages_moved (by decide)
  have offset : edge.offset .small = 4095 := by decide
  have next : edge + 1 = third := by decide
  have large : 0xF < moved.pages := by
    rw [pages_moved]
    decide
  have large' : 0xF < (moved.put (5 * 4096 + 4095) [1]).pages := by
    rwa [Ram.pages_put]
  have before : moved.walk (third.pageNumber .small) = some 0xF := by decide
  have after : (moved.put (5 * 4096 + 4095) [1]).walk (third.pageNumber .small) = some 0xF := by
    decide
  have inside : 5 < moved.pages := Nat.lt_trans (by decide) large
  have one := GuestMemory.write_append (x := [1]) (y := []) inside located (by decide) (by decide)
  rw [offset, GuestMemory.write_nil, List.append_nil] at one
  generalize moved = r at *
  intro k hk cut m' written
  rcases k with _ | _ | k
  · rw [List.take_zero, GuestMemory.write_nil] at written
    cases written
    rfl
  · cases one.symm.trans written
    change (r.put (5 * 4096 + 4095) [1]).translate (edge + 1) = r.translate (edge + 1)
    rw [next, Ram.translate_of_walk large' after, Ram.translate_of_walk large before]
  · exact absurd hk (by simp)

lemma observes_flushed :
    Observes GuestMemory.Finds ⟨memory, .counting 0⟩ (fun _ => False) flushed := by
  have poked : (Access.poke (.ofNat 0x1FFC) (LittleEndian.encode 0x5067)).perform
      ⟨memory, .counting 0⟩ = .ok (([], none), ⟨moved, .counting 0⟩) := by
    have stored : memory.write (.ofNat 0x1FFC) (LittleEndian.encode 0x5067) = .ok moved :=
      Ram.writeWord_eq rfl (by decide) (by decide)
    rw [Access.perform, GuestMemory.writeRam, stored]
    rfl
  have inside : 0x1FFC + 4 ≤ memory.size := by decide
  refine ⟨inside, fun _ _ performed => ?_⟩
  cases poked.symm.trans performed
  refine ⟨trivial, fun _ _ performed => ?_⟩
  cases performed
  exact ⟨⟨not_due_flushAll, fun _ => finds_across⟩, fun _ _ _ =>
    ⟨trivial, fun _ _ _ => ⟨not_due_flushAll, fun _ _ _ => trivial⟩⟩⟩

theorem flushed_ignores_buffer : 0x10000 ≤ memory.size ∧
    Observes GuestMemory.Finds ⟨memory, .counting 0⟩ (fun _ => False) flushed ∧
    ∃ seen, replay ⟨memory, .counting 0⟩ flushed = .ok seen ∧
      replay ⟨memory, .caching []⟩ flushed = .ok seen :=
  ⟨Nat.le_refl _, observes_flushed, replay_ignores_buffer (Nat.le_refl _) 0 observes_flushed⟩

/-! ### A write that moves the page ahead of it

Its first piece maps the page of its second piece anew, its third makes the directory name another
table, in which that page is where it was. -/

/-- The write starts in the last word of a page. -/
def start : VirtualAddress := .ofNat 0x3FEFFC

/-- What is written, with the bytes `D` for the second page. -/
def written (D : List UInt8) : List UInt8 :=
  LittleEndian.encode 0x5067 ++ (D ++ LittleEndian.encode 0x2067)

/-- The write between two looks at its second page. -/
def trial (D : List UInt8) : List Access :=
  [.read second 1, .write start (written D), .read second 1]

/-- Memory after two pages of the write: the first mapped page 5 in place of page 4, and the second
went to page `q`. -/
def halfway (q : Nat) (D : List UInt8) : Ram := moved.put (q * 4096) D

/-- Memory after the write: its third page made the directory name the other table. -/
def rewired (q : Nat) (D : List UInt8) : Ram := (halfway q D).setWord 0xF 0 0x2067

lemma size_rewired (q : Nat) (D : List UInt8) : (rewired q D).size = memory.size := by
  rw [rewired, Ram.size_setWord, halfway, Ram.size_put, size_moved]

lemma pages_rewired (q : Nat) (D : List UInt8) : (rewired q D).pages = 16 := by
  rw [Ram.pages, size_rewired, ← pages_memory, Ram.pages]

lemma pages_halfway (q : Nat) (D : List UInt8) : (halfway q D).pages = 16 := by
  rw [← pages_rewired q D, rewired, Ram.pages_setWord]

lemma word_memory (hp : p < 0x100000) (hi : i < 1024) : memory.word p i =
    if p = 3 ∧ i = 0 then 0xF067 else if p = 2 ∧ i = 1023 then 0x4067
    else if p = 2 ∧ i = 1022 then 0x1067 else if p = 1 ∧ i = 1023 then 0x4067
    else if p = 1 ∧ i = 1022 then 0x1067 else if p = 0xF ∧ i = 1 then 0x3067
    else if p = 0xF ∧ i = 0 then 0x1067 else 0 := by
  unfold memory
  rw [Ram.word_setWord (by decide) (by decide) hp hi,
    Ram.word_setWord (by decide) (by decide) hp hi, Ram.word_setWord (by decide) (by decide) hp hi,
    Ram.word_setWord (by decide) (by decide) hp hi, Ram.word_setWord (by decide) (by decide) hp hi,
    Ram.word_setWord (by decide) (by decide) hp hi, Ram.word_setWord (by decide) (by decide) hp hi]
  rfl

/-- The two tables have the same entries. -/
lemma word_tables (hi : i < 1024) : memory.word 2 i = memory.word 1 i := by
  rw [word_memory (by decide) hi, word_memory (by decide) hi]
  simp

section

variable (full : D.length = 4096)
include full

lemma word_halfway (hq : q < 0x100000) (hp : p < 0x100000) (hi : i < 1024) (other : p ≠ q) :
    (halfway q D).word p i = if p = 1 ∧ i = 1023 then 0x5067 else memory.word p i := by
  rw [halfway, Ram.word_put (Nat.le_of_eq full) hq hp hi other, word_moved hp hi]

lemma word_rewired (hq : q < 0x100000) (hp : p < 0x100000) (hi : i < 1024) (other : p ≠ q) :
    (rewired q D).word p i = if p = 0xF ∧ i = 0 then 0x2067
      else if p = 1 ∧ i = 1023 then 0x5067 else memory.word p i := by
  rw [rewired, Ram.word_setWord (by decide) (by decide) hp hi, word_halfway full hq hp hi other]

/-- The directory before and after the write. -/
lemma entry_directory (hq : q = 4 ∨ q = 5) (hi : i < 1024) :
    memory.entry 0xF i = ⟨if i = 0 then 0x1067 else if i = 1 then 0x3067 else 0⟩ ∧
      (rewired q D).entry 0xF i = ⟨if i = 0 then 0x2067 else if i = 1 then 0x3067 else 0⟩ := by
  have before : memory.word 0xF i = if i = 0 then 0x1067 else if i = 1 then 0x3067 else 0 := by
    rw [word_memory (by decide) hi]
    by_cases first : i = 0
    · simp [first]
    · simp [first]
  have after : (rewired q D).word 0xF i = if i = 0 then 0x2067 else memory.word 0xF i := by
    rw [word_rewired full (by omega) (by decide) hi (by omega)]
    simp
  constructor
  · exact congrArg Entry.mk before
  · refine congrArg Entry.mk (after.trans ?_)
    rw [before]
    split <;> rfl

/-- Every address is translated as before the write, whichever page its second page went to. -/
lemma translate_rewired (hq : q = 4 ∨ q = 5) : (rewired q D).translate = memory.translate := by
  funext va
  refine Ram.translate_congr (size_rewired q D) ?_
  have large : 0xF < memory.pages := by decide
  have large' : 0xF < (rewired q D).pages := by
    rw [pages_rewired]
    decide
  have lt := va.toNat_lt
  have hi : va.pageNumber .small / 1024 < 1024 := by
    simp only [Address.pageNumber, PageSize.bytes]
    omega
  have hj : va.pageNumber .small % 1024 < 1024 := Nat.mod_lt _ (by decide)
  obtain ⟨before, after⟩ := entry_directory full hq hi
  change ((rewired q D).physical va).run = (memory.physical va).run
  by_cases first : va.pageNumber .small / 1024 = 0
  · -- The tables changed places.
    rw [if_pos first] at before after
    have table : memory.page? 1 = some 1 := page?_eq pages_memory (by decide)
    have table' : (rewired q D).page? 2 = some 2 := page?_eq (pages_rewired q D) (by decide)
    have entry : (rewired q D).entry 2 (va.pageNumber .small % 1024) =
        memory.entry 1 (va.pageNumber .small % 1024) := by
      refine congrArg Entry.mk ?_
      rw [word_rewired full (by omega) (by decide) hj (by omega), if_neg (by omega),
        if_neg (by omega), word_tables hj]
    exact Ram.physical_table_congr large large' (by rw [before]; decide) (by rw [after]; decide)
      (by rw [before]; exact table) (by rw [after]; exact table') entry
  rw [if_neg first] at before after
  by_cases other : va.pageNumber .small / 1024 = 1
  · rw [if_pos other] at before after
    have table : memory.page? 3 = some 3 := page?_eq pages_memory (by decide)
    have table' : (rewired q D).page? 3 = some 3 := page?_eq (pages_rewired q D) (by decide)
    have entry : (rewired q D).entry 3 (va.pageNumber .small % 1024) =
        memory.entry 3 (va.pageNumber .small % 1024) := by
      refine congrArg Entry.mk ?_
      rw [word_rewired full (by omega) (by decide) hj (by omega), if_neg (by omega),
        if_neg (by omega)]
    exact Ram.physical_table_congr large large' (by rw [before]; decide) (by rw [after]; decide)
      (by rw [before]; exact table) (by rw [after]; exact table') entry
  · rw [if_neg other] at before after
    rw [Ram.physical_vacant large (by rw [before]; decide),
      Ram.physical_vacant large' (by rw [after]; decide)]

end

/-- A walk through two words. -/
lemma walk_of_words {r : Ram} (pages : r.pages = 16) {va : VirtualAddress} {n t : Nat}
    {d e : UInt32} (number : va.pageNumber .small = n) (directory : r.word 0xF (n / 1024) = d)
    (names : (⟨d⟩ : Entry).namesTable = true) (frame : (⟨d⟩ : Entry).frame = t)
    (entry : r.word t (n % 1024) = e) (valid : (⟨e⟩ : Entry).valid = true)
    (mapped : (⟨e⟩ : Entry).frame = p) (small : n < 0x100000 ∧ t < 16 ∧ p < 16) :
    r.walk (va.pageNumber .small) = some p := by
  have directory' : r.entry 0xF (n / 1024) = ⟨d⟩ := congrArg Entry.mk directory
  have entry' : r.entry t (n % 1024) = ⟨e⟩ := congrArg Entry.mk entry
  have walked := Ram.walk_table_eq small.1 (directory' ▸ names)
    (by rw [directory', frame]; exact page?_eq pages small.2.1)
  rw [number, walked, entry', if_pos valid, mapped]
  exact page?_eq pages small.2.2

lemma walk_start : memory.walk (start.pageNumber .small) = some 1 := by decide

lemma walk_second : memory.walk (second.pageNumber .small) = some 4 := by decide

lemma walk_third (full : D.length = 4096) (hq : q = 4 ∨ q = 5) :
    (halfway q D).walk (third.pageNumber .small) = some 0xF := by
  refine walk_of_words (n := 1024) (pages_halfway q D) (by decide)
    (word_halfway full (by omega) (by decide) (by decide) (by omega)) ?_ ?_
    (word_halfway full (p := 3) (by omega) (by decide) (by decide) (by omega)) ?_ ?_ (by decide)
  · decide
  · decide
  · decide
  · decide

lemma walk_again (full : D.length = 4096) :
    (rewired 5 D).walk (second.pageNumber .small) = some 4 := by
  refine walk_of_words (n := 1023) (pages_rewired 5 D) (by decide)
    (word_rewired full (by decide) (by decide) (by decide) (by decide)) ?_ ?_
    (word_rewired full (p := 2) (by decide) (by decide) (by decide) (by decide)) ?_ ?_ (by decide)
  · decide
  · decide
  · decide
  · decide

lemma byteAt_memory : memory.byteAt 0x4000 = 0 := by decide

lemma byteAt_rewired (full : D.length = 4096) :
    (rewired 4 D).byteAt 0x4000 = D.get ⟨0, by omega⟩ ∧ (rewired 5 D).byteAt 0x4000 = 0 := by
  constructor
  · rw [rewired, Ram.byteAt_setWord (by decide) (by decide) (by decide), dif_neg (by decide),
      halfway, Ram.byteAt_put (by decide) (by rw [full]; decide), dif_pos (by rw [full]; decide)]
  · rw [rewired, Ram.byteAt_setWord (by decide) (by decide) (by decide), dif_neg (by decide),
      halfway, Ram.byteAt_put (by decide) (by rw [full]; decide), dif_neg (by rw [full]; decide)]
    decide

/-- A look at the second page where it is page 4. -/
lemma perform_look {r : Ram} {t t' : Tlb} (pages : r.pages = 16)
    (located : ((⟨r, t⟩ : GuestMemory).locate second).run =
      .ok (.ok (.ofNat (4 * 4096 + second.offset .small), ⟨r, t'⟩))) :
    (Access.read second 1).perform ⟨r, t⟩ = .ok (([r.byteAt 0x4000], none), ⟨r, t'⟩) := by
  have offset : second.offset .small = 0 := by decide
  rw [Access.perform, GuestMemory.read_byte (by rw [pages]; decide) located, offset]
  rfl

/-- The three pieces of the write, wherever the second goes to. -/
lemma write_rewires (full : D.length = 4096) {t t₁ t₂ t₃ : Tlb} (hq : q < 16)
    (at₁ : ((⟨memory, t⟩ : GuestMemory).locate start).run =
      .ok (.ok (.ofNat (1 * 4096 + start.offset .small), ⟨memory, t₁⟩)))
    (at₂ : ((⟨moved, t₁⟩ : GuestMemory).locate second).run =
      .ok (.ok (.ofNat (q * 4096 + second.offset .small), ⟨moved, t₂⟩)))
    (at₃ : ((⟨halfway q D, t₂⟩ : GuestMemory).locate third).run =
      .ok (.ok (.ofNat (0xF * 4096 + third.offset .small), ⟨halfway q D, t₃⟩))) :
    (⟨memory, t⟩ : GuestMemory).write start (written D) = .ok ⟨none, ⟨rewired q D, t₃⟩⟩ := by
  have offset₁ : start.offset .small = 4092 := by decide
  have offset₂ : second.offset .small = 0 := by decide
  have offset₃ : third.offset .small = 0 := by decide
  have next₁ : start + 4 = second := by decide
  have next₂ : second + 4096 = third := by decide
  have inside₁ : 1 < memory.pages := by decide
  have inside₂ : q < moved.pages := hq
  have inside₃ : 0xF < (halfway q D).pages := by
    rw [pages_halfway]
    decide
  have stored₁ : memory.put (1 * 4096 + 4092) (LittleEndian.encode 0x5067) = moved := rfl
  have stored₂ : moved.put (q * 4096 + 0) D = halfway q D := by
    rw [Nat.add_zero, halfway]
  have stored₃ :
      (halfway q D).put (0xF * 4096 + 0) (LittleEndian.encode 0x2067) = rewired q D := rfl
  rw [written, GuestMemory.write_append inside₁ at₁ (by decide) (by
      rw [GuestMemory.pieceLength, List.length_append, List.length_append, full]
      decide), LittleEndian.length_encode, next₁, offset₁, stored₁,
    GuestMemory.write_append inside₂ at₂ (by rw [full]; decide) (by
      rw [GuestMemory.pieceLength, List.length_append, full]
      decide), full, next₂, offset₂, stored₂,
    ← List.append_nil (LittleEndian.encode 0x2067),
    GuestMemory.write_append inside₃ at₃ (by decide) (by decide), GuestMemory.write_nil, offset₃,
    stored₃]

/-- What the three accesses come to, and that the write changes no translation. -/
lemma outcome (full : D.length = 4096) (hq : q = 4 ∨ q = 5) {t t₁ t₂ t₃ : Tlb}
    {before after : Access.Reply}
    (looks : (Access.read second 1).perform ⟨memory, t⟩ = .ok (before, ⟨memory, t₁⟩))
    (writes : (⟨memory, t₁⟩ : GuestMemory).write start (written D) =
      .ok ⟨none, ⟨rewired q D, t₂⟩⟩)
    (looks' : (Access.read second 1).perform ⟨rewired q D, t₂⟩ =
      .ok (after, ⟨rewired q D, t₃⟩)) :
    Observes GuestMemory.Settles ⟨memory, t⟩ (fun _ => False) (trial D) ∧
      replay ⟨memory, t⟩ (trial D) =
        .ok [(before, memory), (([], none), rewired q D), (after, rewired q D)] := by
  have wrote : (Access.write start (written D)).perform ⟨memory, t₁⟩ =
      .ok (([], none), ⟨rewired q D, t₂⟩) := by
    rw [Access.perform, writes]
    rfl
  have translate := translate_rewired full hq
  constructor
  · refine ⟨fun _ => id, fun reply m' performed => ?_⟩
    cases looks.symm.trans performed
    refine ⟨⟨?_, fun _ stored ran => ?_⟩, fun reply m' performed => ?_⟩
    · rintro va ⟨due | changed, _⟩
      · exact due
      · exact changed rfl
    · cases writes.symm.trans ran
      exact translate
    · cases wrote.symm.trans performed
      refine ⟨?_, fun _ _ _ => trivial⟩
      rintro va ⟨⟨due | changed, _⟩ | changed, _⟩
      · exact due
      · exact changed rfl
      · exact changed (congrFun translate va)
  · rw [trial, replay, looks]
    simp only [bind, Except.bind]
    rw [replay, wrote]
    simp only [bind, Except.bind]
    rw [replay, looks']
    rfl

/-- If nothing is remembered, the second page of the write goes to page 5. -/
lemma outcome_walked (full : D.length = 4096) :
    Observes GuestMemory.Settles ⟨memory, .counting 0⟩ (fun _ => False) (trial D) ∧
      replay ⟨memory, .counting 0⟩ (trial D) = .ok
        [(([0], none), memory), (([], none), rewired 5 D), (([0], none), rewired 5 D)] := by
  have look := perform_look (t := .counting 0) pages_memory
    (locate_counting pages_memory walk_second)
  have look' := perform_look (t := .counting 0) (pages_rewired 5 D)
    (locate_counting (pages_rewired 5 D) (walk_again full))
  rw [byteAt_memory] at look
  rw [(byteAt_rewired full).2] at look'
  have writes := write_rewires (t := .counting 0) full (by decide)
    (locate_counting pages_memory walk_start) (locate_counting pages_moved walk_moved)
    (locate_counting (pages_halfway 5 D) (walk_third full (Or.inr rfl)))
  exact outcome full (Or.inr rfl) look writes look'

/-- If the second page is remembered from the first look, the write goes to page 4. -/
lemma outcome_remembered (full : D.length = 4096) :
    Observes GuestMemory.Settles ⟨memory, .caching []⟩ (fun _ => False) (trial D) ∧
      replay ⟨memory, .caching []⟩ (trial D) = .ok [(([0], none), memory),
        (([], none), rewired 4 D), (([D.get ⟨0, by omega⟩], none), rewired 4 D)] := by
  have large : 0xF < memory.pages := by decide
  have large' : 0xF < (halfway 4 D).pages := by
    rw [pages_halfway]
    decide
  have look := perform_look pages_memory
    (GuestMemory.locate_walked (t := .caching []) large rfl walk_second)
  have at₁ := GuestMemory.locate_walked
    (t := (Tlb.caching []).remember (second.pageNumber .small) (.ofNat (4 * 4096)))
    large (by decide) walk_start
  have at₃ := GuestMemory.locate_walked
    (t := ((Tlb.caching []).remember (second.pageNumber .small) (.ofNat (4 * 4096))).remember
      (start.pageNumber .small) (.ofNat (1 * 4096)))
    large' (by decide) (walk_third full (Or.inl rfl))
  have writes := write_rewires full (by decide) at₁ (GuestMemory.locate_known (by decide)) at₃
  have look' := perform_look (pages_rewired 4 D) (GuestMemory.locate_known
    (t := (((Tlb.caching []).remember (second.pageNumber .small) (.ofNat (4 * 4096))).remember
      (start.pageNumber .small) (.ofNat (1 * 4096))).remember (third.pageNumber .small)
        (.ofNat (0xF * 4096))) (by decide))
  rw [byteAt_memory] at look
  rw [(byteAt_rewired full).1] at look'
  exact outcome full (Or.inl rfl) look writes look'

/-- What is written to the second page. -/
def ones : List UInt8 := .replicate 4096 1

/-- The write changes no translation from before to after, and nothing has to be flushed. But the
look after it tells whether translations are remembered. -/
theorem tells_buffer : 0x10000 ≤ memory.size ∧
    Observes GuestMemory.Settles ⟨memory, .counting 0⟩ (fun _ => False) (trial ones) ∧
    Observes GuestMemory.Settles ⟨memory, .caching []⟩ (fun _ => False) (trial ones) ∧
    replay ⟨memory, .counting 0⟩ (trial ones) = .ok
      [(([0], none), memory), (([], none), rewired 5 ones), (([0], none), rewired 5 ones)] ∧
    replay ⟨memory, .caching []⟩ (trial ones) = .ok
      [(([0], none), memory), (([], none), rewired 4 ones), (([1], none), rewired 4 ones)] := by
  have full : ones.length = 4096 := List.length_replicate
  have first : ones.get ⟨0, by omega⟩ = 1 := List.getElem_replicate _
  obtain ⟨walked, seen⟩ := outcome_walked full
  obtain ⟨remembered, seen'⟩ := outcome_remembered full
  rw [first] at seen'
  exact ⟨Nat.le_refl _, walked, remembered, seen, seen'⟩

end Rewiring

end ConsoleMemory
