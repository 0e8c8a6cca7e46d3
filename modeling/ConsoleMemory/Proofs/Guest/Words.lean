import ConsoleMemory.Guest.Ram
import Mathlib.Tactic.Lemma

/-!
# Memory as a grid of words

Page tables, the page directory and the PFN database are pages of 1024 words.
A word is known by its page and its place there. Writing one word or clearing
whole pages leaves every other word as it was.
-/

namespace ConsoleMemory.Ram

variable {r r' : Ram} {a : PhysicalAddress} {p p' i i' count : Nat} {w : UInt32}

/-- Number of pages installed. -/
def pages (r : Ram) : Nat := r.size / 4096

/-- Word `i` of page `p`. -/
def word (r : Ram) (p i : Nat) : UInt32 := LittleEndian.decode (r.slice (p * 4096 + i * 4) 4)

def setWord (r : Ram) (p i : Nat) (w : UInt32) : Ram :=
  { r with image := store r.image (p * 4096 + i * 4) (LittleEndian.encode w) }

/-- Memory with `count` pages from page `p` on cleared. -/
def wipe (r : Ram) (p count : Nat) : Ram :=
  { r with image := r.image.fill 32 (p * 4096) (p * 4096 + count * 4096) 0 }

lemma size_eq (r : Ram) : r.size = r.pages * 4096 := by
  have whole : r.size % 4096 = 0 := r.wholePages
  unfold pages
  omega

lemma large_of_size (large : 0x10000 ≤ r.size) : 0xF < r.pages := by
  have size := r.size_eq
  omega

lemma pages_le (r : Ram) : r.pages < 0x100000 := by
  have := r.bounded
  unfold pages
  omega

@[simp] lemma size_setWord : (r.setWord p i w).size = r.size := rfl

@[simp] lemma pages_setWord : (r.setWord p i w).pages = r.pages := rfl

lemma requireInside_eq {length : Nat} (inside : a.toNat + length ≤ r.size) :
    r.requireInside a length = .ok () := by
  rw [requireInside, holds, require, if_pos (decide_eq_true inside)]

lemma readWord_eq (place : a.toNat = p * 4096 + i * 4) (hp : p < r.pages) (hi : i < 1024) :
    r.readWord a = .ok (r.word p i) := by
  have := r.size_eq
  rw [readWord, read, requireInside_eq (by omega), word, place]
  rfl

lemma writeWord_eq (place : a.toNat = p * 4096 + i * 4) (hp : p < r.pages) (hi : i < 1024) :
    r.writeWord a w = .ok (r.setWord p i w) := by
  have := r.size_eq
  rw [writeWord, write, requireInside_eq (by rw [LittleEndian.length_encode]; omega), setWord,
    place]
  rfl

lemma clear_eq (place : a.toNat = p * 4096) (fits : p + count ≤ r.pages) :
    r.clear a (count * 4096) = .ok (r.wipe p count) := by
  have := r.size_eq
  rw [clear, requireInside_eq (by omega), wipe, place]
  rfl

lemma slice_four (r : Ram) (n : Nat) :
    r.slice n 4 = [r.byteAt n, r.byteAt (n + 1), r.byteAt (n + 2), r.byteAt (n + 3)] := rfl

/-- A word depends on its own four bytes. -/
lemma word_congr (same : ∀ k, p * 4096 + i * 4 ≤ k → k < p * 4096 + i * 4 + 4 →
    r.byteAt k = r'.byteAt k) : r.word p i = r'.word p i := by
  simp only [word, slice_four]
  rw [same _ (by omega) (by omega), same _ (by omega) (by omega), same _ (by omega) (by omega),
    same _ (by omega) (by omega)]

lemma encode_word (r : Ram) (p i : Nat) :
    LittleEndian.encode (r.word p i) = r.slice (p * 4096 + i * 4) 4 := by
  rw [word, slice_four, LittleEndian.encode_decode]

/-- A byte depends on its own word. -/
lemma byteAt_congr {k : Nat} (same : r.word p (k / 4) = r'.word p (k / 4)) :
    r.byteAt (p * 4096 + k) = r'.byteAt (p * 4096 + k) := by
  have place : p * 4096 + k = p * 4096 + k / 4 * 4 + k % 4 := by omega
  have byte (r : Ram) : (LittleEndian.encode (r.word p (k / 4)))[k % 4]? =
      some (r.byteAt (p * 4096 + k)) := by
    rw [encode_word, slice, List.getElem?_map, List.getElem?_range' (Nat.mod_lt k (by decide)),
      Nat.one_mul, ← place]
    rfl
  exact Option.some.inj ((byte r).symm.trans (same ▸ byte r'))

lemma byteAt_eq_of_word {a : Nat}
    (same : r.word (a / 4096) (a % 4096 / 4) = r'.word (a / 4096) (a % 4096 / 4)) :
    r.byteAt a = r'.byteAt a := by
  have bytes := byteAt_congr same
  rwa [Nat.div_add_mod'] at bytes

lemma byteAt_setWord {k : Nat} (hp : p < 0x100000) (hi : i < 1024) (hk : k < 0x100000000) :
    (r.setWord p i w).byteAt k =
      if h : p * 4096 + i * 4 ≤ k ∧ k < p * 4096 + i * 4 + 4 then
        (LittleEndian.encode w).get ⟨k - (p * 4096 + i * 4), by
          rw [LittleEndian.length_encode]
          omega⟩
      else r.byteAt k := by
  have fits : p * 4096 + i * 4 + (LittleEndian.encode w).length ≤ 0x100000000 := by
    rw [LittleEndian.length_encode]
    omega
  exact get_store r.image (p * 4096 + i * 4) (LittleEndian.encode w) k hk fits

lemma word_setWord_self (hp : p < 0x100000) (hi : i < 1024) : (r.setWord p i w).word p i = w := by
  have byte (k : Nat) (hk : k < 4) : (r.setWord p i w).byteAt (p * 4096 + i * 4 + k) =
      (LittleEndian.encode w).get ⟨k, hk⟩ := by
    rw [byteAt_setWord hp hi (by omega), dif_pos (by omega)]
    congr
    omega
  rw [word, slice_four]
  refine Eq.trans ?_ (LittleEndian.decode_encode w)
  rw [byte 1 (by omega), byte 2 (by omega), byte 3 (by omega), ← Nat.add_zero (p * 4096 + i * 4),
    byte 0 (by omega)]
  rfl

lemma word_setWord (hp : p < 0x100000) (hi : i < 1024) (hp' : p' < 0x100000) (hi' : i' < 1024) :
    (r.setWord p i w).word p' i' = if p' = p ∧ i' = i then w else r.word p' i' := by
  by_cases same : p' = p ∧ i' = i
  · obtain ⟨rfl, rfl⟩ := same
    rw [word_setWord_self hp hi, if_pos ⟨rfl, rfl⟩]
  · rw [if_neg same]
    apply word_congr
    intro k low high
    rw [byteAt_setWord hp hi (by omega), dif_neg (by omega)]

lemma byteAt_wipe {k : Nat} (hk : k < 0x100000000) :
    (r.wipe p count).byteAt k =
      if p * 4096 ≤ k ∧ k < p * 4096 + count * 4096 then 0 else r.byteAt k := by
  simp only [byteAt, wipe, Image.get_fill, mod_span_of_lt hk]

lemma word_wipe (hp' : p' < 0x100000) (hi' : i' < 1024) :
    (r.wipe p count).word p' i' = if p ≤ p' ∧ p' < p + count then 0 else r.word p' i' := by
  by_cases inside : p ≤ p' ∧ p' < p + count
  · rw [if_pos inside, word, slice_four]
    rw [byteAt_wipe (by omega), byteAt_wipe (by omega), byteAt_wipe (by omega),
      byteAt_wipe (by omega), if_pos (by omega), if_pos (by omega), if_pos (by omega),
      if_pos (by omega)]
    rfl
  · rw [if_neg inside]
    apply word_congr
    intro k low high
    rw [byteAt_wipe (by omega), if_neg (by omega)]

/-- A zero word has zero bytes. -/
lemma byteAt_of_word_zero {k : Nat} (hp : p < 0x100000) (hk : k < 4096)
    (zero : r.word p (k / 4) = 0) : r.byteAt (p * 4096 + k) = 0 := by
  have same : r.word p (k / 4) = (r.wipe p 1).word p (k / 4) := by
    rw [zero, word_wipe hp (by omega), if_pos (by omega)]
  rw [byteAt_congr same, byteAt_wipe (by omega), if_pos (by omega)]

/-- A write that stays inside one page leaves the words of all others. -/
lemma word_write {bytes : List UInt8} (ok : r.write a bytes = .ok r') (low : p * 4096 ≤ a.toNat)
    (high : a.toNat + bytes.length ≤ p * 4096 + 4096) (other : p' ≠ p) (hp' : p' < 0x100000)
    (hi' : i' < 1024) : r'.word p' i' = r.word p' i' := by
  apply word_congr
  intro k hk hk'
  rw [byteAt_write ok (by omega), dif_neg (by omega)]

lemma size_write {bytes : List UInt8} (ok : r.write a bytes = .ok r') : r'.size = r.size := by
  obtain ⟨_, ok⟩ := require_bind_eq_ok.mp ok
  cases ok
  rfl

/-- Memory that differs from `r` at most in the pages of `O`. -/
structure SameOff (O : Nat → Prop) (r r' : Ram) : Prop where
  size : r'.size = r.size
  word : ∀ p i, p < r.pages → i < 1024 → ¬ O p → r'.word p i = r.word p i

lemma SameOff.refl (O : Nat → Prop) (r : Ram) : r.SameOff O r := ⟨rfl, fun _ _ _ _ _ => rfl⟩

lemma SameOff.pages {O : Nat → Prop} (h : r.SameOff O r') : r'.pages = r.pages := by
  rw [Ram.pages, Ram.pages, h.size]

lemma SameOff.trans {O : Nat → Prop} {r'' : Ram} (h : r.SameOff O r') (h' : r'.SameOff O r'') :
    r.SameOff O r'' := by
  refine ⟨h'.size.trans h.size, fun q i hq hi shut => ?_⟩
  rw [h'.word q i (h.pages.symm ▸ hq) hi shut, h.word q i hq hi shut]

lemma SameOff.write {O : Nat → Prop} {r'' : Ram} {bytes : List UInt8} (h : r.SameOff O r')
    (ok : r'.write a bytes = .ok r'') (low : p * 4096 ≤ a.toNat)
    (high : a.toNat + bytes.length ≤ p * 4096 + 4096) (open_ : O p) : r.SameOff O r'' := by
  have few := r.pages_le
  refine ⟨(size_write ok).trans h.size, fun q i hq hi shut => ?_⟩
  have other : q ≠ p := by
    rintro rfl
    exact shut open_
  rw [word_write ok low high other (by omega) hi, h.word q i hq hi shut]

end ConsoleMemory.Ram
