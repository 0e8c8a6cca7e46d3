import ConsoleMemory.Abort
import Mathlib.Tactic.Lemma

/-!
# Fields that make up a word

A write moves no bit outside of its field. Where fields follow one another from the
lowest bit of a word to the highest, every bit belongs to one of them, so that their
values are all there is to the word.
-/

namespace ConsoleMemory.BitField

variable {f g : BitField} {fields : List BitField} {u v w : UInt32} {i n start : Nat}

/-- The field has the bit at position `i`. -/
def Covers (f : BitField) (i : Nat) : Prop := f.low ≤ i ∧ i < f.low + f.width

/-- Every bit of `f` is a bit of `g`. -/
def Within (f g : BitField) : Prop := g.low ≤ f.low ∧ f.low + f.width ≤ g.low + g.width

instance (f g : BitField) : Decidable (f.Within g) :=
  inferInstanceAs (Decidable (_ ∧ _))

/-- The words differ in bits of the field alone. -/
def SameOutside (f : BitField) (v w : UInt32) : Prop :=
  ∀ i, ¬ f.Covers i → v.toNat.testBit i = w.toNat.testBit i

/-- The fields follow one another, without a gap or an overlap, from bit `start` to the highest bit
of a word. -/
def Packed : Nat → List BitField → Prop
  | start, [] => start = 32
  | start, f :: rest => f.low = start ∧ Packed (start + f.width) rest

instance decidablePacked :
    (start : Nat) → (fields : List BitField) → Decidable (Packed start fields)
  | start, [] => inferInstanceAs (Decidable (start = 32))
  | start, f :: rest =>
    have := decidablePacked (start + f.width) rest
    inferInstanceAs (Decidable (f.low = start ∧ Packed (start + f.width) rest))

/-! ### Changes inside a field -/

lemma sameOutside_write (f : BitField) (w : UInt32) (n : Nat) : f.SameOutside (f.write w n) w := by
  intro i outside
  rw [testBit_write]
  exact if_neg outside

lemma SameOutside.trans (first : f.SameOutside u v) (second : f.SameOutside v w) :
    f.SameOutside u w :=
  fun i outside => (first i outside).trans (second i outside)

/-- Outside of a field there is less than outside of a part of it. -/
lemma SameOutside.mono (same : f.SameOutside v w) (part : f.Within g) : g.SameOutside v w := by
  intro i outside
  refine same i fun inside => outside ?_
  exact ⟨Nat.le_trans part.1 inside.1, Nat.lt_of_lt_of_le inside.2 part.2⟩

lemma SameOutside.read_eq (same : f.SameOutside v w) (apart : g.Disjoint f) :
    g.read v = g.read w := by
  apply Nat.eq_of_testBit_eq
  intro i
  rw [testBit_read, testBit_read]
  by_cases inside : i < g.width
  · have outside : ¬ f.Covers (g.low + i) := by
      rintro ⟨low, high⟩
      rcases apart with below | above
      · omega
      · omega
    rw [same _ outside]
  · simp [inside]

/-! ### Words taken apart -/

/-- Equal values of a field are equal bits. -/
lemma testBit_eq_of_read_eq (same : f.read v = f.read w) (covered : f.Covers i) :
    v.toNat.testBit i = w.toNat.testBit i := by
  obtain ⟨low, high⟩ := covered
  have inside : i - f.low < f.width := by omega
  have bit := congrArg (fun n => n.testBit (i - f.low)) same
  simpa only [testBit_read, inside, decide_true, Bool.true_and, Nat.add_sub_cancel' low] using bit

/-- Every bit from the start on belongs to a field. -/
lemma Packed.exists_covers (packed : Packed start fields) (low : start ≤ i) (high : i < 32) :
    ∃ f ∈ fields, f.Covers i := by
  induction fields generalizing start with
  | nil =>
    have stop : start = 32 := packed
    omega
  | cons f rest ih =>
    obtain ⟨first, behind⟩ := packed
    by_cases here : i < start + f.width
    · exact ⟨f, List.mem_cons_self, by omega, by omega⟩
    · obtain ⟨g, mem, covers⟩ := ih behind (by omega)
      exact ⟨g, List.mem_cons_of_mem f mem, covers⟩

/-- The values of packed fields determine the word. -/
theorem Packed.ext (packed : Packed 0 fields) (same : ∀ f ∈ fields, f.read v = f.read w) :
    v = w := by
  apply word_ext
  intro i
  rcases Nat.lt_or_ge i 32 with small | large
  · obtain ⟨f, mem, covers⟩ := packed.exists_covers i.zero_le small
    exact testBit_eq_of_read_eq (same f mem) covers
  · rw [testBit_of_le v large, testBit_of_le w large]

/-! ### Values of fields -/

/-- A field of one bit holds nothing but whether it is set. -/
lemma read_eq_iff_isSet_eq (single : f.width = 1) :
    f.read v = f.read w ↔ f.isSet v = f.isSet w := by
  have two : f.values = 2 := by
    rw [values, single]
    rfl
  have hv := two ▸ f.read_lt v
  have hw := two ▸ f.read_lt w
  rw [isSet, isSet, Bool.eq_iff_iff, bne_iff_ne, bne_iff_ne]
  omega

lemma isSet_put (single : f.width = 1) (w : UInt32) (b : Bool) : f.isSet (f.put w b) = b := by
  have fits : b.toNat < f.values := by
    rw [values, single]
    exact Nat.lt_succ_of_le b.toNat_le
  rw [isSet, put, read_write f w fits]
  cases b <;> rfl

/-- A value too large is refused and not cut. -/
lemma checkedWrite_of_lt (large : f.maximum < n) :
    f.checkedWrite w n = .error (.refused (.outOfBounds f.maximum)) :=
  if_neg (Nat.not_le_of_lt large)

end ConsoleMemory.BitField
