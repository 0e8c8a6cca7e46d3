/-!
Fields of a 32-bit word. A field is a run of bits given by its lowest position and its width.
`read` takes its value out of a word and `write` puts another one in: a written value is read
back (`read_write`) and no bit outside the run moves (`testBit_write`).
-/

namespace ConsoleMemory

/-- A run of bits inside a 32-bit word. -/
structure BitField where
  low : Nat
  width : Nat
  fits : low + width ≤ 32 := by decide

namespace BitField

/-- How many values the field can hold. -/
def values (f : BitField) : Nat := 1 <<< f.width

/-- The largest value the field can hold. -/
def maximum (f : BitField) : Nat := f.values - 1

def read (f : BitField) (w : UInt32) : Nat :=
  (w.toNat >>> f.low) % f.values

/-- The word with `v` in the field; bits of `v` above the field's width are ignored. -/
def write (f : BitField) (w : UInt32) (v : Nat) : UInt32 :=
  UInt32.ofNat
    ((w.toNat &&& (0xFFFFFFFF ^^^ (f.maximum <<< f.low))) ||| ((v % f.values) <<< f.low))

def isSet (f : BitField) (w : UInt32) : Bool := f.read w != 0

def put (f : BitField) (w : UInt32) (b : Bool) : UInt32 := f.write w b.toNat

/-- Two fields share no bit. -/
def Disjoint (f g : BitField) : Prop :=
  f.low + f.width ≤ g.low ∨ g.low + g.width ≤ f.low

instance (f g : BitField) : Decidable (f.Disjoint g) :=
  inferInstanceAs (Decidable (_ ∨ _))

theorem values_pos (f : BitField) : 0 < f.values := by
  rw [values, Nat.one_shiftLeft]
  exact Nat.two_pow_pos _

theorem read_lt (f : BitField) (w : UInt32) : f.read w < f.values :=
  Nat.mod_lt _ f.values_pos

/-- A word has no bit from the thirty-second on. -/
theorem testBit_of_le (w : UInt32) {i : Nat} (h : 32 ≤ i) : w.toNat.testBit i = false :=
  Nat.testBit_lt_two_pow (Nat.lt_of_lt_of_le w.toNat_lt (Nat.pow_le_pow_right (by decide) h))

/-- Words with the same bits are the same. -/
theorem word_ext {v w : UInt32} (h : ∀ i, v.toNat.testBit i = w.toNat.testBit i) : v = w :=
  UInt32.toNat_inj.mp (Nat.eq_of_testBit_eq h)

theorem testBit_read (f : BitField) (w : UInt32) (i : Nat) :
    (f.read w).testBit i = (decide (i < f.width) && w.toNat.testBit (f.low + i)) := by
  simp [read, values, Nat.one_shiftLeft, Nat.testBit_mod_two_pow, Nat.testBit_shiftRight]

theorem testBit_write (f : BitField) (w : UInt32) (v i : Nat) :
    (f.write w v).toNat.testBit i =
      if f.low ≤ i ∧ i < f.low + f.width then v.testBit (i - f.low)
      else w.toNat.testBit i := by
  have hf := f.fits
  simp only [write, maximum, values, Nat.one_shiftLeft, show 0xFFFFFFFF = 2 ^ 32 - 1 from rfl,
    UInt32.toNat_ofNat', Nat.testBit_mod_two_pow, Nat.testBit_or, Nat.testBit_and, Nat.testBit_xor,
    Nat.testBit_shiftLeft, Nat.testBit_two_pow_sub_one]
  by_cases hi : i < 32
  · by_cases h1 : f.low ≤ i
    · by_cases h2 : i < f.low + f.width
      · have : i - f.low < f.width := by omega
        simp [hi, h1, h2, this]
      · have : ¬ i - f.low < f.width := by omega
        simp [hi, h1, h2, this]
    · simp [hi, h1]
  · have h : ¬ (f.low ≤ i ∧ i < f.low + f.width) := by omega
    simp [hi, h, testBit_of_le w (Nat.le_of_not_lt hi)]

theorem read_write (f : BitField) (w : UInt32) {v : Nat} (h : v < f.values) :
    f.read (f.write w v) = v := by
  rw [values, Nat.one_shiftLeft] at h
  apply Nat.eq_of_testBit_eq
  intro i
  rw [testBit_read, testBit_write]
  by_cases hi : i < f.width
  · simp [hi]
  · have : v.testBit i = false :=
      Nat.testBit_lt_two_pow (Nat.lt_of_lt_of_le h (Nat.pow_le_pow_right (by decide) (by omega)))
    simp [hi, this]

/-- Writing one field leaves every other field alone. -/
theorem read_write_of_disjoint {f g : BitField} (h : f.Disjoint g) (w : UInt32) (v : Nat) :
    f.read (g.write w v) = f.read w := by
  apply Nat.eq_of_testBit_eq
  intro i
  rw [testBit_read, testBit_read, testBit_write]
  by_cases hi : i < f.width
  · have : ¬ (g.low ≤ f.low + i ∧ f.low + i < g.low + g.width) := by
      rcases h with h | h <;> omega
    simp [this]
  · simp [hi]

end BitField

end ConsoleMemory
