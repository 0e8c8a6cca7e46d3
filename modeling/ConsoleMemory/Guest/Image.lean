/-!
The bytes of a memory as a binary tree over addresses, the highest address bit at the root. A part
of memory whose bytes are all equal needs no nodes below it, so clearing a range costs no more than
walking to its two ends. `get_set` and `get_fill` say what a change does to every byte.
-/

namespace ConsoleMemory

inductive Image where
  /-- Every byte is `b`. -/
  | uniform (b : UInt8)
  | node (lower upper : Image)
deriving DecidableEq, Repr

namespace Image

def lower : Image → Image
  | uniform b => uniform b
  | node l _ => l

def upper : Image → Image
  | uniform b => uniform b
  | node _ u => u

/-- How many bytes an image of depth `d` has. -/
def span (d : Nat) : Nat := 1 <<< d

/-- Byte at the `d` low bits of `i`, in an image of depth `d`. -/
def get : Nat → Image → Nat → UInt8
  | _, uniform b, _ => b
  | 0, node _ _, _ => 0
  | d + 1, node l u, i => if i.testBit d then get d u i else get d l i

/-- The image with `v` at the `d` low bits of `i`. -/
def set : Nat → Image → Nat → UInt8 → Image
  | 0, _, _, v => uniform v
  | d + 1, t, i, v =>
    if i.testBit d then node t.lower (set d t.upper i v) else node (set d t.lower i v) t.upper

/-- The image with `v` at every position `p` with `first ≤ p < past`. -/
def fill : Nat → Image → Nat → Nat → UInt8 → Image
  | 0, t, first, past, v => if first = 0 ∧ 0 < past then uniform v else t
  | d + 1, t, first, past, v =>
    if past ≤ first then t
    else if first = 0 ∧ span (d + 1) ≤ past then uniform v
    else node (fill d t.lower first (min past (span d)) v)
      (fill d t.upper (first - span d) (past - span d) v)

theorem span_pos (d : Nat) : 0 < span d := by
  rw [span, Nat.one_shiftLeft]
  exact Nat.two_pow_pos d

theorem span_succ (d : Nat) : span (d + 1) = 2 * span d := by
  rw [span, span, Nat.one_shiftLeft, Nat.one_shiftLeft, Nat.pow_succ']

/-- One more low bit of a number. -/
theorem mod_span_succ (i d : Nat) :
    i % span (d + 1) = i % span d + span d * (i.testBit d).toNat := by
  rw [span, span, Nat.one_shiftLeft, Nat.one_shiftLeft, Nat.mod_pow_succ, Nat.toNat_testBit]

theorem get_lower_upper (d : Nat) (t : Image) (i : Nat) :
    get (d + 1) t i = if i.testBit d then get d t.upper i else get d t.lower i := by
  cases t with
  | uniform b => cases d <;> simp [get, lower, upper]
  | node l u => rfl

theorem get_set (d : Nat) (t : Image) (i j : Nat) (v : UInt8) :
    get d (set d t i v) j = if i % span d = j % span d then v else get d t j := by
  induction d generalizing t with
  | zero => simp [set, get, span, Nat.mod_one]
  | succ d ih =>
    have hi := Nat.mod_lt i (span_pos d)
    have hj := Nat.mod_lt j (span_pos d)
    rw [get_lower_upper d t, mod_span_succ, mod_span_succ]
    unfold set
    cases i.testBit d <;> cases h : j.testBit d <;>
      simp only [get, h, ih, Bool.toNat_true, Bool.toNat_false, Bool.false_eq_true, ite_true,
        ite_false, Nat.mul_one, Nat.mul_zero, Nat.add_zero, Nat.add_right_cancel_iff]
    all_goals
      split <;> try rfl
      omega

theorem get_fill (d : Nat) (t : Image) (first past i : Nat) (v : UInt8) :
    get d (fill d t first past v) i =
      if first ≤ i % span d ∧ i % span d < past then v else get d t i := by
  induction d generalizing t first past with
  | zero =>
    simp only [fill, span, Nat.shiftLeft_zero, Nat.mod_one]
    by_cases h : first = 0 ∧ 0 < past
    · simp [h, get]
    · have : ¬ (first ≤ 0 ∧ 0 < past) := by omega
      simp [h]
  | succ d ih =>
    have hi := Nat.mod_lt i (span_pos d)
    have hp := span_succ d
    have hm : i % span (d + 1) < span (d + 1) := Nat.mod_lt i (span_pos _)
    unfold fill
    split
    · rw [if_neg (by omega)]
    · split
      · rw [if_pos (by omega)]
        simp [get]
      · rw [get_lower_upper d t, mod_span_succ]
        cases h : i.testBit d <;>
          simp only [get, h, ih, Bool.toNat_true, Bool.toNat_false, Bool.false_eq_true, ite_true,
            ite_false, Nat.mul_one, Nat.mul_zero, Nat.add_zero]
        · have : (first ≤ i % span d ∧ i % span d < min past (span d)) ↔
              (first ≤ i % span d ∧ i % span d < past) := by omega
          simp only [this]
        · have : (first - span d ≤ i % span d ∧ i % span d < past - span d) ↔
              (first ≤ i % span d + span d ∧ i % span d + span d < past) := by omega
          simp only [this]

end Image

end ConsoleMemory
