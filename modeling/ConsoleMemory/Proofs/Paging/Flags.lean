import ConsoleMemory.Paging.Protection
import Mathlib.Tactic.Lemma

/-!
# Protections as sets of flags

A request without unknown bits is determined by the flags it holds. An entry that
grants a request is determined by five of its flags, which are read back one by one.
-/

namespace ConsoleMemory

namespace Protection

variable {p q : Protection} {f g : Flag} {flags : List Flag}

namespace Flag

lemma position_lt (f : Flag) : f.position < 11 := by cases f <;> decide

lemma position_injective (h : f.position = g.position) : f = g := by
  cases f <;> cases g <;> first | rfl | cases h

lemma exists_position {i : Nat} (h : i < 11) : ∃ f : Flag, f.position = i := by
  have all : ∀ j : Fin 11, ∃ f ∈ Flag.all, f.position = j := by decide
  obtain ⟨f, _, position⟩ := all ⟨i, h⟩
  exact ⟨f, position⟩

lemma testBit_mask (f : Flag) (i : Nat) : f.mask.testBit i = decide (f.position = i) := by
  rw [mask, Nat.one_shiftLeft, Nat.testBit_two_pow]

end Flag

lemma testBit_foldl_mask (bits i : Nat) :
    (flags.foldl (fun bits f => bits ||| f.mask) bits).testBit i =
      (bits.testBit i || flags.any fun f => decide (f.position = i)) := by
  induction flags generalizing bits with
  | nil => simp
  | cons f rest ih =>
    rw [List.foldl_cons, ih, Nat.testBit_or, Flag.testBit_mask, List.any_cons, Bool.or_assoc]

/-- The word of a set of flags has a bit for each of them. -/
lemma testBit_ofFlags (i : Nat) :
    (ofFlags flags).bits.toNat.testBit i = flags.any fun f => decide (f.position = i) := by
  rw [ofFlags, UInt32.toNat_ofNat', Nat.testBit_mod_two_pow, testBit_foldl_mask, Nat.zero_testBit,
    Bool.false_or]
  by_cases small : i < 32
  · simp [small]
  · have none : ∀ f : Flag, f.position ≠ i := fun f => by
      have := f.position_lt
      omega
    simp [small, none]

@[simp] lemma has_ofFlags : (ofFlags flags).has f = decide (f ∈ flags) := by
  rw [has, testBit_ofFlags, Bool.eq_iff_iff, List.any_eq_true, decide_eq_true_iff]
  constructor
  · rintro ⟨g, mem, same⟩
    rwa [← Flag.position_injective (of_decide_eq_true same)]
  · intro mem
    exact ⟨f, mem, decide_eq_true rfl⟩

lemma isKnown_iff_lt : p.isKnown = true ↔ p.bits.toNat < 0x800 := by
  rw [isKnown, unknownBits, beq_iff_eq, Nat.shiftRight_eq_div_pow, Nat.shiftLeft_eq]
  omega

/-- A word without unknown bits has none from the eleventh on. -/
lemma testBit_of_isKnown (known : p.isKnown = true) {i : Nat} (h : 11 ≤ i) :
    p.bits.toNat.testBit i = false :=
  Nat.testBit_lt_two_pow
    (Nat.lt_of_lt_of_le (isKnown_iff_lt.mp known) (Nat.pow_le_pow_right Nat.two_pos h))

lemma isKnown_ofFlags : (ofFlags flags).isKnown = true := by
  rw [isKnown_iff_lt]
  refine Nat.lt_pow_two_of_testBit (n := 11) _ fun i h => ?_
  rw [testBit_ofFlags, List.any_eq_false]
  intro f _ same
  have := f.position_lt
  have := of_decide_eq_true same
  omega

/-- Requests without unknown bits that hold the same flags are the same. -/
theorem ext_of_isKnown (hp : p.isKnown = true) (hq : q.isKnown = true)
    (same : ∀ f, p.has f = q.has f) : p = q := by
  rcases p with ⟨v⟩
  rcases q with ⟨w⟩
  refine congrArg Protection.mk (BitField.word_ext fun i => ?_)
  rcases Nat.lt_or_ge i 11 with small | large
  · obtain ⟨f, rfl⟩ := Flag.exists_position small
    exact same f
  · exact (testBit_of_isKnown hp large).trans (testBit_of_isKnown hq large).symm

end Protection

namespace Entry

variable (write valid guardPage cacheDisable writeThrough : Bool)

/-- An entry without a frame that has just the given flags of protection. -/
def granting : Entry :=
  Entry.zero
    |>.withFlag .write write
    |>.withFlag .valid valid
    |>.withFlag .guardPage guardPage
    |>.withFlag .cacheDisable cacheDisable
    |>.withFlag .writeThrough writeThrough

variable {write valid guardPage cacheDisable writeThrough : Bool}

/-- No other bit is set. -/
lemma protection_granting :
    (granting write valid guardPage cacheDisable writeThrough).protection =
      (granting write valid guardPage cacheDisable writeThrough).bits.toNat := by
  decide +revert

lemma has_granting (f : Flag) :
    (granting write valid guardPage cacheDisable writeThrough).has f =
      match f with
      | .write => write
      | .valid => valid
      | .guardPage => guardPage
      | .cacheDisable => cacheDisable
      | .writeThrough => writeThrough
      | _ => false := by
  have blank : ∀ g, Entry.zero.has g = false := by
    intro g
    cases g <;> decide
  cases f <;>
    simp only [granting, has_withFlag, has_withFlag_of_ne, blank, ne_eq, reduceCtorEq,
      not_false_eq_true]

end Entry

end ConsoleMemory
