/-!
The fewest decimal digits that stand for a double. The numbers that are read as one and the same
double form an interval. On the grids of the powers of ten, from coarse to fine, the first grid with
a point in that interval next to the double gives its digits. All is done with whole numbers.
-/

namespace ConsoleMemory.Decimal

def power (base : Nat) : Nat → Nat
  | 0 => 1
  | n + 1 => base * power base n

/-- A positive double with the ends of its interval, all three counted in parts of which `Span.unit`
make one. -/
structure Span where
  value : Nat
  lower : Nat
  upper : Nat
  /-- Whether the ends are read as the double, too. -/
  closed : Bool
deriving DecidableEq, Repr

/-- Digits followed by as many zeros as `exponent` says, or shifted behind the point by it. -/
structure Digits where
  digits : Nat
  exponent : Int
deriving DecidableEq, Repr

namespace Span

/-- A quarter of the least distance between doubles is one part. -/
def unit : Nat := 1 <<< 1076

/-- The span of the double with the given bits, without regard to its sign. Below a power of two the
neighbour is only half as far away as above it. -/
def ofBits (bits : UInt64) : Span :=
  let exponent := (bits.toNat >>> 52) % 2048
  let fraction := bits.toNat % 0x10000000000000
  let mantissa := if exponent = 0 then fraction else 0x10000000000000 + fraction
  let shift := max exponent 1 - 1
  let gap := if fraction = 0 ∧ 1 < exponent then 1 else 2
  { value := (4 * mantissa) <<< shift
    lower := (4 * mantissa - gap) <<< shift
    upper := (4 * mantissa + 2) <<< shift
    closed := mantissa % 2 == 0 }

/-- The multiple of the power of ten `exponent` that lies in the interval next to the double. Of two
such multiples the nearer one counts, and the even one where both are equally near. -/
def multiple? (s : Span) (exponent : Int) : Option Nat :=
  let step := power 10 exponent.toNat * unit
  let finer := power 10 (-exponent).toNat
  let inside (n : Nat) : Bool :=
    if s.closed then s.lower * finer ≤ n * step && n * step ≤ s.upper * finer
    else s.lower * finer < n * step && n * step < s.upper * finer
  let below := s.value * finer / step
  let middle := (2 * below + 1) * step
  let value := 2 * s.value * finer
  match inside below, inside (below + 1) with
  | true, true =>
    if value < middle ∨ value = middle ∧ below % 2 = 0 then some below else some (below + 1)
  | true, false => some below
  | false, true => some (below + 1)
  | false, false => none

/-- An exponent whose power of ten is greater than the double, and not by much. -/
def magnitude (s : Span) : Int :=
  if unit ≤ s.value then (Nat.toDigits 10 (s.value / unit)).length
  else 2 - ((Nat.toDigits 10 (unit / s.value)).length : Int)

/-- The fewest digits; all digits in the case that none of the grids has fewer. -/
def shortest (s : Span) : Digits :=
  let found := (List.range 24).findSome? fun i : Nat =>
    let exponent := s.magnitude - i
    (s.multiple? exponent).map (Digits.mk · exponent)
  found.getD ⟨s.value * power 5 1076, -1076⟩

end Span

example : (Span.ofBits 0x3FB999999999999A).shortest = ⟨1, -1⟩ := by decide +kernel
example : (Span.ofBits 1).shortest = ⟨5, -324⟩ := by decide +kernel
example : (Span.ofBits 0x44B52D02C7E14AF6).shortest = ⟨1, 23⟩ := by decide +kernel
example : (Span.ofBits 0x3E60000000000000).shortest = ⟨29802322387695312, -24⟩ := by decide +kernel

end ConsoleMemory.Decimal
