import ConsoleMemory.Decimal.Shortest

/-!
Numbers in decimal notation. A number without a point and an exponent that fits 64 bits is whole and
keeps all of its digits; every other number is a double. A double is read by at most 64 bits of its
digits and one scaling step after the other, and written by the fewest digits that stand for it.
-/

namespace ConsoleMemory.Decimal

inductive Number where
  | whole (n : Int)
  | double (bits : UInt64)
deriving DecidableEq, Repr

/-! ### Reading -/

/-- The digits read so far, with the power of ten they count. -/
structure Reading where
  significand : Nat
  exponent : Int
  /-- Whether a digit did not fit. -/
  full : Bool

def digitValue (c : Char) : Nat := c.toNat - '0'.toNat

namespace Reading

/-- Whether there is room for one more digit. -/
def fits (r : Reading) (c : Char) : Bool :=
  !r.full && r.significand * 10 + digitValue c < 0x10000000000000000

/-- One more digit before the point. -/
def whole (r : Reading) (c : Char) : Reading :=
  if r.fits c then { r with significand := r.significand * 10 + digitValue c }
  else { r with exponent := r.exponent + 1, full := true }

/-- One more digit behind the point. -/
def fraction (r : Reading) (c : Char) : Reading :=
  if r.fits c then ⟨r.significand * 10 + digitValue c, r.exponent - 1, false⟩
  else { r with full := true }

end Reading

/-- Scales by a power of ten, in steps of at most 308. -/
def scale : Nat → Float → Int → Float
  | 0, f, _ => f
  | steps + 1, f, exponent =>
    if 0 ≤ exponent then f * Float.ofScientific 1 false exponent.toNat
    else if -308 ≤ exponent then f / Float.ofScientific 1 false (-exponent).toNat
    else scale steps (f / Float.ofScientific 1 false 308) (exponent + 308)

/-- The value of some digits; nothing but digits is expected. -/
def natural (text : List Char) : Nat := text.foldl (fun n c => 10 * n + digitValue c) 0

def integer (text : List Char) : Int :=
  match text with
  | '-' :: digits => -natural digits
  | '+' :: digits => natural digits
  | digits => natural digits

/-- The number that a text spells, such as `-12`, `1.50` or `2e-7`. -/
def Number.read (text : String) : Number :=
  let negative := text.toList.head? == some '-'
  let unsigned := if negative then text.toList.tail else text.toList
  let before := unsigned.takeWhile Char.isDigit
  let rest := unsigned.dropWhile Char.isDigit
  let value := natural before
  if rest.isEmpty && !negative && value < 0x10000000000000000 then .whole value
  else if rest.isEmpty && negative && 0 < value && value ≤ 0x8000000000000000 then .whole (-value)
  else
    let behind := if rest.head? == some '.' then rest.tail.takeWhile Char.isDigit else []
    let exponent := (rest.dropWhile fun c => c == '.' || c.isDigit).tail
    let r := before.foldl Reading.whole ⟨0, 0, false⟩
    let r := behind.foldl Reading.fraction { r with full := false }
    let f := scale 8 (UInt64.ofNat r.significand).toFloat (r.exponent + integer exponent)
    .double (if negative then -f else f).toBits

/-! ### Writing -/

/-- Digits with a point: among them or in front of them for moderate exponents, otherwise behind the
first one, with an exponent. -/
def Digits.text (d : Digits) : String :=
  let digits := Nat.toDigits 10 d.digits
  let zeros (n : Int) := List.replicate n.toNat '0'
  let leading := d.exponent + digits.length - 1
  String.ofList <|
    if -5 ≤ leading ∧ leading ≤ 15 then
      if 0 ≤ d.exponent then digits ++ zeros d.exponent ++ ['.', '0']
      else if 0 ≤ leading then
        digits.take (leading.toNat + 1) ++ '.' :: digits.drop (leading.toNat + 1)
      else '0' :: '.' :: zeros (-leading - 1) ++ digits
    else
      let fraction := digits.drop 1
      digits.take 1 ++ (if fraction.isEmpty then [] else '.' :: fraction) ++
        ['e', if leading < 0 then '-' else '+'] ++ Nat.toDigits 10 leading.natAbs

def Number.text : Number → String
  | whole n => toString n
  | double bits =>
    let sign := if bits.toNat < 0x8000000000000000 then "" else "-"
    let span := Span.ofBits bits
    sign ++ if span.value = 0 then "0.0" else span.shortest.text

example : Digits.text ⟨15, -8⟩ = "1.5e-7" := by decide +kernel
example : Digits.text ⟨1, -5⟩ = "0.00001" := by decide +kernel
example : Digits.text ⟨1234, -2⟩ = "12.34" := by decide +kernel
example : Digits.text ⟨1, 16⟩ = "1e+16" := by decide +kernel
example : Number.text (.double 0x4059000000000000) = "100.0" := by decide +kernel

end ConsoleMemory.Decimal
