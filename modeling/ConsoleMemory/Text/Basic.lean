/-!
Blanks and numbers in text. Blanks are the characters with the Unicode property White_Space, of
which core's own test knows four only. Upper-case digits in base sixteen serve addresses, page frame
numbers and sizes, lower-case digits words that have no name.
-/

namespace ConsoleMemory.Text

/-! ### Blanks -/

/-- The first and the last character of each run of blanks, in ascending order. -/
def blankRuns : List (Nat × Nat) :=
  [(0x09, 0x0D), (0x20, 0x20), (0x85, 0x85), (0xA0, 0xA0), (0x1680, 0x1680), (0x2000, 0x200A),
    (0x2028, 0x2029), (0x202F, 0x202F), (0x205F, 0x205F), (0x3000, 0x3000)]

def isBlank (c : Char) : Bool :=
  blankRuns.any fun (first, last) => first ≤ c.toNat && c.toNat ≤ last

example : (blankRuns.map fun (first, last) => last + 1 - first).sum = 25 := by decide
example : isBlank '\u000B' = true ∧ isBlank '\u200B' = false := by decide

/-! ### Reading numbers -/

/-- The value of a digit; letters are digits beyond nine. -/
def digitValue (c : Char) : Nat :=
  if c.isDigit then c.toNat - '0'.toNat
  else if c.isLower then c.toNat - 'a'.toNat + 10
  else c.toNat - 'A'.toNat + 10

/-- The number that some digits stand for, the most significant one first. A low line between digits
counts for nothing. -/
def valueIn (base : Nat) (digits : List Char) : Nat :=
  (digits.filter (· != '_')).foldl (fun n c => base * n + digitValue c) 0

example : valueIn 16 "1F_a".toList = 0x1FA := by decide +kernel
example : valueIn 10 "0_10".toList = 10 := by decide +kernel

/-! ### Writing numbers -/

/-- Digits of `n`, the most significant first, with zeros in front up to `width`. -/
def digits (width n : Nat) : List Char :=
  let ds := Nat.toDigits 16 n
  List.replicate (width - ds.length) '0' ++ ds

/-- Lower-case form such as `0x800`. -/
def lowerHex (n : Nat) : String :=
  "0x" ++ String.ofList (digits 0 n)

/-- Upper-case form such as `0x00000FFF`, with at least `width` digits. -/
def hex (width n : Nat) : String :=
  "0x" ++ String.ofList ((digits width n).map Char.toUpper)

example : hex 0 0x3FDF = "0x3FDF" := by decide +kernel
example : hex 8 0xFFF = "0x00000FFF" := by decide +kernel
example : lowerHex 0x80A = "0x80a" := by decide +kernel

end ConsoleMemory.Text
