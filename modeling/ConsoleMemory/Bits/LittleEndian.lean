/-!
Words stored as four bytes, the lowest byte first. `decode_encode` and `encode_decode` say that
words and groups of four bytes correspond.
-/

namespace ConsoleMemory.LittleEndian

/-- The number that a list of bytes spells, the lowest byte first. -/
def value : List UInt8 → Nat
  | [] => 0
  | b :: rest => b.toNat + 256 * value rest

/-- The word that four bytes spell. -/
def decode (bytes : List UInt8) : UInt32 := .ofNat (value bytes)

/-- Byte `i` of a word, counted from the lowest. -/
def byte (w : UInt32) (i : Nat) : UInt8 := .ofNat (w.toNat >>> (8 * i))

/-- The four bytes of a word. -/
def encode (w : UInt32) : List UInt8 := [byte w 0, byte w 1, byte w 2, byte w 3]

theorem length_encode (w : UInt32) : (encode w).length = 4 := rfl

theorem toNat_byte (w : UInt32) (i : Nat) : (byte w i).toNat = w.toNat >>> (8 * i) % 256 :=
  UInt8.toNat_ofNat'

theorem decode_encode (w : UInt32) : decode (encode w) = w := by
  apply UInt32.toNat_inj.1
  have := w.toNat_lt
  simp only [decode, encode, value, UInt32.toNat_ofNat', toNat_byte]
  omega

theorem encode_decode (a b c d : UInt8) : encode (decode [a, b, c, d]) = [a, b, c, d] := by
  have ha := a.toNat_lt
  have hb := b.toNat_lt
  have hc := c.toNat_lt
  have hd := d.toNat_lt
  simp only [encode, List.cons.injEq, and_true]
  refine ⟨?_, ?_, ?_, ?_⟩ <;>
  · apply UInt8.toNat_inj.1
    simp only [toNat_byte, decode, value, UInt32.toNat_ofNat']
    omega

example : encode 0xF067 = [0x67, 0xF0, 0, 0] := by decide +kernel

end ConsoleMemory.LittleEndian
