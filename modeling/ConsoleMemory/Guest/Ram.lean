import ConsoleMemory.Abort
import ConsoleMemory.Bits.LittleEndian
import ConsoleMemory.Guest.Image

/-!
Installed memory: a whole number of pages, reached by its own addresses. An access that does not lie
inside is fatal. Memory answers at its own place and again behind three windows of the physical
address space; `resolve` finds the place behind an address.
-/

namespace ConsoleMemory

structure Ram where
  size : Nat
  image : Image
  pos : 0 < size
  wholePages : size % MemoryMap.pageBytes = 0
  bounded : size < 0x100000000

namespace Ram

/-- Cleared memory of the given size. -/
def create (size : UInt32) : Except Abort Ram :=
  if h : 0 < size.toNat ∧ size.toNat % MemoryMap.pageBytes = 0 then
    .ok ⟨size.toNat, .uniform 0, h.1, h.2, size.toNat_lt⟩
  else
    .error (.refused (.partialPages size.toNat))

def byteAt (r : Ram) (a : Nat) : UInt8 := r.image.get 32 a

/-- The bytes `[a, a + length)`. -/
def slice (r : Ram) (a length : Nat) : List UInt8 := (List.range' a length).map r.byteAt

/-- The image with a list of bytes from `a` on. -/
def store (t : Image) : Nat → List UInt8 → Image
  | _, [] => t
  | a, b :: rest => store (t.set 32 a b) (a + 1) rest

/-- The bytes `[a, a + length)` are installed. -/
def holds (r : Ram) (a : PhysicalAddress) (length : Nat) : Bool := a.toNat + length ≤ r.size

def requireInside (r : Ram) (a : PhysicalAddress) (length : Nat) : Except Abort Unit :=
  require (r.holds a length) (.fatal (.outsideRam length a r.size))

def read (r : Ram) (a : PhysicalAddress) (length : Nat) : Except Abort (List UInt8) := do
  r.requireInside a length
  return r.slice a.toNat length

def write (r : Ram) (a : PhysicalAddress) (bytes : List UInt8) : Except Abort Ram := do
  r.requireInside a bytes.length
  return { r with image := store r.image a.toNat bytes }

/-- Clears the bytes `[a, a + length)`. -/
def clear (r : Ram) (a : PhysicalAddress) (length : Nat) : Except Abort Ram := do
  r.requireInside a length
  return { r with image := r.image.fill 32 a.toNat (a.toNat + length) 0 }

def readWord (r : Ram) (a : PhysicalAddress) : Except Abort UInt32 := do
  return LittleEndian.decode (← r.read a 4)

def writeWord (r : Ram) (a : PhysicalAddress) (w : UInt32) : Except Abort Ram :=
  r.write a (LittleEndian.encode w)

/-- The place in memory behind a physical address: the address itself, or its distance from the
start of the contiguous, write-combined or uncached window it lies in. -/
def resolve (r : Ram) (a : PhysicalAddress) : Option PhysicalAddress :=
  let start :=
    if MemoryMap.uncachedBase ≤ a.toNat then MemoryMap.uncachedBase
    else if MemoryMap.writeCombinedBase ≤ a.toNat then MemoryMap.writeCombinedBase
    else if MemoryMap.contiguousBase ≤ a.toNat then MemoryMap.contiguousBase
    else 0
  if a.toNat - start < r.size then some (.ofNat (a.toNat - start)) else none

theorem mod_span_of_lt {i : Nat} (hi : i < 0x100000000) : i % Image.span 32 = i :=
  Nat.mod_eq_of_lt hi

theorem get_store (t : Image) (a : Nat) (bytes : List UInt8) (i : Nat) (hi : i < 0x100000000)
    (fits : a + bytes.length ≤ 0x100000000) :
    (store t a bytes).get 32 i =
      if h : a ≤ i ∧ i < a + bytes.length then bytes.get ⟨i - a, by omega⟩ else t.get 32 i := by
  induction bytes generalizing t a with
  | nil =>
    have : ¬ (a ≤ i ∧ i < a + ([] : List UInt8).length) := by simp
    rw [dif_neg this]
    rfl
  | cons b rest ih =>
    rw [List.length_cons] at fits
    rw [store, ih _ _ (by omega), Image.get_set, mod_span_of_lt hi,
      mod_span_of_lt (by omega : a < 0x100000000)]
    simp only [List.length_cons]
    by_cases h : a = i
    · subst h
      rw [dif_neg (by omega), dif_pos (by omega), if_pos rfl]
      simp
    · by_cases h' : a + 1 ≤ i ∧ i < a + 1 + rest.length
      · rw [dif_pos h', dif_pos (by omega)]
        simp only [List.get_eq_getElem]
        rw [List.getElem_cons, dif_neg (by omega)]
        simp only [Nat.sub_sub]
      · rw [dif_neg h', dif_neg (by omega), if_neg h]

/-- What a write leaves in memory. -/
theorem byteAt_write {r s : Ram} {a : PhysicalAddress} {bytes : List UInt8}
    (h : r.write a bytes = .ok s) {i : Nat} (hi : i < 0x100000000) :
    s.byteAt i =
      if h : a.toNat ≤ i ∧ i < a.toNat + bytes.length then bytes.get ⟨i - a.toNat, by omega⟩
      else r.byteAt i := by
  obtain ⟨inside, h⟩ := require_bind_eq_ok.1 h
  cases h
  have := r.bounded
  have := of_decide_eq_true inside
  exact get_store r.image a.toNat bytes i hi (by omega)

/-- What clearing leaves in memory. -/
theorem byteAt_clear {r s : Ram} {a : PhysicalAddress} {length : Nat}
    (h : r.clear a length = .ok s) {i : Nat} (hi : i < 0x100000000) :
    s.byteAt i = if a.toNat ≤ i ∧ i < a.toNat + length then 0 else r.byteAt i := by
  obtain ⟨_, h⟩ := require_bind_eq_ok.1 h
  cases h
  simp only [byteAt, Image.get_fill, mod_span_of_lt hi]

end Ram

end ConsoleMemory
