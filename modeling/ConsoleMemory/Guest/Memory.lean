import ConsoleMemory.Guest.PageWalk
import ConsoleMemory.Guest.Tlb

/-!
Memory as a program sees it: installed memory together with the remembered translations. A virtual
access is cut at page boundaries into pieces, which are carried out in order; the first piece that
faults ends the access, and what the pieces before it did stays done. An access that passes the end
of the address space goes on at its start.
-/

namespace ConsoleMemory

structure GuestMemory where
  ram : Ram
  tlb : Tlb

namespace GuestMemory

/-- Cleared memory of the given size in which nothing is remembered. -/
def create (size : UInt32) (tlb : Tlb) : Except Abort GuestMemory := do
  return ⟨← Ram.create size, tlb⟩

/-- The place in memory of the byte at `va`, from what is remembered or else from the tables; a walk
that succeeds is remembered. -/
def locate (m : GuestMemory) (va : VirtualAddress) : Walk (PhysicalAddress × GuestMemory) :=
  match m.tlb.find? (va.pageNumber .small) with
  | some place => return (place + va.offset .small, m)
  | none => do
    let place ← m.ram.translate va
    let tlb := m.tlb.remember (va.pageNumber .small) (place.alignDown .small)
    return (place, { m with tlb })

/-- How much of an access of `length` bytes at `va` lies in the page of `va`. -/
def pieceLength (va : VirtualAddress) (length : Nat) : Nat :=
  min (MemoryMap.pageBytes - va.offset .small) length

/-- What reading gives: the bytes before the first fault, and the fault. -/
structure Loaded where
  bytes : List UInt8
  fault : Option PageFault
  memory : GuestMemory

/-- What writing gives: the fault that ended it, and memory as it is then. -/
structure Stored where
  fault : Option PageFault
  memory : GuestMemory

/-- Reads `length` bytes at `va` in at most `pieces` pieces. -/
def readPieces : Nat → GuestMemory → VirtualAddress → Nat → Except Abort Loaded
  | 0, m, _, _ => .ok ⟨[], none, m⟩
  | _ + 1, m, _, 0 => .ok ⟨[], none, m⟩
  | pieces + 1, m, va, length@(_ + 1) => do
    match ← (m.locate va).run with
    | .error fault => return ⟨[], some fault, m⟩
    | .ok (place, m) =>
      let n := pieceLength va length
      let bytes ← m.ram.read place n
      let rest ← readPieces pieces m (va + n) (length - n)
      return { rest with bytes := bytes ++ rest.bytes }

/-- Writes bytes at `va` in at most `pieces` pieces. -/
def writePieces : Nat → GuestMemory → VirtualAddress → List UInt8 → Except Abort Stored
  | 0, m, _, _ => .ok ⟨none, m⟩
  | _ + 1, m, _, [] => .ok ⟨none, m⟩
  | pieces + 1, m, va, bytes@(_ :: _) => do
    match ← (m.locate va).run with
    | .error fault => return ⟨some fault, m⟩
    | .ok (place, m) =>
      let n := pieceLength va bytes.length
      let ram ← m.ram.write place (bytes.take n)
      writePieces pieces { m with ram } (va + n) (bytes.drop n)

def read (m : GuestMemory) (va : VirtualAddress) (length : Nat) : Except Abort Loaded :=
  readPieces length m va length

def write (m : GuestMemory) (va : VirtualAddress) (bytes : List UInt8) : Except Abort Stored :=
  writePieces bytes.length m va bytes

/-- The word at `va`, or the fault met in reading it. -/
def readWord (m : GuestMemory) (va : VirtualAddress) :
    Except Abort (Except PageFault UInt32 × GuestMemory) := do
  let loaded ← m.read va 4
  match loaded.fault with
  | some fault => return (.error fault, loaded.memory)
  | none => return (.ok (LittleEndian.decode loaded.bytes), loaded.memory)

def writeWord (m : GuestMemory) (va : VirtualAddress) (w : UInt32) : Except Abort Stored :=
  m.write va (LittleEndian.encode w)

/-- Forgets the translations of the pages of `[first, last]`. -/
def flush (m : GuestMemory) (first last : VirtualAddress) : GuestMemory :=
  { m with tlb := m.tlb.flush (first.pageNumber .small) (last.pageNumber .small) }

/-! ### Access by place in memory -/

def clearRam (m : GuestMemory) (a : PhysicalAddress) (length : Nat) :
    Except Abort GuestMemory := do
  return { m with ram := ← m.ram.clear a length }

def writeRam (m : GuestMemory) (a : PhysicalAddress) (bytes : List UInt8) :
    Except Abort GuestMemory := do
  return { m with ram := ← m.ram.write a bytes }

def writeRamWord (m : GuestMemory) (a : PhysicalAddress) (w : UInt32) :
    Except Abort GuestMemory :=
  m.writeRam a (LittleEndian.encode w)

theorem pieceLength_pos (va : VirtualAddress) {length : Nat} (h : 0 < length) :
    0 < pieceLength va length := by
  have : va.offset .small < MemoryMap.pageBytes := Nat.mod_lt _ (by decide)
  simp only [pieceLength]
  omega

end GuestMemory

end ConsoleMemory
