import ConsoleMemory.FreeList.Basic

/-!
Reading the blocks of a free list from both ends. A cursor counts the blocks that are still to come,
so the two ends never hand out the same block twice.
-/

namespace ConsoleMemory.FreeList

structure Cursor where
  front : Option Nat
  back : Option Nat
  remaining : Nat
deriving DecidableEq, Repr

/-- A cursor in front of all blocks. -/
def cursor (l : FreeList) : Cursor := ⟨l.chain.head, l.chain.tail, l.length⟩

/-- The block at `slot`, unless nothing remains. -/
def blockAt? (l : FreeList) (c : Cursor) (slot : Option Nat) : Option Block :=
  if c.remaining = 0 then none else slot.bind l.chain.item?

/-- Takes the next block from the front. -/
def takeFront (l : FreeList) (c : Cursor) : Option Block × Cursor :=
  match l.blockAt? c c.front with
  | some block =>
    (some block, { c with front := c.front.bind l.chain.next?, remaining := c.remaining - 1 })
  | none => (none, c)

/-- Takes the next block from the back. -/
def takeBack (l : FreeList) (c : Cursor) : Option Block × Cursor :=
  match l.blockAt? c c.back with
  | some block =>
    (some block, { c with back := c.back.bind l.chain.previous?, remaining := c.remaining - 1 })
  | none => (none, c)

end ConsoleMemory.FreeList
