import ConsoleMemory.Abort
import ConsoleMemory.FreeList.Chain

/-!
The free pages, kept as a chain of maximal blocks in ascending order, and the two pools that account
for them. Pages at and above the debugger's boundary form a pool of their own; a run of pages is
charged to the pool of its first page. Pages are taken from the highest block that can serve a
request, at the highest place that the block allows.
-/

namespace ConsoleMemory

namespace Block

/-- Last page of the block. -/
def last (b : Block) : Except Abort Nat := do
  let pastEnd ← checkedAdd b.start b.size
  checkedSub pastEnd 1

end Block

/-- A run of `count` pages inside `[first, last]` whose first page is a multiple of `alignment`;
an alignment of zero asks for none. -/
structure PageRequest where
  count : Nat
  alignment : Nat := 0
  first : Nat
  last : Nat
deriving DecidableEq, Repr

namespace PageRequest

/-- The distance between two places that the request may be served at. -/
def step (r : PageRequest) : Nat := max r.alignment 1

/-- The count, rounded up to whole steps. -/
def rounded (r : PageRequest) : Nat := (r.count + (r.step - 1)) / r.step * r.step

/-- First page of the highest run of `b` that serves the request, a request for at least one page.
With a whole number of steps set aside below a multiple of the step, the first page is aligned. -/
def place? (r : PageRequest) (b : Block) : Except Abort (Option Nat) := do
  if b.size < r.count then
    return none
  let low := max b.start r.first
  let high := min (← b.last) r.last
  if high < low || high - low + 1 < r.count then
    return none
  let top := (high + 1) / r.step * r.step
  if top < low + r.rounded then
    return none
  return some (top - r.rounded)

end PageRequest

structure FreeList where
  chain : Chain Block
  /-- Pages of the whole memory. -/
  pageCount : Nat
  /-- First page of the debugger's pool, where there is one. -/
  boundary : Option Nat
  /-- Free pages charged to the general pool. -/
  general : Nat
  /-- Free pages charged to the debugger's pool. -/
  debugger : Nat
deriving Repr

namespace FreeList

/-- No free page, in a memory that ends with page `highest`. -/
def empty (highest : Nat) (boundary : Option Nat) : Except Abort FreeList := do
  let pageCount ← checkedAdd highest 1
  return ⟨.empty, pageCount, boundary, 0, 0⟩

/-- Every page of a memory that ends with page `highest`, as one block. -/
def full (highest : Nat) (boundary : Option Nat) : Except Abort FreeList := do
  let l ← empty highest boundary
  let general := min l.pageCount (boundary.getD l.pageCount)
  return { l with
    chain := l.chain.pushFront ⟨0, l.pageCount⟩
    general
    debugger := l.pageCount - general }

/-- The blocks in ascending order. -/
def blocks (l : FreeList) : List Block := l.chain.toList

/-- Number of blocks. -/
def length (l : FreeList) : Nat := l.chain.size

def isEmpty (l : FreeList) : Bool := l.length == 0

/-- The sum of the sizes of all blocks. -/
def freePages (l : FreeList) : Except Abort Nat :=
  l.blocks.foldlM (fun sum b => checkedAdd sum b.size) 0

instance : Membership Nat FreeList := ⟨fun l p => ∃ b ∈ l.blocks, p ∈ b⟩

/-- Whether a run that starts at page `p` is charged to the debugger's pool. -/
def isDebugger (l : FreeList) (p : Nat) : Bool := l.boundary.any (· ≤ p)

/-- Charges to the general pool `pages` pages that were charged to the debugger's. -/
def movePages (l : FreeList) (pages : Nat) : Except Abort FreeList := do
  require (pages ≤ l.debugger) (.fatal (.debuggerPoolShort pages l.debugger))
  return { l with
    debugger := l.debugger - pages
    general := ← checkedAdd l.general pages }

/-! ### Taking pages -/

/-- The first slot of `slots` whose block serves the request, with the block and the page at which
it does. -/
def search (l : FreeList) (r : PageRequest) : List Nat → Except Abort (Option (Nat × Block × Nat))
  | [] => return none
  | slot :: rest =>
    match l.chain.item? slot with
    | none => l.search r rest
    | some block => do
      match ← r.place? block with
      | none => l.search r rest
      | some page => return some (slot, block, page)

/-- The chain without the `count` pages from `page` on, which lie inside the block of `slot`. What
the block has below them stays in its slot. -/
def carve (c : Chain Block) (slot : Nat) (block : Block) (page count : Nat) : Chain Block :=
  let below := page - block.start
  let above := block.start + block.size - (page + count)
  let rest : Block := ⟨page + count, above⟩
  if 0 < below then
    let c := c.setItem slot ⟨block.start, below⟩
    if 0 < above then c.insertAfter slot rest else c
  else if 0 < above then
    c.setItem slot rest
  else
    c.unlink slot

/-- Takes `count` pages that start at `page` off their pool. -/
def discharge (l : FreeList) (page count : Nat) : Except Abort FreeList := do
  if l.isDebugger page then
    return { l with debugger := ← checkedSub l.debugger count }
  else
    return { l with general := ← checkedSub l.general count }

/-- Takes the pages of a request. Gives their first page, or none where no block can serve the
request; a request for no pages is never served. -/
def remove (l : FreeList) (r : PageRequest) : Except Abort (Option Nat × FreeList) := do
  if r.count = 0 then
    return (none, l)
  require (r.alignment == 0 || isPowerOfTwo r.alignment) .assertion
  if 0x100000000 ≤ r.count + (r.step - 1) then
    return (none, l)
  match ← l.search r l.chain.backward with
  | none => return (none, l)
  | some (slot, block, page) =>
    let l := { l with chain := carve l.chain slot block page r.count }
    return (some page, ← l.discharge page r.count)

/-! ### Returning pages -/

/-- The chain with the pages `[first, last]` added between two neighbours, joined with each that
they touch. -/
def join (c : Chain Block) (before after : Option (Nat × Block)) (first last : Nat) :
    Except Abort (Chain Block) := do
  let size := last - first + 1
  let after? := after.filter fun (_, b) => b.start == last + 1
  let before? := before.filter fun (_, b) => b.start + b.size == first
  match before?, after? with
  | some (i, b), some (j, d) =>
    let size ← checkedAdd (← checkedAdd b.size size) d.size
    return (c.setItem i ⟨b.start, size⟩).unlink j
  | some (i, b), none => return c.setItem i ⟨b.start, ← checkedAdd b.size size⟩
  | none, some (j, d) => return c.setItem j ⟨first, ← checkedAdd d.size size⟩
  | none, none =>
    match before with
    | some (i, _) => return c.insertAfter i ⟨first, size⟩
    | none => return c.pushFront ⟨first, size⟩

/-- Charges `count` pages that start at `page` to their pool, which must have room for them. -/
def charge (l : FreeList) (page count : Nat) : Except Abort FreeList := do
  let l ← if l.isDebugger page then
      pure { l with debugger := ← checkedAdd l.debugger count }
    else
      pure { l with general := ← checkedAdd l.general count }
  require (l.general ≤ l.pageCount) (.refused (.generalPoolOverflow l.general))
  match l.boundary with
  | some boundary =>
    require (l.debugger ≤ l.pageCount - boundary) (.refused (.debuggerPoolOverflow l.debugger))
  | none => pure ()
  return l

/-- The slot with its block. -/
def slotBlock? (c : Chain Block) (slot : Nat) : Option (Nat × Block) := (c.item? slot).map (slot, ·)

/-- The highest block that starts below page `first`, with its slot. -/
def before? (c : Chain Block) (first : Nat) : Option (Nat × Block) :=
  (c.backward.filterMap (slotBlock? c)).find? fun (_, b) => b.start < first

/-- Returns the pages `[first, last]`, none of which may be free already. -/
def insert (l : FreeList) (first last : Nat) : Except Abort FreeList := do
  require (first ≤ last) (.refused (.invertedRange first last))
  let size ← checkedAdd (last - first) 1
  let before := before? l.chain first
  let after := match before with
    | some (slot, _) => (l.chain.next? slot).bind (slotBlock? l.chain)
    | none => l.chain.head.bind (slotBlock? l.chain)
  if let some (_, b) := before then
    require ((← b.last) < first) (.fatal (.doubleFree first last b))
  if let some (_, b) := after then
    require (last < b.start) (.fatal (.doubleFree first last b))
  let chain ← join l.chain before after first last
  { l with chain }.charge first size

end FreeList

end ConsoleMemory
