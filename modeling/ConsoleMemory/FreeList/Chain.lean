/-!
A doubly linked list whose nodes live in an array and are linked by index. Slots of removed nodes
are kept aside and reused, the latest first. `forward` and `backward` list the linked slots from
either end; `Linked` says that the links describe one given order of slots.
-/

namespace ConsoleMemory

structure Chain.Node (α : Type) where
  item : α
  previous : Option Nat
  next : Option Nat
deriving DecidableEq, Repr

structure Chain (α : Type) where
  nodes : Array (Chain.Node α)
  /-- Slots that hold no linked node, the next one to reuse first. -/
  vacant : List Nat
  head : Option Nat
  tail : Option Nat
  size : Nat
deriving Repr

namespace Chain

variable {α : Type}

def empty : Chain α := ⟨#[], [], none, none, 0⟩

def item? (c : Chain α) (i : Nat) : Option α := c.nodes[i]?.map Node.item

def next? (c : Chain α) (i : Nat) : Option Nat := c.nodes[i]?.bind Node.next

def previous? (c : Chain α) (i : Nat) : Option Nat := c.nodes[i]?.bind Node.previous

/-- The slots met on a walk of at most `fuel` steps along `step`. -/
def walk (step : Nat → Option Nat) : Nat → Option Nat → List Nat
  | 0, _ => []
  | _ + 1, none => []
  | fuel + 1, some i => i :: walk step fuel (step i)

/-- The linked slots from head to tail. -/
def forward (c : Chain α) : List Nat := walk c.next? c.size c.head

/-- The linked slots from tail to head. -/
def backward (c : Chain α) : List Nat := walk c.previous? c.size c.tail

/-- The items from head to tail. -/
def toList (c : Chain α) : List α := c.forward.filterMap c.item?

def setNext (c : Chain α) (i : Nat) (next : Option Nat) : Chain α :=
  { c with nodes := c.nodes.modify i fun n => { n with next } }

def setPrevious (c : Chain α) (i : Nat) (previous : Option Nat) : Chain α :=
  { c with nodes := c.nodes.modify i fun n => { n with previous } }

def setItem (c : Chain α) (i : Nat) (item : α) : Chain α :=
  { c with nodes := c.nodes.modify i fun n => { n with item } }

/-- Makes `next` what follows `i`, the whole chain where `i` is none. -/
def linkForward (c : Chain α) (i next : Option Nat) : Chain α :=
  match i with
  | some i => c.setNext i next
  | none => { c with head := next }

/-- Makes `previous` what precedes `i`, the whole chain where `i` is none. -/
def linkBackward (c : Chain α) (i previous : Option Nat) : Chain α :=
  match i with
  | some i => c.setPrevious i previous
  | none => { c with tail := previous }

/-- Puts an unlinked node into a vacant slot, or into a new one. -/
def place (c : Chain α) (node : Node α) : Nat × Chain α :=
  match c.vacant with
  | i :: vacant => (i, { c with nodes := c.nodes.modify i fun _ => node, vacant })
  | [] => (c.nodes.size, { c with nodes := c.nodes.push node })

/-- Links a new item between the neighbours `previous` and `next`. -/
def insertBetween (c : Chain α) (previous next : Option Nat) (item : α) : Chain α :=
  let (i, c) := c.place ⟨item, previous, next⟩
  let c := (c.linkForward previous (some i)).linkBackward next (some i)
  { c with size := c.size + 1 }

def pushFront (c : Chain α) (item : α) : Chain α := c.insertBetween none c.head item

def insertAfter (c : Chain α) (i : Nat) (item : α) : Chain α :=
  c.insertBetween (some i) (c.next? i) item

/-- Takes a node out and keeps its slot for reuse. -/
def unlink (c : Chain α) (i : Nat) : Chain α :=
  let previous := c.previous? i
  let next := c.next? i
  let c := (c.linkForward previous next).linkBackward next previous
  { c with vacant := i :: c.vacant, size := c.size - 1 }

/-- `p` is met first, then the slots in order, each with its two neighbours; nothing follows. -/
def LinkedFrom (c : Chain α) (previous : Option Nat) : List Nat → Prop
  | [] => c.tail = previous
  | i :: rest =>
    c.previous? i = previous ∧ c.next? i = rest.head? ∧ i < c.nodes.size ∧
      c.LinkedFrom (some i) rest

/-- The links of the chain describe exactly the slots `order`; all others are vacant. -/
structure Linked (c : Chain α) (order : List Nat) : Prop where
  head_eq : c.head = order.head?
  links : c.LinkedFrom none order
  size_eq : c.size = order.length
  slots : (order ++ c.vacant).Perm (List.range c.nodes.size)

theorem linked_empty : (empty : Chain α).Linked [] := ⟨rfl, rfl, rfl, .refl _⟩

theorem walk_eq_of_linkedFrom {c : Chain α} {order : List Nat} {previous : Option Nat}
    (h : c.LinkedFrom previous order) :
    walk c.next? order.length order.head? = order := by
  induction order generalizing previous with
  | nil => rfl
  | cons i rest ih =>
    rw [List.length_cons, List.head?_cons, walk, h.2.1, ih h.2.2.2]

theorem Linked.forward_eq {c : Chain α} {order : List Nat} (h : c.Linked order) :
    c.forward = order := by
  rw [forward, h.size_eq, h.head_eq, walk_eq_of_linkedFrom h.links]

end Chain

end ConsoleMemory
