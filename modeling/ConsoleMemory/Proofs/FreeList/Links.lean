import ConsoleMemory.FreeList.Chain
import Mathlib.Data.List.Induction
import Mathlib.Data.List.Nodup
import Mathlib.Tactic.Lemma

/-!
# Linking and unlinking nodes

The order of a linked chain is cut into segments, each with what precedes and
what follows it. A node is put between two segments, or taken out between
them, by editing only the ends that meet there; vacant slots keep their stale
links and are never followed.
-/

namespace ConsoleMemory.Chain

variable {α : Type} {c : Chain α}

/-- The slots follow each other, after `previous` and before `next`. -/
def Segment (c : Chain α) : Option Nat → List Nat → Option Nat → Prop
  | _, [], _ => True
  | previous, i :: rest, next =>
    c.previous? i = previous ∧ c.next? i = rest.head?.or next ∧ c.Segment (some i) rest next

lemma segment_append {previous next : Option Nat} {xs ys : List Nat} :
    c.Segment previous (xs ++ ys) next ↔
      c.Segment previous xs (ys.head?.or next) ∧ c.Segment (xs.getLast?.or previous) ys next := by
  induction xs generalizing previous with
  | nil => simp [Segment]
  | cons x xs ih =>
    have last : (x :: xs).getLast?.or previous = xs.getLast?.or (some x) := by
      cases xs with
      | nil => rfl
      | cons y ys => simp [List.getLast?_cons]
    rw [List.cons_append, Segment, Segment, ih, last, List.head?_append, Option.or_assoc]
    simp only [and_assoc]

lemma Segment.congr {d : Chain α} {previous next : Option Nat} {order : List Nat}
    (h : c.Segment previous order next)
    (same : ∀ i ∈ order, d.previous? i = c.previous? i ∧ d.next? i = c.next? i) :
    d.Segment previous order next := by
  induction order generalizing previous with
  | nil => trivial
  | cons i rest ih =>
    obtain ⟨hp, hn, hrest⟩ := h
    have hi := same i List.mem_cons_self
    exact ⟨hi.1.trans hp, hi.2.trans hn,
      ih hrest fun j hj => same j (List.mem_cons_of_mem i hj)⟩

lemma linkedFrom_iff {previous : Option Nat} {order : List Nat} :
    c.LinkedFrom previous order ↔
      c.Segment previous order none ∧ c.tail = order.getLast?.or previous ∧
        ∀ i ∈ order, i < c.nodes.size := by
  induction order generalizing previous with
  | nil => simp [LinkedFrom, Segment]
  | cons i rest ih =>
    have last : (i :: rest).getLast?.or previous = rest.getLast?.or (some i) := by
      cases rest with
      | nil => rfl
      | cons y ys => simp [List.getLast?_cons]
    rw [LinkedFrom, Segment, ih, last, Option.or_none]
    simp only [List.forall_mem_cons]
    tauto

theorem linked_iff {order : List Nat} :
    c.Linked order ↔
      c.head = order.head? ∧ c.tail = order.getLast? ∧ c.Segment none order none ∧
        c.size = order.length ∧ (order ++ c.vacant).Perm (List.range c.nodes.size) := by
  constructor
  · rintro ⟨head, links, size, slots⟩
    obtain ⟨segment, tail, _⟩ := linkedFrom_iff.mp links
    exact ⟨head, by simpa using tail, segment, size, slots⟩
  · rintro ⟨head, tail, segment, size, slots⟩
    refine ⟨head, linkedFrom_iff.mpr ⟨segment, by simpa using tail, ?_⟩, size, slots⟩
    intro i hi
    exact List.mem_range.mp (slots.mem_iff.mp (List.mem_append_left _ hi))

lemma Linked.nodup {order : List Nat} (h : c.Linked order) : (order ++ c.vacant).Nodup :=
  h.slots.nodup_iff.mpr List.nodup_range

lemma Linked.lt_size {order : List Nat} (h : c.Linked order) {i : Nat} (hi : i ∈ order) :
    i < c.nodes.size :=
  List.mem_range.mp (h.slots.mem_iff.mp (List.mem_append_left _ hi))

/-! ### What an edit of one node changes -/

section Edits
variable {i j : Nat} {link : Option Nat} {item : α}

/-- An edit is not seen by a reading of the nodes that it leaves alone. -/
lemma bind_modify {β : Type} {nodes : Array (Node α)} {edit : Node α → Node α}
    {read : Node α → Option β} (same : ∀ n, read (edit n) = read n) :
    (nodes.modify i edit)[j]?.bind read = nodes[j]?.bind read := by
  rw [Array.getElem?_modify]
  split
  · cases nodes[j]? with
    | none => rfl
    | some n => exact same n
  · rfl

@[simp] lemma previous?_setNext : (c.setNext i link).previous? j = c.previous? j :=
  bind_modify fun _ => rfl

@[simp] lemma next?_setPrevious : (c.setPrevious i link).next? j = c.next? j :=
  bind_modify fun _ => rfl

@[simp] lemma next?_setItem : (c.setItem i item).next? j = c.next? j :=
  bind_modify fun _ => rfl

@[simp] lemma previous?_setItem : (c.setItem i item).previous? j = c.previous? j :=
  bind_modify fun _ => rfl

@[simp] lemma item?_setNext : (c.setNext i link).item? j = c.item? j := by
  simp only [item?, Option.map_eq_bind]
  exact bind_modify fun _ => rfl

@[simp] lemma item?_setPrevious : (c.setPrevious i link).item? j = c.item? j := by
  simp only [item?, Option.map_eq_bind]
  exact bind_modify fun _ => rfl

lemma next?_setNext_self (h : i < c.nodes.size) : (c.setNext i link).next? i = link := by
  simp [setNext, next?, Array.getElem_modify, h]

lemma next?_setNext_of_ne (h : i ≠ j) : (c.setNext i link).next? j = c.next? j := by
  simp [setNext, next?, Array.getElem?_modify, h]

lemma previous?_setPrevious_self (h : i < c.nodes.size) :
    (c.setPrevious i link).previous? i = link := by
  simp [setPrevious, previous?, Array.getElem_modify, h]

lemma previous?_setPrevious_of_ne (h : i ≠ j) :
    (c.setPrevious i link).previous? j = c.previous? j := by
  simp [setPrevious, previous?, Array.getElem?_modify, h]

lemma item?_setItem_self (h : i < c.nodes.size) : (c.setItem i item).item? i = some item := by
  simp [setItem, item?, Array.getElem_modify, h]

lemma item?_setItem_of_ne (h : i ≠ j) : (c.setItem i item).item? j = c.item? j := by
  simp [setItem, item?, Array.getElem?_modify, h]

end Edits

theorem Linked.setItem {order : List Nat} (h : c.Linked order) (i : Nat) (item : α) :
    (c.setItem i item).Linked order := by
  obtain ⟨head, tail, segment, size, slots⟩ := linked_iff.mp h
  refine linked_iff.mpr ⟨head, tail, segment.congr fun j _ => ⟨by simp, by simp⟩, size, ?_⟩
  simpa [Chain.setItem] using slots

/-! ### Ends that meet -/

section Ends
variable {previous next link : Option Nat} {order : List Nat}

@[simp] lemma item?_linkForward (i : Option Nat) (j : Nat) :
    (c.linkForward i link).item? j = c.item? j := by
  cases i with
  | none => rfl
  | some i => exact item?_setNext

@[simp] lemma item?_linkBackward (i : Option Nat) (j : Nat) :
    (c.linkBackward i link).item? j = c.item? j := by
  cases i with
  | none => rfl
  | some i => exact item?_setPrevious

/-- Links may change at the ends only: everything else of the chain stays. -/
lemma shape_linkForward (c : Chain α) (i link : Option Nat) :
    (c.linkForward i link).tail = c.tail ∧ (c.linkForward i link).size = c.size ∧
      (c.linkForward i link).vacant = c.vacant ∧
      (c.linkForward i link).nodes.size = c.nodes.size := by
  cases i with
  | none => exact ⟨rfl, rfl, rfl, rfl⟩
  | some i => exact ⟨rfl, rfl, rfl, Array.size_modify⟩

lemma shape_linkBackward (c : Chain α) (i link : Option Nat) :
    (c.linkBackward i link).head = c.head ∧ (c.linkBackward i link).size = c.size ∧
      (c.linkBackward i link).vacant = c.vacant ∧
      (c.linkBackward i link).nodes.size = c.nodes.size := by
  cases i with
  | none => exact ⟨rfl, rfl, rfl, rfl⟩
  | some i => exact ⟨rfl, rfl, rfl, Array.size_modify⟩

lemma Segment.linkForward_of_notMem (h : c.Segment previous order next) {i : Option Nat}
    (apart : ∀ x ∈ i, x ∉ order) : (c.linkForward i link).Segment previous order next := by
  cases i with
  | none => exact h.congr fun _ _ => ⟨rfl, rfl⟩
  | some i =>
    refine h.congr fun j hj => ⟨previous?_setNext, next?_setNext_of_ne ?_⟩
    rintro rfl
    exact apart i rfl hj

lemma Segment.linkBackward_of_notMem (h : c.Segment previous order next) {i : Option Nat}
    (apart : ∀ x ∈ i, x ∉ order) : (c.linkBackward i link).Segment previous order next := by
  cases i with
  | none => exact h.congr fun _ _ => ⟨rfl, rfl⟩
  | some i =>
    refine h.congr fun j hj => ⟨previous?_setPrevious_of_ne ?_, next?_setPrevious⟩
    rintro rfl
    exact apart i rfl hj

/-- What follows a segment is written into its last node. -/
lemma Segment.linkForward (h : c.Segment previous order next) (nodup : order.Nodup)
    (inside : ∀ i ∈ order, i < c.nodes.size) :
    (c.linkForward order.getLast? link).Segment previous order link := by
  rcases List.eq_nil_or_concat order with rfl | ⟨rest, x, rfl⟩
  · trivial
  rw [List.concat_eq_append] at *
  have fresh : x ∉ rest := fun hx =>
    (List.nodup_append.mp nodup).2.2 x hx x List.mem_cons_self rfl
  have hx : x < c.nodes.size := inside x (List.mem_append_right _ List.mem_cons_self)
  obtain ⟨hrest, hp, _, _⟩ := segment_append.mp h
  rw [List.getLast?_append, List.getLast?_singleton, Option.some_or]
  refine segment_append.mpr ⟨?_, ?_, ?_, trivial⟩
  · refine Segment.linkForward_of_notMem hrest ?_
    rintro y ⟨⟩
    exact fresh
  · exact previous?_setNext.trans hp
  · exact next?_setNext_self hx

/-- What precedes a segment is written into its first node. -/
lemma Segment.linkBackward (h : c.Segment previous order next) (nodup : order.Nodup)
    (inside : ∀ i ∈ order, i < c.nodes.size) :
    (c.linkBackward order.head? link).Segment link order next := by
  cases order with
  | nil => trivial
  | cons x rest =>
    obtain ⟨_, hn, hrest⟩ := h
    refine ⟨previous?_setPrevious_self (inside x List.mem_cons_self),
      next?_setPrevious.trans hn, ?_⟩
    refine Segment.linkBackward_of_notMem hrest ?_
    rintro y ⟨⟩
    exact (List.nodup_cons.mp nodup).1

lemma head_linkForward_getLast? :
    (c.linkForward order.getLast? link).head = if order = [] then link else c.head := by
  rcases List.eq_nil_or_concat order with rfl | ⟨rest, x, rfl⟩
  · rfl
  · simp [Chain.linkForward, setNext]

lemma tail_linkBackward_head? :
    (c.linkBackward order.head? link).tail = if order = [] then link else c.tail := by
  cases order with
  | nil => rfl
  | cons x rest => simp [Chain.linkBackward, setPrevious]

end Ends

/-! ### Nodes come and go -/

lemma Linked.place {order : List Nat} (h : c.Linked order) (node : Node α) :
    (c.place node).1 ∉ order ∧ (c.place node).2.nodes[(c.place node).1]? = some node ∧
      (∀ j, j ≠ (c.place node).1 → (c.place node).2.nodes[j]? = c.nodes[j]?) ∧
      (c.place node).2.head = c.head ∧ (c.place node).2.tail = c.tail ∧
      (c.place node).2.size = c.size ∧
      ((c.place node).1 :: (order ++ (c.place node).2.vacant)).Perm
        (List.range (c.place node).2.nodes.size) := by
  unfold Chain.place
  cases hv : c.vacant with
  | nil =>
    have fresh : c.nodes.size ∉ order := fun hi => Nat.lt_irrefl _ (h.lt_size hi)
    refine ⟨fresh, by simp, ?_, rfl, rfl, rfl, ?_⟩
    · intro j hj
      simp only [Array.getElem?_push, if_neg hj]
    · have slots := h.slots
      rw [hv, List.append_nil] at slots
      simp only [List.append_nil, Array.size_push, List.range_succ]
      exact (List.perm_append_singleton _ _).symm.trans (slots.append_right _)
  | cons i vacant =>
    have slots := h.slots
    have nodup := h.nodup
    rw [hv] at slots nodup
    have fresh : i ∉ order := fun hi =>
      (List.nodup_append.mp nodup).2.2 i hi i List.mem_cons_self rfl
    have inside : i < c.nodes.size :=
      List.mem_range.mp (slots.mem_iff.mp (List.mem_append_right _ List.mem_cons_self))
    refine ⟨fresh, ?_, ?_, rfl, rfl, rfl, ?_⟩
    · simp [Array.getElem_modify, inside]
    · intro j hj
      simp [Array.getElem?_modify, Ne.symm hj]
    · simpa using List.perm_middle.symm.trans slots

/-- A node that knows its neighbours joins the chain once they are told of it. -/
lemma Segment.linkBetween {d : Chain α} {before after : List Nat} {i : Nat}
    (whole : d.Segment none (before ++ after) none)
    (middle : d.Segment before.getLast? [i] after.head?) (nodup : (before ++ after).Nodup)
    (fresh : i ∉ before ++ after) (inside : ∀ j ∈ before ++ after, j < d.nodes.size) :
    ((d.linkForward before.getLast? (some i)).linkBackward after.head? (some i)).Segment none
      (before ++ i :: after) none := by
  obtain ⟨nodup_before, nodup_after, apart⟩ := List.nodup_append.mp nodup
  have not_before : i ∉ before := fun hi => fresh (List.mem_append_left _ hi)
  have not_after : i ∉ after := fun hi => fresh (List.mem_append_right _ hi)
  obtain ⟨first, last⟩ := segment_append.mp whole
  rw [Option.or_none] at first last
  -- Both ends are told of the new node; neither edit reaches the other segment.
  let e := d.linkForward before.getLast? (some i)
  let f := e.linkBackward after.head? (some i)
  have first_e : e.Segment none before (some i) :=
    first.linkForward nodup_before fun j hj => inside j (List.mem_append_left _ hj)
  have last_e : e.Segment before.getLast? after none :=
    last.linkForward_of_notMem fun x hx hxa =>
      apart x (List.mem_of_getLast? hx) x hxa rfl
  have middle_e : e.Segment before.getLast? [i] after.head? :=
    middle.linkForward_of_notMem fun x hx hxi =>
      not_before (List.mem_singleton.mp hxi ▸ List.mem_of_getLast? hx)
  have size_e : e.nodes.size = d.nodes.size := (shape_linkForward _ _ _).2.2.2
  have first_f : f.Segment none before (some i) :=
    first_e.linkBackward_of_notMem fun x hx hxb =>
      apart x hxb x (List.mem_of_head? hx) rfl
  have middle_f : f.Segment before.getLast? [i] after.head? :=
    middle_e.linkBackward_of_notMem fun x hx hxi =>
      not_after (List.mem_singleton.mp hxi ▸ List.mem_of_head? hx)
  have last_f : f.Segment (some i) after none :=
    last_e.linkBackward nodup_after fun j hj =>
      size_e ▸ inside j (List.mem_append_right _ hj)
  refine segment_append.mpr ⟨by simpa using first_f, ?_⟩
  rw [Option.or_none]
  exact ⟨middle_f.1, by simpa using middle_f.2.1, last_f⟩

/-- A new node between two segments that meet. -/
theorem Linked.insertBetween {before after : List Nat} (h : c.Linked (before ++ after))
    (item : α) :
    ∃ slot, slot ∉ before ++ after ∧
      (c.insertBetween before.getLast? after.head? item).Linked (before ++ slot :: after) ∧
      (c.insertBetween before.getLast? after.head? item).item? slot = some item ∧
      ∀ j, j ≠ slot →
        (c.insertBetween before.getLast? after.head? item).item? j = c.item? j := by
  obtain ⟨head, tail, segment, size, _⟩ := linked_iff.mp h
  have order_nodup := (List.nodup_append.mp h.nodup).1
  obtain ⟨fresh, node, same, head', tail', size', slots⟩ :=
    h.place ⟨item, before.getLast?, after.head?⟩
  unfold Chain.insertBetween
  generalize c.place ⟨item, before.getLast?, after.head?⟩ = placed at *
  obtain ⟨i, d⟩ := placed
  dsimp only at *
  have inside : ∀ j ∈ before ++ after, j < d.nodes.size := fun j hj =>
    List.mem_range.mp (slots.mem_iff.mp
      (List.mem_cons_of_mem _ (List.mem_append_left _ hj)))
  have kept : d.Segment none (before ++ after) none :=
    segment.congr fun j hj => by
      have ne : j ≠ i := fun e => fresh (e ▸ hj)
      simp only [previous?, next?, same j ne, and_self]
  have middle : d.Segment before.getLast? [i] after.head? := by
    simp [Segment, previous?, next?, node]
  let e := d.linkForward before.getLast? (some i)
  let f := e.linkBackward after.head? (some i)
  have whole : f.Segment none (before ++ i :: after) none :=
    kept.linkBetween middle order_nodup fresh inside
  have shape_e := shape_linkForward d before.getLast? (some i)
  have shape_f := shape_linkBackward e after.head? (some i)
  refine ⟨i, fresh, linked_iff.mpr ⟨?_, ?_, whole.congr fun _ _ => ⟨rfl, rfl⟩, ?_, ?_⟩, ?_, ?_⟩
  · change f.head = _
    rw [shape_f.1, head_linkForward_getLast?, head', head]
    cases before <;> simp
  · change f.tail = _
    rw [tail_linkBackward_head?, shape_e.1, tail', tail]
    cases after <;> simp [List.getLast?_append, List.getLast?_cons]
  · change f.size + 1 = _
    rw [shape_f.2.1, shape_e.2.1, size', size]
    simp only [List.length_append, List.length_cons]
    omega
  · change (before ++ i :: after ++ f.vacant).Perm (List.range f.nodes.size)
    rw [shape_f.2.2.1, shape_e.2.2.1, shape_f.2.2.2, shape_e.2.2.2]
    refine List.Perm.trans ?_ slots
    exact List.perm_middle.append_right _
  · change f.item? i = _
    rw [item?_linkBackward, item?_linkForward, item?, node]
    rfl
  · intro j hj
    change f.item? j = _
    rw [item?_linkBackward, item?_linkForward, item?, same j hj]
    rfl

/-- A node taken out from between two segments, which then meet. -/
theorem Linked.unlink {before after : List Nat} {i : Nat}
    (h : c.Linked (before ++ i :: after)) :
    (c.unlink i).Linked (before ++ after) ∧ ∀ j, (c.unlink i).item? j = c.item? j := by
  obtain ⟨head, tail, segment, size, slots⟩ := linked_iff.mp h
  have order_nodup := (List.nodup_append.mp h.nodup).1
  obtain ⟨nodup_before, nodup_rest, apart⟩ := List.nodup_append.mp order_nodup
  obtain ⟨not_after, nodup_after⟩ := List.nodup_cons.mp nodup_rest
  obtain ⟨first, hp, hn, last⟩ := segment_append.mp segment
  rw [Option.or_none] at hp hn
  have inside : ∀ j ∈ before ++ i :: after, j < c.nodes.size := fun j => h.lt_size
  unfold Chain.unlink
  rw [hp, hn]
  dsimp only
  let d := c.linkForward before.getLast? after.head?
  let e := d.linkBackward after.head? before.getLast?
  have first_d : d.Segment none before after.head? :=
    first.linkForward nodup_before fun j hj => inside j (List.mem_append_left _ hj)
  have last_d : d.Segment (some i) after none :=
    last.linkForward_of_notMem fun x hx hxa =>
      apart x (List.mem_of_getLast? hx) x (List.mem_cons_of_mem _ hxa) rfl
  have size_d : d.nodes.size = c.nodes.size := (shape_linkForward _ _ _).2.2.2
  have first_e : e.Segment none before after.head? :=
    first_d.linkBackward_of_notMem fun x hx hxb =>
      apart x hxb x (List.mem_cons_of_mem _ (List.mem_of_head? hx)) rfl
  have last_e : e.Segment before.getLast? after none :=
    last_d.linkBackward nodup_after fun j hj =>
      size_d ▸ inside j (List.mem_append_right _ (List.mem_cons_of_mem _ hj))
  have whole : e.Segment none (before ++ after) none :=
    segment_append.mpr ⟨by simpa using first_e, by simpa using last_e⟩
  have shape_d := shape_linkForward c before.getLast? after.head?
  have shape_e := shape_linkBackward d after.head? before.getLast?
  refine ⟨linked_iff.mpr ⟨?_, ?_, whole.congr fun _ _ => ⟨rfl, rfl⟩, ?_, ?_⟩, ?_⟩
  · change e.head = _
    rw [shape_e.1, head_linkForward_getLast?, head]
    cases before <;> simp
  · change e.tail = _
    rw [tail_linkBackward_head?, shape_d.1, tail]
    cases after <;> simp [List.getLast?_append, List.getLast?_cons]
  · change e.size - 1 = _
    rw [shape_e.2.1, shape_d.2.1, size]
    simp only [List.length_append, List.length_cons]
    omega
  · change (before ++ after ++ i :: e.vacant).Perm (List.range e.nodes.size)
    rw [shape_e.2.2.1, shape_d.2.2.1, shape_e.2.2.2, shape_d.2.2.2]
    refine List.Perm.trans ?_ slots
    exact List.perm_middle.trans (List.perm_middle.append_right _).symm
  · intro j
    change e.item? j = _
    rw [item?_linkBackward, item?_linkForward]

/-! ### The items of a chain, with their slots -/

lemma walk_previous? {next : Option Nat} (order : List Nat) (h : c.Segment none order next) :
    walk c.previous? order.length order.getLast? = order.reverse := by
  induction order using List.reverseRecOn generalizing next with
  | nil => rfl
  | append_singleton rest i ih =>
    obtain ⟨hrest, hp, _, _⟩ := segment_append.mp h
    rw [Option.or_none] at hp
    rw [List.length_append, List.length_singleton, List.getLast?_append, List.getLast?_singleton,
      Option.some_or, walk, hp, ih hrest, List.reverse_append]
    rfl

theorem Linked.backward_eq {order : List Nat} (h : c.Linked order) :
    c.backward = order.reverse := by
  obtain ⟨_, tail, segment, size, _⟩ := linked_iff.mp h
  rw [backward, size, tail, walk_previous? order segment]

/-- The chain is linked through the slots of `entries` and has their items there. -/
structure Holds (c : Chain α) (entries : List (Nat × α)) : Prop where
  linked : c.Linked (entries.map Prod.fst)
  item : ∀ e ∈ entries, c.item? e.1 = some e.2

namespace Holds
variable {entries before after : List (Nat × α)} {slot : Nat} {a : α}

lemma empty : (Chain.empty : Chain α).Holds [] := ⟨linked_empty, nofun⟩

lemma backward_eq (h : c.Holds entries) : c.backward = (entries.map Prod.fst).reverse :=
  h.linked.backward_eq

lemma filterMap_item? (h : c.Holds entries) :
    (entries.map Prod.fst).filterMap c.item? = entries.map Prod.snd := by
  have items := h.item
  clear h
  induction entries with
  | nil => rfl
  | cons e rest ih =>
    rw [List.map_cons, List.filterMap_cons, items e List.mem_cons_self,
      ih fun d hd => items d (List.mem_cons_of_mem e hd)]
    rfl

theorem toList_eq (h : c.Holds entries) : c.toList = entries.map Prod.snd := by
  rw [toList, h.linked.forward_eq, h.filterMap_item?]

lemma next?_eq (h : c.Holds (before ++ (slot, a) :: after)) :
    c.next? slot = after.head?.map Prod.fst := by
  have linked := h.linked
  rw [List.map_append, List.map_cons] at linked
  obtain ⟨_, _, segment, _, _⟩ := linked_iff.mp linked
  obtain ⟨_, _, hn, _⟩ := segment_append.mp segment
  simpa using hn

lemma slot_notMem (h : c.Holds (before ++ (slot, a) :: after)) :
    slot ∉ (before ++ after).map Prod.fst := by
  have nodup := (List.nodup_append.mp h.linked.nodup).1
  rw [List.map_append, List.map_cons] at nodup
  rw [List.map_append]
  exact (List.nodup_cons.mp (List.nodup_middle.mp nodup)).1

theorem setItem (h : c.Holds (before ++ (slot, a) :: after)) (b : α) :
    (c.setItem slot b).Holds (before ++ (slot, b) :: after) := by
  have fresh := h.slot_notMem
  have inside : slot < c.nodes.size := h.linked.lt_size (by simp)
  refine ⟨by simpa using h.linked.setItem slot b, ?_⟩
  intro e he
  have other : ∀ d ∈ before ++ after, slot ≠ d.1 := by
    rintro d hd rfl
    exact fresh (List.mem_map_of_mem hd)
  rcases List.mem_append.mp he with he | he
  · rw [item?_setItem_of_ne (other e (List.mem_append_left _ he))]
    exact h.item e (List.mem_append_left _ he)
  rcases List.mem_cons.mp he with rfl | he
  · exact item?_setItem_self inside
  · rw [item?_setItem_of_ne (other e (List.mem_append_right _ he))]
    exact h.item e (List.mem_append_right _ (List.mem_cons_of_mem _ he))

lemma insertBetween (h : c.Holds (before ++ after)) (b : α) :
    ∃ new, (c.insertBetween (before.map Prod.fst).getLast? (after.map Prod.fst).head? b).Holds
      (before ++ (new, b) :: after) := by
  have linked := h.linked
  rw [List.map_append] at linked
  obtain ⟨new, fresh, linked', item, same⟩ := linked.insertBetween b
  refine ⟨new, by simpa using linked', ?_⟩
  have old : ∀ e ∈ before ++ after,
      (c.insertBetween (before.map Prod.fst).getLast? (after.map Prod.fst).head? b).item? e.1 =
        some e.2 := by
    intro e he
    rw [same e.1, h.item e he]
    rintro rfl
    exact fresh (List.map_append ▸ List.mem_map_of_mem he)
  intro e he
  rcases List.mem_append.mp he with he | he
  · exact old e (List.mem_append_left _ he)
  rcases List.mem_cons.mp he with rfl | he
  · exact item
  · exact old e (List.mem_append_right _ he)

theorem pushFront (h : c.Holds entries) (b : α) :
    ∃ new, (c.pushFront b).Holds ((new, b) :: entries) := by
  have between := insertBetween (show c.Holds ([] ++ entries) from h) b
  rwa [List.map_nil, List.getLast?_nil, ← h.linked.head_eq] at between

theorem insertAfter (h : c.Holds (before ++ (slot, a) :: after)) (b : α) :
    ∃ new, (c.insertAfter slot b).Holds (before ++ (slot, a) :: (new, b) :: after) := by
  have next := h.next?_eq
  rw [List.append_cons] at h
  obtain ⟨new, h'⟩ := insertBetween h b
  refine ⟨new, ?_⟩
  rw [List.append_cons]
  simpa [Chain.insertAfter, next, List.head?_map] using h'

theorem unlink (h : c.Holds (before ++ (slot, a) :: after)) :
    (c.unlink slot).Holds (before ++ after) := by
  have linked := h.linked
  rw [List.map_append, List.map_cons] at linked
  obtain ⟨linked', same⟩ := linked.unlink
  refine ⟨by simpa using linked', ?_⟩
  intro e he
  rw [same]
  apply h.item e
  rcases List.mem_append.mp he with he | he
  · exact List.mem_append_left _ he
  · exact List.mem_append_right _ (List.mem_cons_of_mem _ he)

end Holds

end ConsoleMemory.Chain
