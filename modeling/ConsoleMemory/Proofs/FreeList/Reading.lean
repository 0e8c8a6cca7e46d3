import ConsoleMemory.FreeList.Cursor
import ConsoleMemory.Proofs.FreeList.History

/-!
# Reading a free list from both ends

After every history the links lead through the same slots in both directions, and
all other slots are kept for reuse. A reading takes blocks at the two ends in any
order: what the front gave, what is still to come and what the back gave, the last
one first, are always the whole list.
-/

namespace ConsoleMemory

namespace Chain

variable {α : Type} {c : Chain α} {order : List Nat}

/-- Following `step` visits the slots of a path one after the other, and then ends. -/
def Visits (step : Nat → Option Nat) : Option Nat → List Nat → Prop
  | start, [] => start = none
  | start, i :: rest => start = some i ∧ Visits step (step i) rest

/-- The links run through the slots of `path` in both directions; all other slots are vacant. -/
structure Threads (c : Chain α) (path : List Nat) : Prop where
  forward : Visits c.next? c.head path
  backward : Visits c.previous? c.tail path.reverse
  count : path.length = c.size
  last : path.getLast? = c.tail
  distinct : path.Nodup
  distinct_vacant : c.vacant.Nodup
  apart : path.Disjoint c.vacant
  covers : ∀ i, i < c.nodes.size ↔ i ∈ path ∨ i ∈ c.vacant

lemma visits_next? {previous : Option Nat} (h : c.LinkedFrom previous order) :
    Visits c.next? order.head? order := by
  induction order generalizing previous with
  | nil => rfl
  | cons i rest ih =>
    obtain ⟨_, next, _, links⟩ := h
    refine ⟨rfl, ?_⟩
    rw [next]
    exact ih links

lemma visits_previous? {next : Option Nat} (h : c.Segment none order next) :
    Visits c.previous? order.getLast? order.reverse := by
  induction order using List.reverseRecOn generalizing next with
  | nil => rfl
  | append_singleton rest i ih =>
    obtain ⟨segment, previous, _, _⟩ := segment_append.mp h
    rw [Option.or_none] at previous
    rw [List.reverse_append, List.getLast?_append, List.getLast?_singleton, Option.some_or]
    refine ⟨rfl, ?_⟩
    rw [previous]
    exact ih segment

theorem Linked.threads (h : c.Linked order) : c.Threads order := by
  obtain ⟨head, tail, segment, size, slots⟩ := linked_iff.mp h
  obtain ⟨distinct, distinct_vacant, apart⟩ := List.nodup_append'.mp h.nodup
  refine ⟨?_, ?_, size.symm, tail.symm, distinct, distinct_vacant, apart, fun i => ?_⟩
  · rw [head]
    exact visits_next? h.links
  · rw [tail]
    exact visits_previous? segment
  · rw [← List.mem_append, slots.mem_iff, List.mem_range]

namespace Holds

variable {entries before after : List (Nat × α)} {e : Nat × α}

lemma previous?_eq (h : c.Holds (before ++ e :: after)) :
    c.previous? e.1 = before.getLast?.map Prod.fst := by
  have linked := h.linked
  rw [List.map_append, List.map_cons] at linked
  obtain ⟨_, _, segment, _, _⟩ := linked_iff.mp linked
  obtain ⟨_, previous, _⟩ := segment_append.mp segment
  simpa using previous

lemma head_eq (h : c.Holds entries) : c.head = entries.head?.map Prod.fst := by
  rw [h.linked.head_eq, List.head?_map]

lemma tail_eq (h : c.Holds entries) : c.tail = entries.getLast?.map Prod.fst := by
  rw [(linked_iff.mp h.linked).2.1, List.getLast?_map]

end Holds

end Chain

namespace FreeList

variable {l : FreeList} {S : Finset Nat}

inductive End where
  | front
  | back
deriving DecidableEq, Repr

/-- The blocks taken at the two ends so far, in the order they were taken in. -/
structure Reading where
  front : List Block := []
  back : List Block := []
  cursor : Cursor
deriving DecidableEq, Repr

namespace Reading

/-- One more call at an end; a call that gives no block takes none. -/
def take (l : FreeList) (r : Reading) : End → Reading
  | .front => { r with
      front := r.front ++ (l.takeFront r.cursor).1.toList
      cursor := (l.takeFront r.cursor).2 }
  | .back => { r with
      back := r.back ++ (l.takeBack r.cursor).1.toList
      cursor := (l.takeBack r.cursor).2 }

/-- The entries of the list are those that the front has given, those to come and those that the
back has given. Where none is to come the cursor may point anywhere. -/
structure Parts (l : FreeList) (r : Reading) (given ahead returned : List (Nat × Block)) :
    Prop where
  holds : l.chain.Holds (given ++ ahead ++ returned)
  front : r.front = given.map Prod.snd
  back : r.back.reverse = returned.map Prod.snd
  remaining : r.cursor.remaining = ahead.length
  first : ∀ e ∈ ahead.head?, r.cursor.front = some e.1
  last : ∀ e ∈ ahead.getLast?, r.cursor.back = some e.1

variable {r : Reading} {given ahead returned : List (Nat × Block)} {e : Nat × Block}

lemma Parts.start {entries : List (Nat × Block)} (h : l.chain.Holds entries) :
    Parts l ⟨[], [], l.cursor⟩ [] entries [] := by
  refine ⟨by simpa using h, rfl, rfl, ?_, fun e he => ?_, fun e he => ?_⟩
  · have size := h.linked.size_eq
    rwa [List.length_map] at size
  · change l.chain.head = some e.1
    rw [h.head_eq, he]
    rfl
  · change l.chain.tail = some e.1
    rw [h.tail_eq, he]
    rfl

lemma Parts.blocks_eq (h : Parts l r given ahead returned) :
    l.blocks = r.front ++ ahead.map Prod.snd ++ r.back.reverse := by
  rw [FreeList.blocks, h.holds.toList_eq, h.front, h.back, List.map_append, List.map_append]

lemma Parts.takeFront_nil (h : Parts l r given [] returned) :
    l.takeFront r.cursor = (none, r.cursor) := by
  have spent : r.cursor.remaining = 0 := h.remaining
  simp [takeFront, blockAt?, spent]

lemma Parts.takeBack_nil (h : Parts l r given [] returned) :
    l.takeBack r.cursor = (none, r.cursor) := by
  have spent : r.cursor.remaining = 0 := h.remaining
  simp [takeBack, blockAt?, spent]

lemma Parts.takeFront_cons (h : Parts l r given (e :: ahead) returned) :
    l.takeFront r.cursor =
      (some e.2, ⟨l.chain.next? e.1, r.cursor.back, ahead.length⟩) := by
  have item := h.holds.item e (by simp)
  have front : r.cursor.front = some e.1 := h.first e rfl
  simp [takeFront, blockAt?, h.remaining, front, item]

lemma Parts.takeBack_concat (h : Parts l r given (ahead ++ [e]) returned) :
    l.takeBack r.cursor =
      (some e.2, ⟨r.cursor.front, l.chain.previous? e.1, ahead.length⟩) := by
  have item := h.holds.item e (by simp)
  have back : r.cursor.back = some e.1 := h.last e (by simp)
  simp [takeBack, blockAt?, h.remaining, back, item]

lemma Parts.front_cons (h : Parts l r given (e :: ahead) returned) :
    Parts l (r.take l .front) (given ++ [e]) ahead returned := by
  have split : given ++ e :: ahead ++ returned = given ++ e :: (ahead ++ returned) := by simp
  have next := (split ▸ h.holds).next?_eq
  refine ⟨by simpa using h.holds, ?_, h.back, ?_, fun d hd => ?_, fun d hd => ?_⟩
  · simp [take, h.takeFront_cons, h.front]
  · simp [take, h.takeFront_cons]
  · simp only [take, h.takeFront_cons]
    rw [next, List.head?_append, hd]
    rfl
  · simp only [take, h.takeFront_cons]
    refine h.last d ?_
    rw [List.getLast?_cons, hd]
    rfl

lemma Parts.back_concat (h : Parts l r given (ahead ++ [e]) returned) :
    Parts l (r.take l .back) given ahead (e :: returned) := by
  have split : given ++ (ahead ++ [e]) ++ returned = (given ++ ahead) ++ e :: returned := by simp
  have previous := (split ▸ h.holds).previous?_eq
  refine ⟨by simpa using h.holds, h.front, ?_, ?_, fun d hd => ?_, fun d hd => ?_⟩
  · simp [take, h.takeBack_concat, h.back]
  · simp [take, h.takeBack_concat]
  · simp only [take, h.takeBack_concat]
    refine h.first d ?_
    rw [List.head?_append, hd]
    rfl
  · simp only [take, h.takeBack_concat]
    rw [previous, List.getLast?_append, hd]
    rfl

/-- One call moves the boundary between what is given and what is to come by one entry, or leaves it
where nothing is to come. -/
theorem Parts.take (h : Parts l r given ahead returned) (f : End) :
    ∃ given ahead returned, Parts l (r.take l f) given ahead returned := by
  cases f with
  | front =>
    cases ahead with
    | nil =>
      have same : r.take l .front = r := by simp [Reading.take, h.takeFront_nil]
      exact ⟨given, [], returned, same.symm ▸ h⟩
    | cons e ahead => exact ⟨_, _, _, h.front_cons⟩
  | back =>
    rcases List.eq_nil_or_concat ahead with rfl | ⟨ahead, e, rfl⟩
    · have same : r.take l .back = r := by simp [Reading.take, h.takeBack_nil]
      exact ⟨given, [], returned, same.symm ▸ h⟩
    · rw [List.concat_eq_append] at h
      exact ⟨_, _, _, h.back_concat⟩

theorem Parts.foldl (h : Parts l r given ahead returned) (calls : List End) :
    ∃ given ahead returned, Parts l (calls.foldl (Reading.take l) r) given ahead returned := by
  induction calls generalizing r given ahead returned with
  | nil => exact ⟨given, ahead, returned, h⟩
  | cons f calls ih =>
    obtain ⟨_, _, _, step⟩ := h.take f
    exact ih step

lemma Parts.takeFront_fst (h : Parts l r given ahead returned) :
    (l.takeFront r.cursor).1 = (ahead.map Prod.snd).head? := by
  cases ahead with
  | nil => rw [h.takeFront_nil, List.map_nil, List.head?_nil]
  | cons e ahead => rw [h.takeFront_cons, List.map_cons, List.head?_cons]

lemma Parts.takeBack_fst (h : Parts l r given ahead returned) :
    (l.takeBack r.cursor).1 = (ahead.map Prod.snd).getLast? := by
  rcases List.eq_nil_or_concat ahead with rfl | ⟨ahead, e, rfl⟩
  · rw [h.takeBack_nil, List.map_nil, List.getLast?_nil]
  · rw [List.concat_eq_append] at h ⊢
    rw [h.takeBack_concat]
    simp

end Reading

/-- What a new cursor gives in answer to some calls. -/
def reading (l : FreeList) (calls : List End) : Reading :=
  calls.foldl (Reading.take l) { cursor := l.cursor }

/-- After every history the list is linked in both directions, and a cursor gives each block once:
at every moment of every sequence of calls the cursor counts the blocks to come, gives the first of
them at its front and the last at its back, and gives none just where all blocks have been given. -/
theorem reading_gives_each_once {highest : Nat} {boundary : Option Nat} {start : FreeList}
    {events : List Event} (new : IsNew highest boundary S start) (run : Reaches start events l) :
    (∃ path, l.chain.Threads path ∧ path.map l.chain.item? = l.blocks.map some ∧
      path.length = l.length) ∧
      l.blocks.Nodup ∧
      ∀ calls, ∃ ahead,
        l.blocks = (l.reading calls).front ++ ahead ++ (l.reading calls).back.reverse ∧
        (l.reading calls).cursor.remaining = ahead.length ∧
        (l.takeFront (l.reading calls).cursor).1 = ahead.head? ∧
        (l.takeBack (l.reading calls).cursor).1 = ahead.getLast? ∧
        ((l.takeFront (l.reading calls).cursor).1 = none →
          (l.takeBack (l.reading calls).cursor).1 = none →
          l.blocks = (l.reading calls).front ++ (l.reading calls).back.reverse) := by
  obtain ⟨new_keeps, _⟩ := new.keeps new.small
  obtain ⟨keeps, _⟩ := run.keeps new_keeps
  obtain ⟨entries, holds, _⟩ := keeps.tiles
  refine ⟨⟨_, holds.linked.threads, ?_, holds.linked.threads.count⟩, keeps.runs.nodup,
    fun calls => ?_⟩
  · rw [blocks, holds.toList_eq, List.map_map, List.map_map]
    exact List.map_congr_left holds.item
  · obtain ⟨given, ahead, returned, parts⟩ := (Reading.Parts.start holds).foldl calls
    refine ⟨ahead.map Prod.snd, parts.blocks_eq, ?_, parts.takeFront_fst, parts.takeBack_fst, ?_⟩
    · rw [List.length_map]
      exact parts.remaining
    · intro none_left _
      have spent := parts.takeFront_fst.symm.trans none_left
      rw [List.head?_eq_none_iff] at spent
      have whole := parts.blocks_eq
      rwa [spent, List.append_nil] at whole

/-- Of sixteen pages three runs are taken and the middle one is returned, which joins two blocks and
leaves a slot vacant. The cursor is read at both ends until nothing is to come. -/
theorem reading_gives_each_once_sixteen :
    ∃ start l, IsNew 15 (some 8) (Finset.range 16) start ∧
      Reaches start [.returned 6 8, .taken 1 2, .taken 6 3, .taken 12 4] l ∧
      l.blocks = [⟨0, 1⟩, ⟨3, 9⟩] ∧ l.chain.vacant = [1] ∧
      (l.reading [.back, .front, .back]).front = [⟨0, 1⟩] ∧
      (l.reading [.back, .front, .back]).back = [⟨3, 9⟩] ∧
      (∃ path, l.chain.Threads path) ∧
      l.blocks = (l.reading [.back, .front, .back]).front ++
        (l.reading [.back, .front, .back]).back.reverse := by
  have new : IsNew 15 (some 8) (Finset.range 16)
      ⟨Chain.empty.pushFront ⟨0, 16⟩, 16, some 8, 8, 8⟩ := Or.inr ⟨rfl, rfl⟩
  have taken : Reaches ⟨Chain.empty.pushFront ⟨0, 16⟩, 16, some 8, 8, 8⟩
      [.taken 1 2, .taken 6 3, .taken 12 4] _ :=
    .take (r := ⟨2, 0, 1, 2⟩)
      (.take (r := ⟨3, 0, 6, 8⟩)
        (.take (r := ⟨4, 0, 12, 15⟩) .refl (Or.inl rfl) rfl) (Or.inl rfl) rfl) (Or.inl rfl) rfl
  have run : Reaches _ [.returned 6 8, .taken 1 2, .taken 6 3, .taken 12 4] _ :=
    .put taken (by decide) (by decide) rfl
  obtain ⟨⟨path, threads, _⟩, _, given⟩ := reading_gives_each_once new run
  obtain ⟨_, _, _, _, _, whole⟩ := given [.back, .front, .back]
  exact ⟨_, _, new, run, rfl, rfl, rfl, rfl, ⟨path, threads⟩, whole rfl rfl⟩

end FreeList

end ConsoleMemory
