import ConsoleMemory.Address.Basic

/-!
Translations that are remembered between accesses. A buffer either keeps none and only counts how
often it is told to forget, or keeps one for every page that was translated until it is told to
forget that page.
-/

namespace ConsoleMemory

inductive Tlb where
  | counting (flushes : Nat)
  /-- Virtual page numbers with the place in memory of each page. -/
  | caching (entries : List (Nat × PhysicalAddress))
deriving DecidableEq, Repr

namespace Tlb

/-- The place remembered for a virtual page. -/
def find? : Tlb → Nat → Option PhysicalAddress
  | counting _, _ => none
  | caching entries, page => entries.lookup page

/-- Remembers the place of a virtual page that is not remembered yet. -/
def remember : Tlb → Nat → PhysicalAddress → Tlb
  | counting n, _, _ => counting n
  | caching entries, page, place => caching ((page, place) :: entries)

/-- Forgets the virtual pages `[first, last]`. -/
def flush : Tlb → Nat → Nat → Tlb
  | counting n, _, _ => counting (n + 1)
  | caching entries, first, last =>
    caching (entries.filter fun (page, _) => page < first || last < page)

/-- Flushes counted, or translations kept. -/
def count : Tlb → Nat
  | counting n => n
  | caching entries => entries.length

theorem find?_remember (entries : List (Nat × PhysicalAddress)) (page other : Nat)
    (place : PhysicalAddress) :
    ((caching entries).remember page place).find? other =
      if other = page then some place else (caching entries).find? other := by
  simp only [find?, remember, List.lookup_cons]
  by_cases h : other = page
  · simp [h]
  · have hne : (other == page) = false := by simpa using h
    simp [h, hne]

theorem find?_flush (t : Tlb) (first last page : Nat) :
    (t.flush first last).find? page =
      if first ≤ page ∧ page ≤ last then none else t.find? page := by
  cases t with
  | counting n => simp [flush, find?]
  | caching entries =>
    simp only [flush, find?]
    induction entries with
    | nil => simp
    | cons e rest ih =>
      obtain ⟨p, place⟩ := e
      rw [List.filter_cons, List.lookup_cons]
      by_cases hp : page = p
      · subst hp
        by_cases hin : first ≤ page ∧ page ≤ last
        · have : ¬ (page < first ∨ last < page) := by omega
          simp [this, ih, hin]
        · have : page < first ∨ last < page := by omega
          simp [this, hin]
      · have hne : (page == p) = false := by simpa using hp
        split <;> simp [List.lookup_cons, hne, ih]

end Tlb

end ConsoleMemory
