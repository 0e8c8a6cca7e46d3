import ConsoleMemory.Proofs.Manager.Tended
import ConsoleMemory.Proofs.Session.Releasing

/-!
# Marking in a session

A kernel that keeps records by itself may take pages, record them, clear the
records and give the pages back, each when it likes, while page tables come and go.
Then marking a run of pages is exact, the counters stay the numbers of busy pages,
and clearing the run undoes it (`marking_is_exact`).
-/

namespace ConsoleMemory

namespace PfnRecord

lemma lockCount_described (r : PfnRecord) (n : Nat) : (r.described n).lockCount = r.lockCount :=
  BitField.read_write_of_disjoint (by decide) _ _

lemma lockCount_busyAs (t : PageType) : (busyAs t).lockCount = 0 := by cases t <;> decide

end PfnRecord

namespace VirtualAddress

/-- The index of an entry is settled by its own address. -/
lemma entryIndex_mappedByEntry (entry : VirtualAddress) :
    entry.mappedByEntry.entryIndex = entry.toNat / 4 % 1024 := by
  have := entry.toNat_lt
  rw [entryIndex, Address.pageNumber, mappedByEntry, Address.toNat_ofNat, Address.toNat_sub,
    PageSize.bytes, MemoryMap.entriesPerPage, MemoryMap.pageTablesBase]
  omega

end VirtualAddress

namespace Manager

lemma lockCount_recordFor (t : PageType) (entry : VirtualAddress) :
    (recordFor t entry).lockCount = 0 := by
  unfold recordFor
  split <;> rw [PfnRecord.lockCount_described, PfnRecord.lockCount_busyAs]

lemma entryIndex_recordFor {t : PageType} (nontable : t.isPageTable = false)
    (entry : VirtualAddress) : (recordFor t entry).entryIndex = entry.toNat / 4 % 1024 := by
  have small : entry.toNat / 4 % 1024 < 1024 := Nat.mod_lt _ (by decide)
  rw [recordFor, if_neg (by simp [nontable]), VirtualAddress.entryIndex_mappedByEntry]
  have used := PfnRecord.entriesUsed_described (r := .busyAs t)
    (n := entry.toNat / 4 % 1024 * 2) (by omega)
  rw [PfnRecord.entriesUsed] at used
  rw [PfnRecord.entryIndex, used]
  omega

end Manager

namespace Action

/-- The pages with records of the kernel's own after an action, where those in `W` had them before.
-/
def marked (W : Finset Nat) : Action → Finset Nat
  | markBusy first last _ _ => W ∪ Finset.Icc first last
  | markIdle first last => W \ Finset.Icc first last
  | _ => W

end Action

namespace Machine

variable {c c' : Machine} {F W : Finset Nat} {a : Action} {first last : Nat} {type : PageType}
  {entry : VirtualAddress}

/-- What a kernel that keeps records by itself has to observe: it records and gives back only pages
that are not free and have blank records, and it clears only records that it wrote. -/
def Permits (c : Machine) (W : Finset Nat) : Action → Prop
  | .commit va size => va.toNat + size ≤ 0x100000000
  | .release va size => va.toNat + size ≤ 0x100000000
  | .take _ => True
  | .markBusy first last _ _ => c.Unrecorded first last
  | .markIdle first last => first ≤ last ∧ ∀ p, first ≤ p → p ≤ last → p ∈ W
  | .giveBack first last => c.Unrecorded first last
  | _ => False

/-- The machine `c'` is `c` with the pages `[first, last]` recorded as busy; the entry of the first
lies at `entry`. -/
structure MarksExactly (c c' : Machine) (first last : Nat) (entry : VirtualAddress)
    (type : PageType) : Prop where
  marked : ∀ p, first ≤ p → p ≤ last → (c'.record p).busy = true ∧
    (c'.record p).pageType = type ∧ (c'.record p).lockCount = 0
  used : type.isPageTable = true → ∀ p, first ≤ p → p ≤ last → (c'.record p).entriesUsed = 0
  index : type.isPageTable = false → ∀ p, first ≤ p → p ≤ last →
    (c'.record p).entryIndex = (entry.toNat + 4 * (p - first)) % 0x100000000 / 4 % 1024
  records : ∀ p ≤ c.parameters.highestPage, p < first ∨ last < p → c'.record p = c.record p
  usage : ∀ t, c'.usage.count t = c.usage.count t + if t = type then last + 1 - first else 0
  freeList : c'.freeList = c.freeList
  size : c'.ram.size = c.ram.size
  memory : ∀ a < c.ram.size, (a / 4096 < c.parameters.databasePage ∨
    c.parameters.databasePage + c.parameters.databasePages ≤ a / 4096) →
    c'.ram.byteAt a = c.ram.byteAt a

/-- Pages outside of the database hold what they held. -/
lemma SameTables.byteAt_eq (same : c.SameTables c') {a : Nat} (inside : a < c.ram.size)
    (outside : a / 4096 < c.parameters.databasePage ∨
      c.parameters.databasePage + c.parameters.databasePages ≤ a / 4096) :
    c'.ram.byteAt a = c.ram.byteAt a := by
  have size := c.ram.size_eq
  have entry := same.entry (a / 4096) (by omega) outside (a % 4096 / 4) (by omega)
  exact Ram.byteAt_eq_of_word (congrArg Entry.bits entry)

/-- Where the records are the same as well, so is the state. -/
lemma SameTables.sameState (same : c.SameTables c') (fit : c.parameters.Fit)
    (records : ∀ p ≤ c.parameters.highestPage, c'.record p = c.record p) (counted : c.Counted)
    (counted' : c'.Counted) : c.SameState c' := by
  have usage : c'.usage = c.usage := by
    refine Usage.ext_count fun t => ?_
    rw [counted t, counted' t]
    refine congrArg Finset.card ?_
    ext p
    rw [mem_busyPages, mem_busyPages, same.parameters]
    refine and_congr_right fun hp => ?_
    rw [records p hp]
  have accounts : c.SameAccounts c' := by
    constructor
    · rw [same.freeList]
    · rw [same.freeList]
    · rw [same.freeList]
    · exact usage
  exact accounts.sameState fit same.parameters same.size records fun a => same.byteAt_eq

/-- Pages that change hands are free no more and have blank records. -/
lemma Lacks.unrecorded (h : c.Lacks first last) : c.Unrecorded first last := by
  have idle (p : Nat) (low : first ≤ p) (high : p ≤ last) := mem_idlePages.mp (h.idle p low high)
  refine ⟨h.le, (idle last h.le le_rfl).1, fun p low high free => ?_,
    fun p low high => h.blank p (idle p low high).1 (idle p low high).2⟩
  have left := (h.free.runs.mem p).mpr free
  exact (Finset.mem_sdiff.mp left).2 (Finset.mem_Ico.mpr ⟨low, Nat.lt_succ_of_le high⟩)

/-- Blank records that come to be busy are counted under their type. -/
lemma Unrecorded.count_marked (pages : c.Unrecorded first last) (counted : c.Counted)
    (counted' : c'.Counted) (parameters : c'.parameters = c.parameters)
    (old : ∀ p ≤ c.parameters.highestPage, p < first ∨ last < p → c'.record p = c.record p)
    (new : ∀ p, first ≤ p → p ≤ last → (c'.record p).busy = true ∧ (c'.record p).pageType = type)
    (t : PageType) :
    c'.usage.count t = c.usage.count t + if t = type then last + 1 - first else 0 := by
  have idle (p : Nat) (low : first ≤ p) (high : p ≤ last) : (c.record p).busy = false := by
    rw [pages.blank p low high, PfnRecord.busy_zero]
  have busy : c'.busyPages t = c.busyPages t ∪ if t = type then Finset.Icc first last else ∅ := by
    ext p
    rw [Finset.mem_union, mem_busyPages, mem_busyPages, parameters]
    by_cases within : first ≤ p ∧ p ≤ last
    · have hp : p ≤ c.parameters.highestPage := within.2.trans pages.inside
      obtain ⟨marked, typed⟩ := new p within.1 within.2
      rw [marked, typed, idle p within.1 within.2]
      by_cases own : t = type
      · simp [own, hp, within]
      · simp [own, Ne.symm own]
    · have apart : p ∉ if t = type then Finset.Icc first last else ∅ := by
        split
        · exact fun mem => within (Finset.mem_Icc.mp mem)
        · exact Finset.notMem_empty p
      rw [or_iff_left apart]
      exact and_congr_right fun hp => by rw [old p hp (by omega)]
  have apart : Disjoint (c.busyPages t) (if t = type then Finset.Icc first last else ∅) := by
    refine Finset.disjoint_left.mpr fun p was new => ?_
    split at new
    · obtain ⟨low, high⟩ := Finset.mem_Icc.mp new
      cases (mem_busyPages.mp was).2.1.symm.trans (idle p low high)
    · exact Finset.notMem_empty p new
  rw [counted' t, counted t, busy, Finset.card_union_of_disjoint apart]
  split
  · rw [Nat.card_Icc]
  · rw [Finset.card_empty]

namespace Tended

variable (h : c.Tended F W)
include h

/-- A permitted action keeps the invariant, or else it ends the session. -/
theorem perform (permitted : c.Permits W a) : (∃ e, Fails c c.ram.walk a.perform e) ∨
    ∃ answer c', Yields c a.perform answer c' ∧ c.Tends c' (a.marked W) := by
  cases a with
  | commit va size =>
    obtain ⟨result, c', ran, tends⟩ := Manager.commitTables_tended h permitted
    exact Or.inr ⟨.committed result, c', ran.bind .pure, tends⟩
  | release va size =>
    obtain ⟨c', ran, tends⟩ := Manager.releaseTables_tended h permitted
    exact Or.inr ⟨.done, c', ran.bind .pure, tends⟩
  | take request =>
    rcases Manager.take_tended (r := request) h with ⟨e, ended⟩ | ⟨page, c', ran, tends⟩
    · exact Or.inl ⟨e, ended.bind⟩
    · exact Or.inr ⟨.taken page, c', ran.bind .pure, tends⟩
  | markBusy first last entry type =>
    obtain ⟨c', ran, same, tended, _⟩ := Manager.markBusy_tended h permitted entry type
    exact Or.inr ⟨.done, c', ran.bind .pure, same.parameters, F, tended⟩
  | markIdle first last =>
    obtain ⟨c', ran, same, tended, _⟩ := Manager.markIdle_tended h permitted.1 permitted.2
    exact Or.inr ⟨.done, c', ran.bind .pure, same.parameters, F, tended⟩
  | giveBack first last =>
    rcases Manager.giveBack_tended h permitted with ⟨e, ended⟩ | ⟨c', ran, tends⟩
    · exact Or.inl ⟨e, ended.bind⟩
    · exact Or.inr ⟨.done, c', ran.bind .pure, tends⟩
  | _ => exact permitted.elim

/-- Records that are marked and then cleared are marked exactly, and cleared to the last bit. -/
theorem marksExactly (pages : c.Unrecorded first last) (entry : VirtualAddress)
    (type : PageType) :
    ∃ d, Yields c (Manager.markBusy first last entry type) () d ∧ d.Counted ∧
      c.MarksExactly d first last entry type ∧
      ∃ c', Yields d (Manager.markIdle first last) () c' ∧ c.SameState c' := by
  have inside := pages.inside
  obtain ⟨d, ran, same, tended, record⟩ := Manager.markBusy_tended h pages entry type
  obtain ⟨c', ran', same', tended', record'⟩ := Manager.markIdle_tended tended pages.le
    fun p low high => Finset.mem_union_right W (Finset.mem_Icc.mpr ⟨low, high⟩)
  have new (p : Nat) (low : first ≤ p) (high : p ≤ last) :
      d.record p = Manager.recordFor type (entry + (p - first) * 4) := by
    rw [record p (high.trans inside), if_pos ⟨low, high⟩]
  have old (p : Nat) (hp : p ≤ c.parameters.highestPage) (out : p < first ∨ last < p) :
      d.record p = c.record p := by rw [record p hp, if_neg (by omega)]
  refine ⟨d, ran, tended.counted, ⟨fun p low high => ?_, fun isTable p low high => ?_,
    fun nontable p low high => ?_, old, fun t => ?_, same.freeList, same.size,
    fun a => same.byteAt_eq⟩, c', ran', ?_⟩
  · rw [new p low high]
    exact ⟨Manager.busy_recordFor _ _, Manager.pageType_recordFor _ _,
      Manager.lockCount_recordFor _ _⟩
  · rw [new p low high]
    exact Manager.entriesUsed_recordFor isTable _
  · rw [new p low high, Manager.entryIndex_recordFor nontable, Address.toNat_add, Nat.mul_comm]
  · refine pages.count_marked h.counted tended.counted same.parameters old (fun p low high => ?_) t
    rw [new p low high]
    exact ⟨Manager.busy_recordFor _ _, Manager.pageType_recordFor _ _⟩
  · refine (same.trans same').sameState h.fit (fun p hp => ?_) h.counted tended'.counted
    rw [record' p (by rwa [same.parameters])]
    split
    · next within => exact (pages.blank p within.1 within.2).symm
    · exact old p hp (by omega)

end Tended

end Machine

/-- Actions from `start` on that are permitted and return, the pages that have records of the
kernel's own in the end, and the session then. -/
inductive MarkRun (start : Session) : Finset Nat → Session → Prop where
  | refl : MarkRun start ∅ start
  | step {W : Finset Nat} {s s' : Session} {a : Action} {answer : Answer} :
      MarkRun start W s → s.machine.Permits W a → a.perform s = .ok answer s' →
      MarkRun start (a.marked W) s'

namespace Session

variable {s s' : Session} {c : Machine} {W : Finset Nat}

/-- Every run keeps the invariant. -/
theorem Rests.markRun (h : s.Rests c none) (run : MarkRun s W s') :
    ∃ c', s'.Shows c' ∧ c.Tends c' W := by
  induction run with
  | refl =>
    have kept : c.Kept := h.stands
    exact ⟨c, h.toShows, kept.tended.tends⟩
  | step _ permitted ran ih =>
    obtain ⟨d, shows, parameters, F, tended⟩ := ih
    rw [shows.machine_eq] at permitted
    rcases tended.perform permitted with ⟨e, fails⟩ | ⟨answer, c', yields, parameters', rest⟩
    · obtain ⟨s'', ended⟩ := shows.step_error fails
      cases ran.symm.trans ended
    · obtain ⟨s'', ran', shows'⟩ := shows.perform_ok yields
      cases ran.symm.trans ran'
      exact ⟨c', shows', parameters'.trans parameters, rest⟩

end Session

/-- In every state of a run in which the kernel keeps records by itself, the counters are the
numbers of busy pages. Marking a run of pages that are not free and have blank records returns and
changes just their records and the counter of their type; and clearing the run restores the state.
-/
theorem marking_is_exact (l : Layout) {memory : GuestMemory}
    (size : l.parameters.ramSize ≤ memory.ram.size) (fresh : memory.tlb.Fresh)
    (trail : Array Note) :
    ∃ m s, Manager.create memory l l.parameters = .ok m ∧ Manager.boot ⟨m, trail⟩ = .ok () s ∧
      ∀ W s', MarkRun s W s' → s'.machine.parameters = l.parameters ∧ s'.machine.Counted ∧
        ∀ first last, s'.machine.Unrecorded first last → ∀ entry type,
          ∃ s₁, Manager.markBusy first last entry type s' = .ok () s₁ ∧
            s'.machine.MarksExactly s₁.machine first last entry type ∧ s₁.machine.Counted ∧
            ∃ s₂, Manager.markIdle first last s₁ = .ok () s₂ ∧
              s'.machine.SameState s₂.machine := by
  obtain ⟨c, parameters, _, comes⟩ := Session.comes_up l l.boots size trail
  obtain ⟨m, s, created, booted, rests⟩ := comes memory.tlb fresh
  refine ⟨m, s, created, booted, fun W s' run => ?_⟩
  obtain ⟨c', shows, same, F, tended⟩ := rests.markRun run
  rw [shows.machine_eq]
  refine ⟨same.trans parameters, tended.counted, fun first last pages entry type => ?_⟩
  obtain ⟨d, yields, counted, marks, c'', yields', restored⟩ :=
    tended.marksExactly pages entry type
  obtain ⟨s₁, ran, shows₁⟩ := shows.step_ok yields
  obtain ⟨s₂, ran', shows₂⟩ := shows₁.step_ok yields'
  refine ⟨s₁, ran, ?_, ?_, s₂, ran', ?_⟩
  · rw [shows₁.machine_eq]
    exact marks
  · rw [shows₁.machine_eq]
    exact counted
  · rw [shows₂.machine_eq]
    exact restored

/-- Three pages are taken when a console has come up, and marked as mapped by the last entry of a
page table and the first two of the next. -/
theorem marking_is_exact_retail :
    ∃ m s s' s₁ s₂, Manager.create
        ⟨⟨0x4000000, .uniform 0x5A, by decide, by decide, by decide⟩, .caching []⟩
        .retail Layout.retail.parameters = .ok m ∧ Manager.boot ⟨m, #[]⟩ = .ok () s ∧
      Manager.take { count := 3, first := 0, last := 0x3FFF } s = .ok (some 0x3FED) s' ∧
      MarkRun s ∅ s' ∧ s'.machine.Unrecorded 0x3FED 0x3FEF ∧
      Manager.markBusy 0x3FED 0x3FEF (.ofNat 0xC00FFFFC) .stack s' = .ok () s₁ ∧
      s'.machine.MarksExactly s₁.machine 0x3FED 0x3FEF (.ofNat 0xC00FFFFC) .stack ∧
      Manager.markIdle 0x3FED 0x3FEF s₁ = .ok () s₂ ∧ s'.machine.SameState s₂.machine := by
  have size : Layout.retail.parameters.ramSize ≤ (⟨⟨0x4000000, .uniform 0x5A, by decide, by decide,
      by decide⟩, .caching []⟩ : GuestMemory).ram.size := by decide
  obtain ⟨m, s, created, booted, exactly⟩ :=
    marking_is_exact .retail size Tlb.fresh_caching #[]
  obtain ⟨c, comes⟩ := Session.exists_boot .retail size #[]
  obtain ⟨m', s₀, created', booted', rests⟩ := comes _ Tlb.fresh_caching
  cases created.symm.trans created'
  cases booted.symm.trans booted'
  have takes := Layout.test_of_passes created booted (fun s =>
    s.passes (Manager.take { count := 3, first := 0, last := 0x3FFF }) fun page _ =>
      page == some 0x3FED) (by decide +kernel)
  obtain ⟨page, s', took, answered⟩ := Session.exists_of_passes takes
  cases eq_of_beq answered
  have performed : (Action.take { count := 3, first := 0, last := 0x3FFF }).perform s =
      .ok (.taken (some 0x3FED)) s' := by
    simp only [Action.perform, bind, EStateM.bind, took]
    rfl
  have permitted : s.machine.Permits ∅ (.take { count := 3, first := 0, last := 0x3FFF }) :=
    trivial
  have run : MarkRun s ∅ s' := .step .refl permitted performed
  have pages : s'.machine.Unrecorded 0x3FED 0x3FEF := by
    rcases Manager.take_outcome (r := ⟨3, 0, 0, 0x3FFF⟩) rests.stands with
      ⟨e, fails⟩ | none | ⟨page, l, some, lacks⟩
    · obtain ⟨_, ended⟩ := rests.toShows.step_error fails
      cases took.symm.trans ended
    · obtain ⟨_, ended, _⟩ := rests.toShows.step_ok none
      cases took.symm.trans ended
    · obtain ⟨_, ended, shows⟩ := rests.toShows.step_ok some
      cases took.symm.trans ended
      rw [shows.machine_eq]
      exact lacks.unrecorded
  obtain ⟨s₁, marked, marks, _, s₂, cleared, same⟩ :=
    (exactly ∅ s' run).2.2 _ _ pages (.ofNat 0xC00FFFFC) .stack
  exact ⟨m, s, s', s₁, s₂, created, booted, took, run, pages, marked, marks, cleared, same⟩

end ConsoleMemory
