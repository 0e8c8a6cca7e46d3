import ConsoleMemory.Proofs.FreeList.Pools
import ConsoleMemory.Proofs.Session.Runs

/-!
# The pools of a session

The database is taken in one piece, and what of it lies past the boundary is then
moved to the general pool. That is one charge too many if the whole of it was
charged to the debugger's pool, because it begins there (`boot_counts_pools`).
Nothing is assumed of the numbers of the layout but that the session comes up.
-/

namespace ConsoleMemory

namespace Parameters

/-- Pages that the general pool gains for the database although the debugger's paid for them. -/
def overcharged (p : Parameters) : Nat :=
  match p.debuggerBoundary with
  | none => 0
  | some b => if b ≤ p.databasePage then p.databasePage + p.databasePages - b else 0

lemma overcharged_eq_zero {p : Parameters} (nonempty : 0 < p.databasePages) :
    p.overcharged = 0 ↔ ∀ b, p.debuggerBoundary = some b → p.databasePage < b := by
  unfold overcharged
  cases p.debuggerBoundary with
  | none => simp
  | some b =>
    simp only [Option.some.injEq, forall_eq']
    split <;> omega

end Parameters

namespace FreeList

variable {l l' : FreeList} {p : Parameters} {r : PageRequest} {page n : Nat} {d : Int}

/-- The list is divided as `p` says, and its counters are the free pages on the two sides of the
boundary, shifted by `d`. -/
structure Owes (p : Parameters) (d : Int) (l : FreeList) : Prop where
  pageCount : l.pageCount = p.highestPage + 1
  boundary : l.boundary = p.debuggerBoundary
  shifted : ∃ S, l.Keeps S ∧ l.Shifted S p.poolBoundary d

namespace Owes

lemma split (h : l.Owes p d) : l.boundary.getD l.pageCount = p.poolBoundary := by
  rw [h.pageCount, h.boundary]
  rfl

lemma of_full (new : full p.highestPage p.debuggerBoundary = .ok l) : l.Owes p 0 := by
  have small : p.highestPage < 0xFFFFFFFF := by
    by_contra large
    rw [full, empty, checkedAdd, if_neg (by omega)] at new
    cases new
  obtain ⟨keeps, pageCount, boundary⟩ := IsNew.keeps (Or.inr ⟨new, rfl⟩) small
  exact ⟨pageCount, boundary, _, keeps, shifted_full small new⟩

lemma remove_none (h : l.Owes p d) (ok : l.remove r = .ok (none, l')) : l'.Owes p d := by
  obtain ⟨S, keeps, shifted⟩ := h.shifted
  cases keeps.of_remove_none ok
  exact h

lemma remove (h : l.Owes p d) (ok : l.remove r = .ok (some page, l')) :
    l'.Owes p (d + strayed p.poolBoundary page r.count) ∧ 0 < r.count := by
  obtain ⟨S, keeps, shifted⟩ := h.shifted
  rw [← h.split] at shifted
  have shifted' := shifted.remove keeps ok
  rw [h.split] at shifted'
  obtain ⟨pos, _, keeps', chain, rfl, _⟩ := keeps.of_remove_some ok
  exact ⟨⟨by simpa using h.pageCount, by simpa using h.boundary, _, keeps', shifted'⟩, pos⟩

/-- A single page lies on one side of the boundary. -/
lemma remove_page (h : l.Owes p d) (ok : l.remove r = .ok (some page, l'))
    (single : r.count = 1) : l'.Owes p d := by
  have sided : strayed p.poolBoundary page 1 = 0 := by
    unfold strayed
    split <;> omega
  have owes := (h.remove ok).1
  rw [single, sided] at owes
  exact (Int.add_zero d) ▸ owes

lemma movePages (h : l.Owes p d) (ok : l.movePages n = .ok l') : l'.Owes p (d - n) := by
  obtain ⟨S, keeps, general, debugger⟩ := h.shifted
  obtain ⟨_, moved, keeps', pageCount, boundary, spent⟩ :=
    keeps.movePages n (movePages_eq_ok ok).1
  cases ok.symm.trans moved
  have balanced := keeps.balanced
  have balanced' := keeps'.balanced
  refine ⟨pageCount.trans h.pageCount, boundary.trans h.boundary, S, keeps', ?_, ?_⟩
  · omega
  · omega

/-- Without a boundary nothing is charged to the debugger's pool. -/
lemma eq_zero (h : l.Owes p d) (none : p.debuggerBoundary = none) : d = 0 := by
  have split := h.split
  obtain ⟨S, keeps, _, debugger⟩ := h.shifted
  have roomy := keeps.roomy
  rw [h.boundary, none, Option.getD_none] at split roomy
  have high : above S p.poolBoundary = 0 := by
    refine Finset.card_eq_zero.mpr (Finset.filter_eq_empty_iff.mpr fun q mem => ?_)
    have := keeps.within q mem
    omega
  omega

/-- What the charge for the database leaves, once the pages past the boundary have been moved. -/
lemma overcharged (h : l.Owes p (strayed p.poolBoundary p.databasePage p.databasePages -
    (p.debuggerBoundary.elim 0 (p.databasePage + p.databasePages - ·) : Nat))) :
    l.Owes p (-p.overcharged) := by
  cases boundary : p.debuggerBoundary with
  | none =>
    have none : p.overcharged = 0 := by rw [Parameters.overcharged, boundary]
    rw [h.eq_zero boundary] at h
    rwa [none]
  | some b =>
    have drift : (strayed p.poolBoundary p.databasePage p.databasePages : Int) -
        (p.debuggerBoundary.elim 0 (p.databasePage + p.databasePages - ·) : Nat) =
          -p.overcharged := by
      rw [Parameters.overcharged, Parameters.poolBoundary, boundary, Option.elim_some,
        Option.getD_some, strayed]
      dsimp only
      split <;> split <;> omega
    rwa [← drift]

end Owes

end FreeList

namespace Manager

open FreeList (Owes strayed)

variable {α β : Type} {x : Step α} {f : α → Step β} {g : Manager → Step β} {s s' : Session}
  {p : Parameters} {P : FreeList → Prop} {Q : α → FreeList → Prop} {T : β → FreeList → Prop}
  {r : PageRequest} {a : α} {c : β} {d : Int}

lemma bind_eq_ok_iff : (x >>= f) s = .ok c s' ↔ ∃ a s₁, x s = .ok a s₁ ∧ f a s₁ = .ok c s' := by
  simp only [Bind.bind, EStateM.bind]
  cases x s with
  | ok a s₁ => simp
  | error e s₁ => simp

/-- From free pages of which `P` holds, with the numbers `p`, the step keeps these numbers and leads
to free pages of which `Q` holds, if it returns at all. -/
def Carries (p : Parameters) (P : FreeList → Prop) (x : Step α) (Q : α → FreeList → Prop) : Prop :=
  ∀ s a s', s.manager.parameters = p → P s.manager.freeList → x s = .ok a s' →
    s'.manager.parameters = p ∧ Q a s'.manager.freeList

/-- The step takes no pages and gives none back. -/
def Still (x : Step α) : Prop := ∀ p P, Carries p P x fun _ => P

namespace Carries

theorem bind (h : Carries p P x Q) (h' : ∀ a, Carries p (Q a) (f a) T) :
    Carries p P (x >>= f) T := by
  intro s c s' parameters holds ran
  obtain ⟨a, s₁, first, second⟩ := bind_eq_ok_iff.mp ran
  obtain ⟨parameters₁, holds₁⟩ := h s a s₁ parameters holds first
  exact h' a s₁ c s' parameters₁ holds₁ second

theorem mono {U : FreeList → Prop} {V : α → FreeList → Prop} (before : ∀ l, P l → U l)
    (h : Carries p U x V) (after : ∀ a l, V a l → Q a l) : Carries p P x Q := by
  intro s a s' parameters holds ran
  obtain ⟨parameters', holds'⟩ := h s a s' parameters (before _ holds) ran
  exact ⟨parameters', after a _ holds'⟩

theorem still (h : Still x) (h' : ∀ a, Carries p P (f a) T) : Carries p P (x >>= f) T :=
  (h p P).bind h'

theorem pure (h : ∀ l, P l → Q a l) : Carries p P (Pure.pure a) Q := by
  intro s a' s' parameters holds ran
  cases ran
  exact ⟨parameters, h _ holds⟩

theorem throw {e : Abort} : Carries p P (MonadExcept.throw e : Step α) Q := by
  intro s a s' _ _ ran
  have ended : EStateM.Result.error e s = .ok a s' := ran
  cases ended

theorem lift {y : Except Abort α} (h : ∀ a, y = .ok a → Carries p P (f a) T) :
    Carries p P ((liftM y : Step α) >>= f) T := by
  cases y with
  | error e =>
    intro s c s' _ _ ran
    have ended : EStateM.Result.error e s = .ok c s' := ran
    cases ended
  | ok a => exact h a rfl

theorem current (h : ∀ m, m.parameters = p → P m.freeList → Carries p P (g m) T) :
    Carries p P (Manager.current >>= g) T :=
  fun s c s' parameters holds ran => h s.manager parameters holds s c s' parameters holds ran

/-- A change of nothing but the free pages. -/
theorem setFree {m : Manager → Except Abort FreeList} {Q : FreeList → Prop}
    (h : ∀ n l', n.parameters = p → P n.freeList → m n = .ok l' → Q l') :
    Carries p P (change fun n => return { n with freeList := ← m n }) fun _ => Q := by
  intro s _ s' parameters holds ran
  rw [change_run] at ran
  cases free : m s.manager with
  | error e =>
    rw [free] at ran
    cases ran
  | ok l' =>
    rw [free] at ran
    cases ran
    exact ⟨parameters, h s.manager l' parameters holds free⟩

end Carries

namespace Still

theorem bind (h : Still x) (h' : ∀ a, Still (f a)) : Still (x >>= f) :=
  fun p P => (h p P).bind fun a => h' a p P

theorem pure : Still (Pure.pure a) := fun _ _ => .pure fun _ => id

theorem throw {e : Abort} : Still (MonadExcept.throw e : Step α) := fun _ _ => .throw

theorem lift {y : Except Abort α} : Still (liftM y : Step α) := by
  cases y with
  | error e => exact throw
  | ok a => exact pure

theorem current : Still Manager.current := by
  rintro p P s m s' parameters holds ran
  cases ran
  exact ⟨parameters, holds⟩

theorem note (n : Note) : Still (Manager.note n) := by
  rintro p P s m s' parameters holds ran
  cases ran
  exact ⟨parameters, holds⟩

theorem notes (ns : List Note) : Still (Manager.notes ns) := by
  induction ns with
  | nil => exact pure
  | cons n rest ih => exact (note n).bind fun _ => ih

theorem changeMemory (g : GuestMemory → Except Abort GuestMemory) :
    Still (Manager.changeMemory g) := by
  intro p P s _ s' parameters holds ran
  rw [Manager.changeMemory, change_run] at ran
  cases memory : g s.manager.memory with
  | error e =>
    rw [memory] at ran
    cases ran
  | ok memory' =>
    rw [memory] at ran
    cases ran
    exact ⟨parameters, holds⟩

theorem flush (first last : VirtualAddress) : Still (Manager.flush first last) := changeMemory _

theorem countBusy (t : PageType) : Still (Manager.countBusy t) := by
  intro p P s _ s' parameters holds ran
  rw [Manager.countBusy, change_run] at ran
  cases count : checkedAdd (s.manager.used t) 1 with
  | error e =>
    rw [count] at ran
    cases ran
  | ok n =>
    rw [count] at ran
    cases ran
    exact ⟨parameters, holds⟩

theorem readWord (va : VirtualAddress) : Still (Manager.readWord va) := by
  refine current.bind fun m => lift.bind fun (word, memory) => (changeMemory _).bind fun _ => ?_
  cases word with
  | ok w => exact pure
  | error fault => exact throw

theorem writeWord (va : VirtualAddress) (w : UInt32) : Still (Manager.writeWord va w) := by
  refine current.bind fun m => lift.bind fun stored => (changeMemory _).bind fun _ => ?_
  cases stored.fault with
  | none => exact pure
  | some fault => exact throw

theorem readEntry (va : VirtualAddress) : Still (Manager.readEntry va) :=
  (readWord va).bind fun _ => pure

theorem writeEntry (va : VirtualAddress) (e : Entry) : Still (Manager.writeEntry va e) :=
  (note _).bind fun _ => writeWord va _

theorem writeRecord (page : Nat) (r : PfnRecord) : Still (Manager.writeRecord page r) :=
  (note _).bind fun _ => (current.bind fun _ => lift).bind fun va => writeWord va _

theorem mapLargeFrom (template : Entry) (count index page : Nat) :
    Still (Manager.mapLargeFrom template count index page) := by
  induction count generalizing index page with
  | zero => exact pure
  | succ count ih => exact lift.bind fun _ => (changeMemory _).bind fun _ => ih _ _

theorem installDirectory : Still Manager.installDirectory :=
  (changeMemory _).bind fun _ => lift.bind fun _ => (changeMemory _).bind fun _ =>
    lift.bind fun _ => (mapLargeFrom _ _ _ _).bind fun _ => (mapLargeFrom _ _ _ _).bind fun _ =>
      note _

theorem mapDatabaseFrom (template : Entry) (count : Nat) (entry : VirtualAddress) (page : Nat) :
    Still (Manager.mapDatabaseFrom template count entry page) := by
  induction count generalizing entry page with
  | zero => exact pure
  | succ count ih => exact lift.bind fun _ => (writeEntry _ _).bind fun _ => ih _ _

theorem markDatabaseTables (used count : Nat) (entry : VirtualAddress) :
    Still (Manager.markDatabaseTables used count entry) := by
  induction count generalizing entry with
  | zero => exact pure
  | succ count ih =>
    exact (readEntry _).bind fun _ => lift.bind fun _ => (writeRecord _ _).bind fun _ =>
      (countBusy _).bind fun _ => ih _

theorem markBusyFrom (t : PageType) (count page : Nat) (entry : VirtualAddress) :
    Still (Manager.markBusyFrom t count page entry) := by
  induction count generalizing page entry with
  | zero => exact pure
  | succ count ih =>
    exact lift.bind fun _ => (writeRecord _ _).bind fun _ => (countBusy _).bind fun _ => ih _ _

end Still

/-- What is taken is taken from the free pages. -/
lemma Carries.take :
    Carries p P (Manager.take r) fun o l' => ∃ l, P l ∧ l.remove r = .ok (o, l') := by
  refine .current fun m parameters holds => .lift fun (o, l') taken => ?_
  refine Carries.bind (Q := fun _ l => l = l')
    (.setFree (m := fun _ => .ok l') fun _ l _ _ eq => ?_)
    fun _ => .still (.notes _) fun _ => .pure fun l eq => ?_
  · cases eq
    rfl
  · exact ⟨m.freeList, holds, eq ▸ taken⟩

lemma carries_takeTablePage : Carries p (Owes p d) takeTablePage fun _ => Owes p d := by
  refine .current fun m _ _ => ?_
  intro s o s' parameters holds ran
  obtain ⟨parameters', l, owes, taken⟩ := Carries.take s o s' parameters holds ran
  refine ⟨parameters', ?_⟩
  cases o with
  | none => exact owes.remove_none taken
  | some page => exact owes.remove_page taken rfl

lemma carries_installDatabaseTables (count : Nat) (entry : VirtualAddress) :
    Carries p (Owes p d) (installDatabaseTables count entry) fun _ => Owes p d := by
  induction count generalizing entry with
  | zero => exact .pure fun _ => id
  | succ count ih =>
    refine carries_takeTablePage.bind fun table => ?_
    cases table with
    | none => exact .throw
    | some table =>
      exact .lift fun _ _ => .still (.writeEntry _ _) fun _ =>
        .still (.changeMemory _) fun _ => ih _

lemma carries_chargeDatabase (last : Nat) : Carries p (Owes p d) (chargeDatabase last) fun _ =>
    Owes p (d - (p.debuggerBoundary.elim 0 (last + 1 - ·) : Nat)) := by
  refine .current fun m parameters _ => ?_
  rw [parameters]
  cases p.debuggerBoundary with
  | none => exact .pure fun l owes => (Int.sub_zero d).symm ▸ owes
  | some b =>
    dsimp only [Option.elim_some]
    split
    · next beyond =>
      refine .lift fun pages eq => .setFree fun n l' _ owes moved => ?_
      have size : pages = last + 1 - b := by
        have := (checkedAdd_eq_ok.mp eq).1
        omega
      exact size ▸ owes.movePages moved
    · next below =>
      have none : last + 1 - b = 0 := by omega
      rw [none]
      exact .pure fun l owes => (Int.sub_zero d).symm ▸ owes

/-- The charge for the database, past the boundary or not, and its correction. -/
lemma carries_installDatabase : Carries p (Owes p 0) installDatabase fun _ l =>
    Owes p (-p.overcharged) l ∧ 0 < p.databasePages := by
  refine .current fun m parameters _ => ?_
  rw [parameters]
  refine .lift fun base _ => .lift fun bytes _ => .lift fun _ _ => ?_
  refine (carries_installDatabaseTables _ _).bind fun _ => .lift fun last eq => ?_
  obtain ⟨past, sum, difference⟩ := bind_eq_ok.mp eq
  have sum := (checkedAdd_eq_ok.mp sum).1
  have difference := checkedSub_eq_ok.mp difference
  refine Carries.take.bind fun first => ?_
  split
  · next own =>
    cases beq_iff_eq.mp own
    by_cases nonempty : 0 < p.databasePages
    · refine .mono (U := Owes p (0 + strayed p.poolBoundary p.databasePage p.databasePages))
        (fun l' ⟨l, owes, taken⟩ => (owes.remove taken).1) ?_
        fun _ _ owes => And.intro owes nonempty
      refine .lift fun template _ => .still (.mapDatabaseFrom _ _ _ _) fun _ => .lift fun _ _ =>
        .still (.flush _ _) fun _ => ?_
      refine (carries_chargeDatabase last).bind fun _ => .still (.changeMemory _) fun _ =>
        .still (.markDatabaseTables _ _ _) fun _ => .still (.markBusyFrom _ _ _ _) fun _ => ?_
      refine .mono (fun l owes => ?_) (Still.note _ p (Owes p (-p.overcharged))) fun _ _ => id
      have size : last + 1 = p.databasePage + p.databasePages := by omega
      rw [size, Int.zero_add] at owes
      exact owes.overcharged
    · exact .mono (fun l' ⟨l, owes, taken⟩ => absurd (owes.remove taken).2 nonempty)
        (U := fun _ => False) (fun _ _ _ _ never _ => never.elim) fun _ _ => id
  · exact .throw

lemma carries_boot : Carries p (Owes p 0) boot fun _ l =>
    Owes p (-p.overcharged) l ∧ 0 < p.databasePages := by
  refine .current fun m _ _ => .still (.note _) fun _ => Carries.take.bind fun first => ?_
  split
  · next own =>
    cases beq_iff_eq.mp own
    refine .mono (U := Owes p 0) (fun l' ⟨l, owes, taken⟩ => owes.remove_page taken rfl) ?_
      fun _ _ => id
    refine .still .installDirectory fun _ => carries_installDatabase.bind fun _ =>
      .still (.markBusyFrom _ _ _ _) fun _ => .current fun m _ _ => Still.note _ p _
  · exact .throw

end Manager

variable {memory : GuestMemory} {l : Layout} {p : Parameters} {m : Manager} {s : Session}
  {trail : Array Note}

/-- What the counters of a session that came up say of its free pages. -/
lemma Session.pools_after_boot (created : Manager.create memory l p = .ok m)
    (booted : Manager.boot ⟨m, trail⟩ = .ok () s) :
    ∃ S : Finset Nat, (∀ q, q ∈ S ↔ q ∈ s.manager.freeList) ∧
      s.manager.available = FreeList.below S p.poolBoundary + p.overcharged ∧
      s.manager.debuggerAvailable + p.overcharged = FreeList.above S p.poolBoundary ∧
      0 < p.databasePages := by
  obtain ⟨_, created⟩ := require_bind_eq_ok.mp created
  obtain ⟨free, new, created⟩ := bind_eq_ok.mp created
  cases created
  obtain ⟨_, owes, nonempty⟩ :=
    Manager.carries_boot (p := p) _ () s rfl (FreeList.Owes.of_full new) booted
  obtain ⟨S, keeps, general, debugger⟩ := owes.shifted
  refine ⟨S, fun q => keeps.runs.mem q, ?_, ?_, nonempty⟩
  · rw [Manager.available]
    omega
  · rw [Manager.debuggerAvailable]
    omega

/-- Whatever the numbers of the layout, once a session has come up its counters are the free pages
on the two sides of the boundary, but for the database if that begins in the debugger's pool: the
general pool then has as many pages too many as the database has from the boundary on, and the
debugger's as many too few. So the counters are right just where there is no boundary or it lies
past the first page of the database. -/
theorem boot_counts_pools (created : Manager.create memory l p = .ok m)
    (booted : Manager.boot ⟨m, trail⟩ = .ok () s) :
    ∃ S : Finset Nat, (∀ q, q ∈ S ↔ q ∈ s.manager.freeList) ∧
      s.manager.available = FreeList.below S p.poolBoundary + p.overcharged ∧
      s.manager.debuggerAvailable + p.overcharged = FreeList.above S p.poolBoundary ∧
      (s.manager.available = FreeList.below S p.poolBoundary ∧
          s.manager.debuggerAvailable = FreeList.above S p.poolBoundary ↔
        ∀ b, p.debuggerBoundary = some b → p.databasePage < b) := by
  obtain ⟨S, free, general, debugger, nonempty⟩ := Session.pools_after_boot created booted
  refine ⟨S, free, general, debugger, ?_⟩
  rw [← Parameters.overcharged_eq_zero nonempty]
  constructor
  · rintro ⟨right, _⟩
    omega
  · intro none
    constructor <;> omega

/-- A development kit, whose database lies on both sides of the boundary. -/
theorem boot_counts_pools_debug :
    ∃ m s, Manager.create ⟨⟨0x8000000, .uniform 0xA5, by decide, by decide, by decide⟩, .caching []⟩
        .debug Layout.debug.parameters = .ok m ∧ Manager.boot ⟨m, #[]⟩ = .ok () s ∧
      ∃ S : Finset Nat, (∀ q, q ∈ S ↔ q ∈ s.manager.freeList) ∧
        s.manager.available = FreeList.below S 0x4000 ∧
        s.manager.debuggerAvailable = FreeList.above S 0x4000 := by
  have size : Layout.debug.parameters.ramSize ≤
      (⟨0x8000000, .uniform 0xA5, by decide, by decide, by decide⟩ : Ram).size := by decide
  obtain ⟨c, comes⟩ := Session.exists_boot .debug size #[]
  obtain ⟨m, s, created, booted, _⟩ := comes _ Tlb.fresh_caching
  obtain ⟨S, free, _, _, right⟩ := boot_counts_pools created booted
  refine ⟨m, s, created, booted, S, free, right.mpr fun b boundary => ?_⟩
  cases boundary
  decide

/-- A development kit whose boundary is the first page of the database. The general pool counts the
database's 32 pages, which are not free, and the debugger's pool lacks 32 that are. -/
theorem pools_differ_past_boundary :
    ∃ m s, Manager.create ⟨⟨0x8000000, .uniform 0, by decide, by decide, by decide⟩, .counting 0⟩
        .debug { Layout.debug.parameters with debuggerBoundary := some 0x3FF0 } = .ok m ∧
      Manager.boot ⟨m, #[]⟩ = .ok () s ∧
      ∃ S : Finset Nat, (∀ q, q ∈ S ↔ q ∈ s.manager.freeList) ∧
        s.manager.available = FreeList.below S 0x3FF0 + 32 ∧
        s.manager.debuggerAvailable + 32 = FreeList.above S 0x3FF0 := by
  have comes : Layout.debug.passes
      ⟨⟨0x8000000, .uniform 0, by decide, by decide, by decide⟩, .counting 0⟩
      { Layout.debug.parameters with debuggerBoundary := some 0x3FF0 } (fun _ => true) = true := by
    decide +kernel
  obtain ⟨m, s, created, booted, _⟩ := Layout.exists_of_passes comes
  obtain ⟨S, free, general, debugger, _⟩ := Session.pools_after_boot created booted
  exact ⟨m, s, created, booted, S, free, general, debugger⟩

end ConsoleMemory
