import ConsoleMemory.Proofs.Paging.Flags
import Mathlib.Tactic.IntervalCases

/-!
# Rules for requests of protection

The rules are data, in the order in which they are checked. The levels of access of
either kind are read as one number: that it is a power of two says that one level
alone is asked for.
-/

namespace ConsoleMemory.Protection

variable {p : Protection} {e : Entry} {level : Protection.Flag}

/-! ### Levels of access -/

def plainLevels : List Flag := [.noAccess, .readOnly, .readWrite, .writeCopy]

def executableLevels : List Flag := [.execute, .executeRead, .executeReadWrite, .executeWriteCopy]

/-- All levels but those that copy on write. -/
def supportedLevels : List Flag :=
  [.noAccess, .readOnly, .readWrite, .execute, .executeRead, .executeReadWrite]

def accessLevels : List Flag := plainLevels ++ executableLevels

/-- Of all levels the request holds this one alone. -/
def AsksFor (p : Protection) (level : Flag) : Prop :=
  ∀ f ∈ accessLevels, p.has f = true ↔ f = level

/-- The plain level with the same effect, as execution is not enforced. -/
def Flag.effect : Flag → Flag
  | .execute | .executeRead => .readOnly
  | .executeReadWrite => .readWrite
  | f => f

/-- The request with each flag replaced by the one that has its effect. -/
def effect (p : Protection) : Protection := ofFlags ((Flag.all.filter p.has).map Flag.effect)

/-- The levels asked for as a number, the lowest level of either kind being one. -/
def levelNumber (p : Protection) : Nat := p.bits.toNat % 16 + p.bits.toNat / 16 % 16

/-! ### Rules -/

/-- What a request must keep, and the error for one that does not. -/
structure Rule where
  Keeps : Protection → Prop
  error : Protection → ProtectionError

namespace Rule

def knownFlags : Rule where
  Keeps p := p.bits.toNat ≤ 0x7FF
  error p := .unknownFlags p.unknownBits

/-- No access is asked for without any modifier. -/
def bareNoAccess : Rule where
  Keeps p := p.has .noAccess = true →
    p.has .guardPage = false ∧ p.has .noCache = false ∧ p.has .writeCombine = false
  error _ := .noAccessWithModifiers

def oneCacheMode : Rule where
  Keeps p := ¬ (p.has .noCache = true ∧ p.has .writeCombine = true)
  error _ := .conflictingCacheModes

/-- Either plain levels are asked for or executable ones. -/
def oneKindOfLevel : Rule where
  Keeps p := (∃ f ∈ plainLevels, p.has f = true) ↔ ¬ ∃ f ∈ executableLevels, p.has f = true
  error _ := .ambiguousAccess

/-- Of the levels of that kind one alone is asked for, and it is a supported one. -/
def oneSupportedLevel : Rule where
  Keeps p := ∃ level ∈ supportedLevels, p.AsksFor level
  error p := .unsupportedAccess p.levelNumber

/-- Each bit is one of these flags. -/
def systemFlags : Rule where
  Keeps p := ∀ i, p.bits.toNat.testBit i = true →
    ∃ f ∈ [Flag.readOnly, .readWrite, .noCache, .writeCombine], f.position = i
  error p := .unknownFlags p.disallowedBits

def oneSystemLevel : Rule where
  Keeps p := p.has .readOnly = true ↔ ¬ p.has .readWrite = true
  error _ := .ambiguousAccess

end Rule

/-- The rules for user code. -/
def userRules : List Rule :=
  [.knownFlags, .bareNoAccess, .oneCacheMode, .oneKindOfLevel, .oneSupportedLevel]

/-- The rules for the kernel. -/
def systemRules : List Rule := [.systemFlags, .oneSystemLevel, .oneCacheMode]

/-- The request keeps some of the rules and breaks the next one, whose error this is. -/
def BreaksFirst (p : Protection) (rules : List Rule) (err : ProtectionError) : Prop :=
  ∃ before r after, rules = before ++ r :: after ∧ (∀ q ∈ before, q.Keeps p) ∧ ¬ r.Keeps p ∧
    err = r.error p

lemma not_breaksFirst_nil {err : ProtectionError} : ¬ p.BreaksFirst [] err := by
  rintro ⟨before, r, after, eq, _⟩
  cases before <;> cases eq

lemma breaksFirst_cons {r : Rule} {rules : List Rule} {err : ProtectionError} :
    p.BreaksFirst (r :: rules) err ↔
      ¬ r.Keeps p ∧ err = r.error p ∨ r.Keeps p ∧ p.BreaksFirst rules err := by
  constructor
  · rintro ⟨before, q, after, eq, kept, broken, same⟩
    cases before with
    | nil =>
      cases eq
      exact Or.inl ⟨broken, same⟩
    | cons d before =>
      cases eq
      refine Or.inr ⟨kept _ List.mem_cons_self, before, q, after, rfl, ?_, broken, same⟩
      exact fun q hq => kept q (List.mem_cons_of_mem _ hq)
  · rintro (⟨broken, same⟩ | ⟨keeps, before, q, after, rfl, kept, broken, same⟩)
    · exact ⟨[], r, rules, rfl, nofun, broken, same⟩
    · exact ⟨r :: before, q, after, rfl, List.forall_mem_cons.mpr ⟨keeps, kept⟩, broken, same⟩

/-- Where no rule is broken first, none is broken. -/
lemma keeps_of_not_breaksFirst {rules : List Rule} (kept : ∀ err, ¬ p.BreaksFirst rules err) :
    ∀ r ∈ rules, r.Keeps p := by
  induction rules with
  | nil => nofun
  | cons r rules ih =>
    simp only [breaksFirst_cons, not_or, not_and] at kept
    have keeps : r.Keeps p := by
      by_contra broken
      exact (kept _).1 broken rfl
    exact List.forall_mem_cons.mpr ⟨keeps, ih fun err => (kept err).2 keeps⟩

/-- What is granted breaks no rule. -/
lemma keeps_of_ok {rules : List Rule} {result : Except ProtectionError Entry}
    (refused : ∀ err, result = .error err ↔ p.BreaksFirst rules err) (ok : result = .ok e) :
    ∀ r ∈ rules, r.Keeps p := by
  refine keeps_of_not_breaksFirst fun err broken => ?_
  cases ok.symm.trans ((refused err).mpr broken)

/-! ### The level asked for -/

/-- Some levels as a number, the first of them being one. -/
def number (p : Protection) : List Flag → Nat
  | [] => 0
  | f :: rest => (p.has f).toNat + 2 * p.number rest

variable {levels : List Flag}

lemma number_eq_zero_iff : p.number levels = 0 ↔ ∀ f ∈ levels, p.has f = false := by
  induction levels with
  | nil => simp [number]
  | cons f rest ih =>
    rw [number, List.forall_mem_cons, ← ih]
    cases p.has f with
    | false => simp
    | true => simp

lemma number_ne_zero_iff : p.number levels ≠ 0 ↔ ∃ f ∈ levels, p.has f = true := by
  simp [number_eq_zero_iff]

lemma number_eq_zero_iff_of_notMem (other : level ∉ levels) :
    p.number levels = 0 ↔ ∀ f ∈ levels, p.has f = true ↔ f = level := by
  rw [number_eq_zero_iff]
  refine forall₂_congr fun f hf => ?_
  have ne : f ≠ level := fun e => other (e ▸ hf)
  simp [ne]

/-- A power of two stands for one level alone. -/
lemma number_eq_pow_iff (distinct : levels.Nodup) {k : Nat} (place : levels[k]? = some level) :
    p.number levels = 2 ^ k ↔ ∀ f ∈ levels, p.has f = true ↔ f = level := by
  induction levels generalizing k with
  | nil => cases place
  | cons f rest ih =>
    obtain ⟨fresh, distinct⟩ := List.nodup_cons.mp distinct
    rw [number, List.forall_mem_cons]
    -- The first level is the lowest bit: the number is odd just where it is asked for.
    cases k with
    | zero =>
      obtain rfl : f = level := Option.some.inj place
      rw [← number_eq_zero_iff_of_notMem fresh]
      have even : 2 * p.number rest ≠ 1 := by omega
      cases p.has f with
      | false => simp [even]
      | true => simp
    | succ k =>
      have ne : f ≠ level := fun e => fresh (e ▸ List.mem_of_getElem? place)
      rw [← ih distinct place, Nat.pow_succ]
      cases p.has f with
      | false => simp [ne]; omega
      | true => simp [ne]; omega

lemma asksFor_iff_of_plain {k : Nat} (place : plainLevels[k]? = some level) :
    p.AsksFor level ↔ p.number plainLevels = 2 ^ k ∧ p.number executableLevels = 0 := by
  have apart : ∀ f ∈ plainLevels, f ∉ executableLevels := by decide
  rw [AsksFor, accessLevels, List.forall_mem_append, number_eq_pow_iff (by decide) place,
    number_eq_zero_iff_of_notMem (apart _ (List.mem_of_getElem? place))]

lemma asksFor_iff_of_executable {k : Nat} (place : executableLevels[k]? = some level) :
    p.AsksFor level ↔ p.number plainLevels = 0 ∧ p.number executableLevels = 2 ^ k := by
  have apart : ∀ f ∈ executableLevels, f ∉ plainLevels := by decide
  rw [AsksFor, accessLevels, List.forall_mem_append, number_eq_pow_iff (by decide) place,
    number_eq_zero_iff_of_notMem (apart _ (List.mem_of_getElem? place))]

lemma mod_sixteen (n : Nat) :
    n % 16 = (n.testBit 0).toNat + 2 * ((n.testBit 1).toNat + 2 * ((n.testBit 2).toNat +
      2 * ((n.testBit 3).toNat + 2 * 0))) := by
  simp only [Nat.toNat_testBit]
  omega

lemma plain_eq : p.bits.toNat % 16 = p.number plainLevels := mod_sixteen _

lemma executable_eq : p.bits.toNat / 16 % 16 = p.number executableLevels := by
  rw [mod_sixteen, show 16 = 2 ^ 4 from rfl]
  simp only [Nat.testBit_div_two_pow]
  rfl

lemma oneKindOfLevel_iff :
    Rule.oneKindOfLevel.Keeps p ↔
      (p.number plainLevels ≠ 0 ↔ ¬ p.number executableLevels ≠ 0) :=
  (iff_congr number_ne_zero_iff (not_congr number_ne_zero_iff)).symm

lemma mem_supportedLevels_iff :
    level ∈ supportedLevels ↔
      ∃ k < 3, plainLevels[k]? = some level ∨ executableLevels[k]? = some level := by
  cases level <;> decide

/-- The third level of either kind is the one that writes. -/
lemma effect_eq_readWrite {k : Nat} (small : k < 3)
    (place : plainLevels[k]? = some level ∨ executableLevels[k]? = some level) :
    decide (level.effect = .readWrite) = decide (k = 2) := by
  revert place
  interval_cases k <;> cases level <;> decide

lemma AsksFor.number_eq {k : Nat} (asks : p.AsksFor level)
    (place : plainLevels[k]? = some level ∨ executableLevels[k]? = some level) :
    p.number plainLevels = 2 ^ k ∧ p.number executableLevels = 0 ∨
      p.number plainLevels = 0 ∧ p.number executableLevels = 2 ^ k :=
  place.imp (fun place => (asksFor_iff_of_plain place).mp asks)
    (fun place => (asksFor_iff_of_executable place).mp asks)

lemma exists_asksFor {k : Nat} (small : k < 3)
    (single : p.number plainLevels = 2 ^ k ∧ p.number executableLevels = 0 ∨
      p.number plainLevels = 0 ∧ p.number executableLevels = 2 ^ k) :
    ∃ level, (plainLevels[k]? = some level ∨ executableLevels[k]? = some level) ∧
      p.AsksFor level := by
  rcases single with plain | executable
  · have place : plainLevels[k]? = some _ := List.getElem?_eq_getElem (Nat.lt_succ_of_lt small)
    exact ⟨_, Or.inl place, (asksFor_iff_of_plain place).mpr plain⟩
  · have place : executableLevels[k]? = some _ :=
      List.getElem?_eq_getElem (Nat.lt_succ_of_lt small)
    exact ⟨_, Or.inr place, (asksFor_iff_of_executable place).mpr executable⟩

lemma writable?_eq :
    p.writable? =
      if p.number plainLevels = 0 ↔ p.number executableLevels = 0 then .error .ambiguousAccess
      else match p.number plainLevels + p.number executableLevels with
        | 1 | 2 => .ok false
        | 4 => .ok true
        | number => .error (.unsupportedAccess number) := by
  rw [writable?, plain_eq, executable_eq]
  refine if_congr ?_ rfl rfl
  rw [beq_iff_eq, Bool.eq_iff_iff, beq_iff_eq, beq_iff_eq]

lemma writable?_of_two_kinds (kinds : ¬ Rule.oneKindOfLevel.Keeps p) :
    p.writable? = .error .ambiguousAccess := by
  rw [oneKindOfLevel_iff] at kinds
  rw [writable?_eq, if_pos (by omega)]

lemma writable?_of_asksFor (supported : level ∈ supportedLevels) (asks : p.AsksFor level) :
    p.writable? = .ok (level.effect = .readWrite) := by
  obtain ⟨k, small, place⟩ := mem_supportedLevels_iff.mp supported
  rw [effect_eq_readWrite small place, writable?_eq]
  rcases asks.number_eq place with ⟨plain, executable⟩ | ⟨plain, executable⟩
  · rw [plain, executable]
    interval_cases k <;> rfl
  · rw [plain, executable]
    interval_cases k <;> rfl

lemma writable?_of_unsupported (kind : Rule.oneKindOfLevel.Keeps p)
    (unsupported : ¬ Rule.oneSupportedLevel.Keeps p) :
    p.writable? = .error (.unsupportedAccess p.levelNumber) := by
  have single : ∀ k < 3, ¬ (p.number plainLevels = 2 ^ k ∧ p.number executableLevels = 0 ∨
      p.number plainLevels = 0 ∧ p.number executableLevels = 2 ^ k) := by
    intro k small single
    obtain ⟨level, place, asks⟩ := exists_asksFor small single
    exact unsupported ⟨level, mem_supportedLevels_iff.mpr ⟨k, small, place⟩, asks⟩
  -- One, two and four are the numbers of a single supported level.
  have one := single 0 (by decide)
  have two := single 1 (by decide)
  have four := single 2 (by decide)
  rw [oneKindOfLevel_iff] at kind
  rw [levelNumber, plain_eq, executable_eq, writable?_eq, if_neg (by omega)]
  split
  · omega
  · omega
  · omega
  · rfl

end ConsoleMemory.Protection
