import ConsoleMemory.Proofs.Paging.Rules

/-!
# Granting and refusing protections

A request is granted where it keeps all rules, and refused for the first one it
breaks. What an entry grants is read back as the request itself, with executable
levels replaced by the plain ones that have the same effect.
-/

namespace ConsoleMemory.Protection

variable {p : Protection} {e : Entry} {level : Protection.Flag}

/-! ### Entries for user code -/

/-- What a request is granted where it keeps all rules. -/
def granted (p : Protection) (write : Bool) : Entry :=
  Entry.granting write (!p.has .noAccess && !p.has .guardPage) (p.has .guardPage)
    (p.has .noCache) (p.has .writeCombine)

lemma knownFlags_iff : Rule.knownFlags.Keeps p ↔ p.isKnown = true := by
  rw [isKnown_iff_lt]
  exact Nat.lt_succ_iff.symm

lemma bareNoAccess_iff :
    Rule.bareNoAccess.Keeps p ↔
      ¬ (p.has .noAccess &&
        (p.has .guardPage || p.has .noCache || p.has .writeCombine)) = true := by
  simp only [Rule.bareNoAccess, Bool.and_eq_true, Bool.or_eq_true, ← Bool.not_eq_true]
  tauto

lemma oneCacheMode_iff :
    Rule.oneCacheMode.Keeps p ↔ ¬ (p.has .noCache && p.has .writeCombine) = true := by
  rw [Bool.and_eq_true]
  exact Iff.rfl

lemma userEntry_of_unknown (unknown : ¬ Rule.knownFlags.Keeps p) :
    p.userEntry = .error (Rule.knownFlags.error p) := by
  rw [knownFlags_iff] at unknown
  rw [userEntry, if_neg unknown]
  rfl

lemma userEntry_of_modified (known : Rule.knownFlags.Keeps p)
    (modified : ¬ Rule.bareNoAccess.Keeps p) :
    p.userEntry = .error (Rule.bareNoAccess.error p) := by
  rw [knownFlags_iff] at known
  rw [bareNoAccess_iff, not_not] at modified
  rw [userEntry, if_pos known, if_pos modified]
  rfl

lemma userEntry_of_conflict (known : Rule.knownFlags.Keeps p) (bare : Rule.bareNoAccess.Keeps p)
    (conflict : ¬ Rule.oneCacheMode.Keeps p) :
    p.userEntry = .error (Rule.oneCacheMode.error p) := by
  rw [knownFlags_iff] at known
  rw [bareNoAccess_iff] at bare
  rw [oneCacheMode_iff, not_not] at conflict
  rw [userEntry, if_pos known, if_neg bare, if_pos conflict]
  rfl

lemma userEntry_of_writable? (known : Rule.knownFlags.Keeps p) (bare : Rule.bareNoAccess.Keeps p)
    (cache : Rule.oneCacheMode.Keeps p) : p.userEntry = p.writable?.map p.granted := by
  rw [knownFlags_iff] at known
  rw [bareNoAccess_iff] at bare
  rw [oneCacheMode_iff] at cache
  rw [userEntry, if_pos known, if_neg bare, if_neg cache]
  cases p.writable? <;> rfl

lemma userEntry_of_two_kinds (known : Rule.knownFlags.Keeps p) (bare : Rule.bareNoAccess.Keeps p)
    (cache : Rule.oneCacheMode.Keeps p) (kinds : ¬ Rule.oneKindOfLevel.Keeps p) :
    p.userEntry = .error (Rule.oneKindOfLevel.error p) := by
  rw [userEntry_of_writable? known bare cache, writable?_of_two_kinds kinds]
  rfl

lemma userEntry_of_unsupported (known : Rule.knownFlags.Keeps p) (bare : Rule.bareNoAccess.Keeps p)
    (cache : Rule.oneCacheMode.Keeps p) (kind : Rule.oneKindOfLevel.Keeps p)
    (unsupported : ¬ Rule.oneSupportedLevel.Keeps p) :
    p.userEntry = .error (Rule.oneSupportedLevel.error p) := by
  rw [userEntry_of_writable? known bare cache, writable?_of_unsupported kind unsupported]
  rfl

lemma userEntry_of_supported (known : Rule.knownFlags.Keeps p) (bare : Rule.bareNoAccess.Keeps p)
    (cache : Rule.oneCacheMode.Keeps p) (supported : level ∈ supportedLevels)
    (asks : p.AsksFor level) : p.userEntry = .ok (p.granted (level.effect = .readWrite)) := by
  rw [userEntry_of_writable? known bare cache, writable?_of_asksFor supported asks]
  rfl

/-- A request is refused for the first rule it breaks. -/
theorem userEntry_eq_error_iff {err : ProtectionError} :
    p.userEntry = .error err ↔ p.BreaksFirst userRules err := by
  simp only [userRules, breaksFirst_cons, not_breaksFirst_nil, and_false, or_false]
  by_cases known : Rule.knownFlags.Keeps p
  swap
  · simp [userEntry_of_unknown known, known, eq_comm]
  by_cases bare : Rule.bareNoAccess.Keeps p
  swap
  · simp [userEntry_of_modified known bare, known, bare, eq_comm]
  by_cases cache : Rule.oneCacheMode.Keeps p
  swap
  · simp [userEntry_of_conflict known bare cache, known, bare, cache, eq_comm]
  by_cases kind : Rule.oneKindOfLevel.Keeps p
  swap
  · simp [userEntry_of_two_kinds known bare cache kind, known, bare, cache, kind, eq_comm]
  by_cases supported : Rule.oneSupportedLevel.Keeps p
  swap
  · simp [userEntry_of_unsupported known bare cache kind supported, known, bare, cache, kind,
      supported, eq_comm]
  obtain ⟨level, mem, asks⟩ := id supported
  simp [userEntry_of_supported known bare cache mem asks, known, bare, cache, kind, supported]

/-- One supported level, with modifiers that go together. -/
structure Grantable (p : Protection) : Prop where
  known : p.bits.toNat ≤ 0x7FF
  level : ∃ level ∈ supportedLevels, p.AsksFor level
  cache : ¬ (p.has .noCache = true ∧ p.has .writeCombine = true)
  bare : p.has .noAccess = true →
    p.has .guardPage = false ∧ p.has .noCache = false ∧ p.has .writeCombine = false

lemma Grantable.userEntry_eq (h : p.Grantable) (supported : level ∈ supportedLevels)
    (asks : p.AsksFor level) : p.userEntry = .ok (p.granted (level.effect = .readWrite)) :=
  userEntry_of_supported h.known h.bare h.cache supported asks

lemma grantable_of_userEntry (ok : p.userEntry = .ok e) : p.Grantable := by
  have keeps := keeps_of_ok (fun _ => userEntry_eq_error_iff) ok
  simp only [userRules, List.forall_mem_cons] at keeps
  obtain ⟨known, bare, cache, _, supported, _⟩ := keeps
  exact ⟨known, supported, cache, bare⟩

lemma granted_of_userEntry (ok : p.userEntry = .ok e) :
    ∃ level ∈ supportedLevels, p.AsksFor level ∧ p.granted (level.effect = .readWrite) = e := by
  have h := grantable_of_userEntry ok
  obtain ⟨level, supported, asks⟩ := h.level
  cases (h.userEntry_eq supported asks).symm.trans ok
  exact ⟨level, supported, asks, rfl⟩

/-! ### What an entry is read back as -/

lemma has_ofEntry (f : Flag) :
    (ofEntry e).has f =
      match f with
      | .noAccess => !e.valid && !e.has .guardPage
      | .readOnly => (e.valid || e.has .guardPage) && !e.has .write
      | .readWrite => (e.valid || e.has .guardPage) && e.has .write
      | .guardPage => !e.valid && e.has .guardPage
      | .noCache => e.has .cacheDisable
      | .writeCombine => !e.has .cacheDisable && e.has .writeThrough
      | _ => false := by
  rw [ofEntry, has_ofFlags]
  cases e.valid <;> cases e.has .guardPage <;> cases e.has .write <;> cases e.has .cacheDisable <;>
    cases e.has .writeThrough <;> cases f <;> rfl

lemma isKnown_ofEntry : (ofEntry e).isKnown = true := isKnown_ofFlags

lemma has_effect_iff {f : Flag} : p.effect.has f = true ↔ ∃ g, p.has g = true ∧ g.effect = f := by
  have mem_all : ∀ g, g ∈ Flag.all := by
    intro g
    cases g <;> decide
  simp [effect, mem_all]

lemma Flag.effect_mem_accessLevels {f : Flag} : f.effect ∈ accessLevels ↔ f ∈ accessLevels := by
  cases f <;> decide

lemma Flag.effect_of_notMem {f : Flag} (modifier : f ∉ accessLevels) : f.effect = f := by
  cases f <;> first | rfl | exact absurd (by decide) modifier

/-- Of a level nothing is left but its effect; modifiers are kept. -/
lemma AsksFor.has_effect (asks : p.AsksFor level) (access : level ∈ accessLevels) (f : Flag) :
    p.effect.has f = if f ∈ accessLevels then decide (level.effect = f) else p.has f := by
  rw [Bool.eq_iff_iff, has_effect_iff]
  split
  · next mem =>
    rw [decide_eq_true_iff]
    constructor
    · rintro ⟨g, has, rfl⟩
      rw [(asks g (Flag.effect_mem_accessLevels.mp mem)).mp has]
    · rintro rfl
      exact ⟨level, (asks level access).mpr rfl, rfl⟩
  · next modifier =>
    constructor
    · rintro ⟨g, has, rfl⟩
      rwa [Flag.effect_of_notMem fun mem => modifier (Flag.effect_mem_accessLevels.mpr mem)]
    · intro has
      exact ⟨f, has, Flag.effect_of_notMem modifier⟩

lemma mem_accessLevels (supported : level ∈ supportedLevels) : level ∈ accessLevels := by
  revert supported
  cases level <;> decide

/-- Beside no access there are two effects. -/
lemma effect_cases (supported : level ∈ supportedLevels) :
    level = .noAccess ∧ level.effect = .noAccess ∨
      level ≠ .noAccess ∧ (level.effect = .readOnly ∨ level.effect = .readWrite) := by
  revert supported
  cases level <;> decide

lemma Grantable.has_ofEntry_granted (h : p.Grantable) (write : Bool) (f : Flag) :
    (ofEntry (p.granted write)).has f =
      match f with
      | .noAccess => p.has .noAccess
      | .readOnly => !p.has .noAccess && !write
      | .readWrite => !p.has .noAccess && write
      | .guardPage => p.has .guardPage
      | .noCache => p.has .noCache
      | .writeCombine => p.has .writeCombine
      | _ => false := by
  have bare : p.has .noAccess = true → p.has .guardPage = false := fun none => (h.bare none).1
  have cache := h.cache
  -- The entry is valid or for a guard page just where some access is asked for.
  have none : (!(!p.has .noAccess && !p.has .guardPage) && !p.has .guardPage) =
      p.has .noAccess := by
    revert bare
    cases p.has .noAccess <;> cases p.has .guardPage <;> decide
  have some : (!p.has .noAccess && !p.has .guardPage || p.has .guardPage) = !p.has .noAccess := by
    revert bare
    cases p.has .noAccess <;> cases p.has .guardPage <;> decide
  have guarded : (!(!p.has .noAccess && !p.has .guardPage) && p.has .guardPage) =
      p.has .guardPage := by
    cases p.has .noAccess <;> cases p.has .guardPage <;> decide
  have combined : (!p.has .noCache && p.has .writeCombine) = p.has .writeCombine := by
    revert cache
    cases p.has .noCache <;> cases p.has .writeCombine <;> decide
  rw [has_ofEntry]
  simp only [granted, Entry.valid, Entry.has_granting, none, some, guarded, combined]

/-- What is granted is read back as the effect of the request. -/
theorem Grantable.ofEntry_granted (h : p.Grantable) (supported : level ∈ supportedLevels)
    (asks : p.AsksFor level) : ofEntry (p.granted (level.effect = .readWrite)) = p.effect := by
  refine ext_of_isKnown isKnown_ofEntry isKnown_ofFlags fun f => ?_
  have access : p.has .noAccess = decide (level = .noAccess) := by
    rw [Bool.eq_iff_iff, asks .noAccess (by decide), decide_eq_true_iff, eq_comm]
  rw [h.has_ofEntry_granted, asks.has_effect (mem_accessLevels supported), access]
  rcases effect_cases supported with ⟨rfl, _⟩ | ⟨some, effect | effect⟩
  · cases f <;> simp [accessLevels, plainLevels, executableLevels, Flag.effect]
  · cases f <;> simp [accessLevels, plainLevels, executableLevels, some, effect]
  · cases f <;> simp [accessLevels, plainLevels, executableLevels, some, effect]

lemma AsksFor.effect (asks : p.AsksFor level) (access : level ∈ accessLevels) :
    p.effect.AsksFor level.effect := by
  intro f mem
  rw [asks.has_effect access, if_pos mem, decide_eq_true_iff, eq_comm]

lemma AsksFor.has_noAccess_effect (asks : p.AsksFor level) (supported : level ∈ supportedLevels) :
    p.effect.has .noAccess = p.has .noAccess := by
  rw [Bool.eq_iff_iff, asks.effect (mem_accessLevels supported) .noAccess (by decide),
    asks .noAccess (by decide)]
  rcases effect_cases supported with ⟨none, effect⟩ | ⟨some, effect | effect⟩
  · rw [effect, none]
  · simp [effect, some.symm]
  · simp [effect, some.symm]

lemma AsksFor.has_modifier_effect (asks : p.AsksFor level) (access : level ∈ accessLevels)
    {f : Flag} (modifier : f ∉ accessLevels) : p.effect.has f = p.has f := by
  rw [asks.has_effect access, if_neg modifier]

lemma supported_effect (supported : level ∈ supportedLevels) :
    level.effect ∈ supportedLevels ∧ level.effect.effect = level.effect := by
  revert supported
  cases level <;> decide

/-- The effect of a request is granted as the request is. -/
theorem Grantable.userEntry_effect (h : p.Grantable) (ok : p.userEntry = .ok e) :
    p.effect.userEntry = .ok e := by
  obtain ⟨level, supported, asks⟩ := h.level
  have access := mem_accessLevels supported
  have none := asks.has_noAccess_effect supported
  have guard := asks.has_modifier_effect access (f := .guardPage) (by decide)
  have uncached := asks.has_modifier_effect access (f := .noCache) (by decide)
  have combined := asks.has_modifier_effect access (f := .writeCombine) (by decide)
  obtain ⟨supportedEffect, idempotent⟩ := supported_effect supported
  have effect : p.effect.Grantable :=
    { known := knownFlags_iff.mpr isKnown_ofFlags
      level := ⟨level.effect, supportedEffect, asks.effect access⟩
      cache := by rw [uncached, combined]; exact h.cache
      bare := by rw [none, guard, uncached, combined]; exact h.bare }
  rw [effect.userEntry_eq supportedEffect (asks.effect access), idempotent, ← ok,
    h.userEntry_eq supported asks, granted, granted, none, guard, uncached, combined]

/-! ### Entries for the kernel -/

/-- A level that reads or writes, with one cache mode at most. -/
def SystemGrantable (p : Protection) : Prop :=
  ∃ level ∈ [Flag.readOnly, .readWrite], ∃ cache ∈ [[], [Flag.noCache], [.writeCombine]],
    p = ofFlags (level :: cache)

/-- What the kernel is granted where a request keeps all rules. -/
def systemGranted (p : Protection) : Entry :=
  (⟨.ofNat Entry.kernelPageBits⟩ : Entry)
    |>.withFlag .write (p.has .readWrite)
    |>.withFlag .cacheDisable (p.has .noCache)
    |>.withFlag .writeThrough (p.has .writeCombine)

lemma systemFlags_iff : Rule.systemFlags.Keeps p ↔ (p.disallowedBits == 0) = true := by
  rw [beq_iff_eq, disallowedBits]
  constructor
  · intro allowed
    refine Nat.eq_of_testBit_eq fun i => ?_
    rw [Nat.testBit_and, Nat.zero_testBit, Bool.and_eq_false_imp]
    intro set
    obtain ⟨f, mem, rfl⟩ := allowed i set
    revert mem
    cases f <;> decide
  · intro none i set
    have small : i < 32 := by
      by_contra large
      have room : 2 ^ 32 ≤ 2 ^ i := Nat.pow_le_pow_right Nat.two_pos (Nat.not_lt.mp large)
      rw [Nat.testBit_lt_two_pow (Nat.lt_of_lt_of_le p.bits.toNat_lt room)] at set
      cases set
    have outside := congrArg (Nat.testBit · i) none
    simp only [Nat.testBit_and, set, Bool.true_and, Nat.zero_testBit] at outside
    have allowed : ∀ j : Fin 32, (0xFFFFFFFF ^^^ systemMask).testBit j = false →
        ∃ f ∈ [Flag.readOnly, .readWrite, .noCache, .writeCombine], f.position = j := by
      decide
    exact allowed ⟨i, small⟩ outside

lemma oneSystemLevel_iff :
    Rule.oneSystemLevel.Keeps p ↔ ¬ (p.has .readOnly == p.has .readWrite) = true := by
  simp only [Rule.oneSystemLevel]
  cases p.has .readOnly <;> cases p.has .readWrite <;> decide

lemma systemEntry_of_disallowed (disallowed : ¬ Rule.systemFlags.Keeps p) :
    p.systemEntry = .error (Rule.systemFlags.error p) := by
  rw [systemFlags_iff] at disallowed
  rw [systemEntry, if_neg disallowed]
  rfl

lemma systemEntry_of_ambiguous (allowed : Rule.systemFlags.Keeps p)
    (ambiguous : ¬ Rule.oneSystemLevel.Keeps p) :
    p.systemEntry = .error (Rule.oneSystemLevel.error p) := by
  rw [systemFlags_iff] at allowed
  rw [oneSystemLevel_iff, not_not] at ambiguous
  rw [systemEntry, if_pos allowed, if_pos ambiguous]
  rfl

lemma systemEntry_of_conflict (allowed : Rule.systemFlags.Keeps p)
    (level : Rule.oneSystemLevel.Keeps p) (conflict : ¬ Rule.oneCacheMode.Keeps p) :
    p.systemEntry = .error (Rule.oneCacheMode.error p) := by
  rw [systemFlags_iff] at allowed
  rw [oneSystemLevel_iff] at level
  rw [oneCacheMode_iff, not_not] at conflict
  rw [systemEntry, if_pos allowed, if_neg level, if_pos conflict]
  rfl

lemma systemEntry_of_kept (allowed : Rule.systemFlags.Keeps p)
    (level : Rule.oneSystemLevel.Keeps p) (cache : Rule.oneCacheMode.Keeps p) :
    p.systemEntry = .ok p.systemGranted := by
  rw [systemFlags_iff] at allowed
  rw [oneSystemLevel_iff] at level
  rw [oneCacheMode_iff] at cache
  rw [systemEntry, if_pos allowed, if_neg level, if_neg cache]
  rfl

/-- The kernel is refused for the first rule that a request breaks. -/
theorem systemEntry_eq_error_iff {err : ProtectionError} :
    p.systemEntry = .error err ↔ p.BreaksFirst systemRules err := by
  simp only [systemRules, breaksFirst_cons, not_breaksFirst_nil, and_false, or_false]
  by_cases allowed : Rule.systemFlags.Keeps p
  swap
  · simp [systemEntry_of_disallowed allowed, allowed, eq_comm]
  by_cases level : Rule.oneSystemLevel.Keeps p
  swap
  · simp [systemEntry_of_ambiguous allowed level, allowed, level, eq_comm]
  by_cases cache : Rule.oneCacheMode.Keeps p
  swap
  · simp [systemEntry_of_conflict allowed level cache, allowed, level, cache, eq_comm]
  simp [systemEntry_of_kept allowed level cache, allowed, level, cache]

lemma has_systemGranted (f : Entry.Flag) :
    p.systemGranted.has f =
      match f with
      | .valid | .accessed | .dirty => true
      | .write => p.has .readWrite
      | .cacheDisable => p.has .noCache
      | .writeThrough => p.has .writeCombine
      | _ => false := by
  cases f <;>
    simp only [systemGranted, Entry.has_withFlag, Entry.has_withFlag_of_ne, ne_eq, reduceCtorEq,
      not_false_eq_true] <;> decide

lemma has_of_allowed (allowed : Rule.systemFlags.Keeps p) {f : Flag}
    (other : f ∉ [Flag.readOnly, .readWrite, .noCache, .writeCombine]) : p.has f = false := by
  rw [← Bool.not_eq_true]
  intro has
  obtain ⟨g, mem, same⟩ := allowed f.position has
  exact other (Flag.position_injective same ▸ mem)

lemma isKnown_of_allowed (allowed : Rule.systemFlags.Keeps p) : p.isKnown = true := by
  rw [isKnown_iff_lt]
  refine Nat.lt_pow_two_of_testBit (n := 11) _ fun i large => ?_
  rw [← Bool.not_eq_true]
  intro set
  obtain ⟨f, _, rfl⟩ := allowed i set
  exact absurd f.position_lt (Nat.not_lt.mpr large)

/-- What the kernel is granted is read back as the request. -/
theorem ofEntry_systemGranted (allowed : Rule.systemFlags.Keeps p)
    (level : Rule.oneSystemLevel.Keeps p) (cache : Rule.oneCacheMode.Keeps p) :
    ofEntry p.systemGranted = p := by
  refine ext_of_isKnown isKnown_ofEntry (isKnown_of_allowed allowed) fun f => ?_
  rw [has_ofEntry]
  simp only [Entry.valid, has_systemGranted]
  cases f with
  | readOnly =>
    rw [oneSystemLevel_iff] at level
    change (!p.has .readWrite) = p.has .readOnly
    revert level
    cases p.has .readOnly <;> cases p.has .readWrite <;> decide
  | readWrite => simp
  | noCache => rfl
  | writeCombine =>
    rw [oneCacheMode_iff] at cache
    change (!p.has .noCache && p.has .writeCombine) = p.has .writeCombine
    revert cache
    cases p.has .noCache <;> cases p.has .writeCombine <;> decide
  | _ => exact (has_of_allowed allowed (by decide)).symm

lemma keeps_of_systemEntry (ok : p.systemEntry = .ok e) :
    Rule.systemFlags.Keeps p ∧ Rule.oneSystemLevel.Keeps p ∧ Rule.oneCacheMode.Keeps p := by
  have keeps := keeps_of_ok (fun _ => systemEntry_eq_error_iff) ok
  simp only [systemRules, List.forall_mem_cons] at keeps
  obtain ⟨allowed, level, cache, _⟩ := keeps
  exact ⟨allowed, level, cache⟩

lemma ofEntry_of_systemEntry (ok : p.systemEntry = .ok e) : ofEntry e = p := by
  obtain ⟨allowed, level, cache⟩ := keeps_of_systemEntry ok
  cases ok.symm.trans (systemEntry_of_kept allowed level cache)
  exact ofEntry_systemGranted allowed level cache

lemma eq_ofFlags_filter (allowed : Rule.systemFlags.Keeps p) :
    p = ofFlags ([.readOnly, .readWrite, .noCache, .writeCombine].filter p.has) := by
  refine ext_of_isKnown (isKnown_of_allowed allowed) isKnown_ofFlags fun f => ?_
  rw [has_ofFlags, Bool.eq_iff_iff, decide_eq_true_iff, List.mem_filter]
  refine ⟨fun has => ⟨?_, has⟩, And.right⟩
  by_contra other
  exact absurd has (Bool.eq_false_iff.mp (has_of_allowed allowed other))

lemma systemGrantable_of_keeps (allowed : Rule.systemFlags.Keeps p)
    (level : Rule.oneSystemLevel.Keeps p) (cache : Rule.oneCacheMode.Keeps p) :
    p.SystemGrantable := by
  rw [oneSystemLevel_iff] at level
  rw [oneCacheMode_iff] at cache
  refine ⟨if p.has .readOnly then .readOnly else .readWrite, ?_,
    if p.has .noCache then [.noCache] else if p.has .writeCombine then [.writeCombine] else [],
    ?_, ?_⟩
  · split <;> decide
  · split
    · decide
    · split <;> decide
  · refine (eq_ofFlags_filter allowed).trans (congrArg ofFlags ?_)
    simp only [List.filter]
    revert level cache
    cases p.has .readOnly <;> cases p.has .readWrite <;> cases p.has .noCache <;>
      cases p.has .writeCombine <;> decide

lemma SystemGrantable.systemEntry_ok (h : p.SystemGrantable) : ∃ e, p.systemEntry = .ok e := by
  obtain ⟨level, access, cache, mode, rfl⟩ := h
  simp only [List.mem_cons, List.not_mem_nil, or_false] at access mode
  rcases access with rfl | rfl <;> rcases mode with rfl | rfl | rfl <;> exact ⟨_, rfl⟩

lemma systemEntry_ok_iff : (∃ e, p.systemEntry = .ok e) ↔ p.SystemGrantable := by
  constructor
  · rintro ⟨e, ok⟩
    obtain ⟨allowed, level, cache⟩ := keeps_of_systemEntry ok
    exact systemGrantable_of_keeps allowed level cache
  · exact SystemGrantable.systemEntry_ok

/-! ### Both translations -/

lemma userEntry_ok_iff : (∃ e, p.userEntry = .ok e) ↔ p.Grantable := by
  constructor
  · rintro ⟨e, ok⟩
    exact grantable_of_userEntry ok
  · intro h
    obtain ⟨level, supported, asks⟩ := h.level
    exact ⟨_, h.userEntry_eq supported asks⟩

lemma ofEntry_of_userEntry (ok : p.userEntry = .ok e) : ofEntry e = p.effect := by
  obtain ⟨level, supported, asks, rfl⟩ := granted_of_userEntry ok
  exact (grantable_of_userEntry ok).ofEntry_granted supported asks

lemma protection_of_userEntry (ok : p.userEntry = .ok e) : e.protection = e.bits.toNat := by
  obtain ⟨level, _, _, rfl⟩ := granted_of_userEntry ok
  exact Entry.protection_granting

/-- User code is granted just what is grantable. The entry has the bits of protection
alone, and says what the request amounts to; asking for that gives the same entry. The
kernel reads its request back unchanged. Either is refused for the first rule broken. -/
theorem translation_exact (p : Protection) :
    ((∃ e, p.userEntry = .ok e) ↔ p.Grantable) ∧
    (∀ e, p.userEntry = .ok e →
      e.protection = e.bits.toNat ∧ ofEntry e = p.effect ∧ (ofEntry e).userEntry = .ok e) ∧
    (∀ err, p.userEntry = .error err ↔ p.BreaksFirst userRules err) ∧
    ((∃ e, p.systemEntry = .ok e) ↔ p.SystemGrantable) ∧
    (∀ e, p.systemEntry = .ok e → ofEntry e = p) ∧
    (∀ err, p.systemEntry = .error err ↔ p.BreaksFirst systemRules err) := by
  refine ⟨userEntry_ok_iff, fun e ok => ?_, fun _ => userEntry_eq_error_iff, systemEntry_ok_iff,
    fun _ => ofEntry_of_systemEntry, fun _ => systemEntry_eq_error_iff⟩
  have reads := ofEntry_of_userEntry ok
  refine ⟨protection_of_userEntry ok, reads, ?_⟩
  rw [reads]
  exact (grantable_of_userEntry ok).userEntry_effect ok

/-- Code that is guarded and not cached is granted as data that are; data for the
kernel that are combined in writing are read back so. -/
theorem translation_exact_of_guarded_code :
    (let request := ofFlags [.executeReadWrite, .guardPage, .noCache]
    ∃ e, request.userEntry = .ok e ∧ e.bits = 0x212 ∧ e.protection = 0x212 ∧
      ofEntry e = ofFlags [.readWrite, .guardPage, .noCache] ∧ (ofEntry e).userEntry = .ok e) ∧
    (let request := ofFlags [.readOnly, .writeCombine]
    ∃ e, request.systemEntry = .ok e ∧ e.bits = 0x69 ∧ ofEntry e = request) := by
  refine ⟨⟨⟨0x212⟩, rfl, rfl, ?_⟩, ⟨⟨0x69⟩, rfl, rfl, ?_⟩⟩
  · exact (translation_exact (ofFlags [.executeReadWrite, .guardPage, .noCache])).2.1 ⟨0x212⟩ rfl
  · exact (translation_exact (ofFlags [.readOnly, .writeCombine])).2.2.2.2.1 ⟨0x69⟩ rfl

end ConsoleMemory.Protection
