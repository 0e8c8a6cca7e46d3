import ConsoleMemory.Accessors.Setting
import Mathlib.Tactic.Lemma

/-!
# The code of settings

A setting is spelled by a path, with or without a value assigned to it, and commas
stand between settings. Every code can be read that way up to some place where no
setting begins or none ends, and the reader gives just that reading (`ofCode_eq_iff`).
-/

namespace ConsoleMemory.Accessors

namespace Setting

/-! ### Spelling -/

/-- What may stand in front of the first word of a path. -/
inductive IsRoot : Code → Prop
  | nothing : IsRoot []
  | separator (j : Bool) : IsRoot [.mark ':' true, .mark ':' j]

/-- Words behind the first one of a path, each of them behind a separator. -/
inductive IsTail : Code → Prop
  | nil : IsTail []
  | cons {words : Code} (j : Bool) (w : String) (tail : IsTail words) :
    IsTail (.mark ':' true :: .mark ':' j :: .word w :: words)

inductive IsPath : Code → Prop
  | intro {root words : Code} (isRoot : IsRoot root) (w : String) (tail : IsTail words) :
    IsPath (root ++ .word w :: words)

/-- A value and its truth value, none for a literal of another kind. -/
inductive IsValue : Code → Option Bool → Prop
  | yes : IsValue [.word "true"] (some true)
  | no : IsValue [.word "false"] (some false)
  | literal (l : String) : IsValue [.literal l] none
  | negative {l : String} (j : Bool) (number : l.toList.head?.any Char.isDigit = true) :
    IsValue [.mark '-' j, .literal l] none

/-- The code of one setting. -/
inductive Spells : Code → Setting → Prop
  | bare {name : Code} (isPath : IsPath name) : Spells name ⟨name, some true⟩
  | assigned {name value : Code} {flag : Option Bool} (isPath : IsPath name) (j : Bool)
    (isValue : IsValue value flag) : Spells (name ++ .mark '=' j :: value) ⟨name, flag⟩

def HasSign (c : Char) (code : Code) : Prop := ∃ j rest, code = .mark c j :: rest

def HasSeparator (code : Code) : Prop := ∃ j rest, code = .mark ':' true :: .mark ':' j :: rest

def HasWord (code : Code) : Prop := ∃ w rest, code = .word w :: rest

def HasValue (code : Code) : Prop := ∃ value flag rest, IsValue value flag ∧ code = value ++ rest

/-- Code that begins with no setting, and what is wrong with it. -/
inductive Breaks : Code → DeriveError → Prop
  | missingName {root : Code} (isRoot : IsRoot root) : Breaks root .missingName
  | literalName {root rest : Code} (isRoot : IsRoot root) (noWord : ¬ HasWord rest)
    (hasValue : HasValue rest) : Breaks (root ++ rest) .literalName
  | markName {root rest : Code} (isRoot : IsRoot root) (whole : root = [] → ¬ HasSeparator rest)
    (nonempty : rest ≠ []) (noWord : ¬ HasWord rest) (noValue : ¬ HasValue rest) :
    Breaks (root ++ rest) .markName
  | missingWord {name rest : Code} (isPath : IsPath name) (j : Bool) (noWord : ¬ HasWord rest) :
    Breaks (name ++ .mark ':' true :: .mark ':' j :: rest) (.missingWord rest.isEmpty)
  | missingEquals {name rest : Code} (isPath : IsPath name) (nonempty : rest ≠ [])
    (whole : ¬ HasSeparator rest) (noComma : ¬ HasSign ',' rest) (noEquals : ¬ HasSign '=' rest) :
    Breaks (name ++ rest) .missingEquals
  | missingValue {name rest : Code} (isPath : IsPath name) (j : Bool) (noValue : ¬ HasValue rest) :
    Breaks (name ++ .mark '=' j :: rest) (.missingValue rest.isEmpty)

/-- The settings in code, and what is wrong behind the last one of them. -/
inductive Reads : Code → List Setting → Option DeriveError → Prop
  | nil : Reads [] [] none
  | last {code : Code} {s : Setting} (spells : Spells code s) : Reads code [s] none
  | cons {code rest : Code} {s : Setting} {settings : List Setting} {fault : Option DeriveError}
    (spells : Spells code s) (j : Bool) (more : Reads rest settings fault) :
    Reads (code ++ .mark ',' j :: rest) (s :: settings) fault
  | missingComma {name value rest : Code} {flag : Option Bool} (isPath : IsPath name) (j : Bool)
    (isValue : IsValue value flag) (nonempty : rest ≠ []) (noComma : ¬ HasSign ',' rest) :
    Reads (name ++ .mark '=' j :: (value ++ rest)) [⟨name, flag⟩] (some .missingComma)
  | broken {code : Code} {e : DeriveError} (nonempty : code ≠ []) (breaks : Breaks code e) :
    Reads code [] (some e)

/-- Settings with commas between them and none behind. -/
inductive Joins : Code → List Setting → Prop
  | single {code : Code} {s : Setting} (spells : Spells code s) : Joins code [s]
  | cons {code rest : Code} {s : Setting} {settings : List Setting} (spells : Spells code s)
    (j : Bool) (more : Joins rest settings) : Joins (code ++ .mark ',' j :: rest) (s :: settings)

variable {code name words root rest value front : Code} {flag : Option Bool} {s : Setting}
  {j : Bool} {settings : List Setting} {fault : Option DeriveError} {e : DeriveError}

/-! ### The first tokens -/

lemma hasSigns_single {c : Char} : code.hasSigns [c] = true ↔ HasSign c code := by
  constructor
  · intro has
    rcases code with _ | ⟨t, behind⟩
    · cases has
    · cases t with
      | mark sign j =>
        obtain rfl : c = sign := by simpa [Code.hasSigns] using has
        exact ⟨j, behind, rfl⟩
      | _ => cases has
  · rintro ⟨i, behind, rfl⟩
    simp [Code.hasSigns]

lemma hasMark_comma : code.hasMark "," = true ↔ HasSign ',' code := hasSigns_single

lemma hasMark_equals : code.hasMark "=" = true ↔ HasSign '=' code := hasSigns_single

lemma hasMark_separator : code.hasMark "::" = true ↔ HasSeparator code := by
  constructor
  · intro has
    rcases code with _ | ⟨t, behind⟩
    · cases has
    · cases t with
      | mark sign isJoint =>
        have signs : ':' = sign ∧ isJoint = true ∧ Code.hasSigns [':'] behind = true := by
          simpa [Code.hasMark, Code.hasSigns, and_assoc] using has
        obtain ⟨rfl, rfl, last⟩ := signs
        obtain ⟨j, rest, rfl⟩ := hasSigns_single.mp last
        exact ⟨j, rest, rfl⟩
      | _ => cases has
  · rintro ⟨i, behind, rfl⟩
    rfl

lemma hasAnyWord_iff : code.hasAnyWord = true ↔ HasWord code := by
  constructor
  · intro word
    rcases code with _ | ⟨t, behind⟩
    · cases word
    · cases t <;> first | exact ⟨_, behind, rfl⟩ | cases word
  · rintro ⟨w, behind, rfl⟩
    rfl

lemma hasWord_iff {w : String} : code.hasWord w = true ↔ ∃ behind, code = .word w :: behind :=
  beq_iff_eq.trans List.head?_eq_some_iff

lemma hasLiteral_iff : code.hasLiteral = true ↔ HasValue code := by
  constructor
  · intro literal
    unfold Code.hasLiteral at literal
    split at literal
    · exact ⟨_, _, _, .literal _, rfl⟩
    · exact ⟨_, _, _, .negative _ literal, rfl⟩
    · simp only [Code.hasWordOf, List.any_cons, List.any_nil, Bool.or_false, Bool.or_eq_true,
        hasWord_iff] at literal
      rcases literal with ⟨behind, rfl⟩ | ⟨behind, rfl⟩
      · exact ⟨_, _, behind, .yes, rfl⟩
      · exact ⟨_, _, behind, .no, rfl⟩
  · rintro ⟨value, flag, rest, isValue, rfl⟩
    cases isValue with
    | negative _ number => exact number
    | _ => rfl

/-! ### Paths -/

lemma restOfPath_append (tail : IsTail words) (whole : ¬ HasSeparator rest) :
    restOfPath (words ++ rest) = .ok (words, rest) := by
  induction tail with
  | nil =>
    exact restOfPath.eq_3 _ (fun j w behind eq => whole ⟨j, _, eq⟩)
      fun j behind eq => whole ⟨j, _, eq⟩
  | cons j w tail ih =>
    simp only [List.cons_append, restOfPath, ih]
    rfl

lemma restOfPath_separator (tail : IsTail words) (j : Bool) (noWord : ¬ HasWord rest) :
    restOfPath (words ++ .mark ':' true :: .mark ':' j :: rest) =
      .error (.missingWord rest.isEmpty) := by
  induction tail with
  | nil => exact restOfPath.eq_2 _ _ fun w behind eq => noWord ⟨w, behind, eq⟩
  | cons i w tail ih =>
    simp only [List.cons_append, restOfPath, ih]
    rfl

/-- Further words of a path are followed by no separator, or by one that no word follows. -/
lemma exists_tail (code : Code) : ∃ words rest, IsTail words ∧ code = words ++ rest ∧
    (¬ HasSeparator rest ∨ ∃ j behind, rest = .mark ':' true :: .mark ':' j :: behind ∧
      ¬ HasWord behind) := by
  fun_induction restOfPath code with
  | case1 j w behind ih =>
    obtain ⟨words, rest, tail, rfl, ending⟩ := ih
    exact ⟨_, rest, .cons j w tail, rfl, ending⟩
  | case2 j rest noWord =>
    exact ⟨[], _, .nil, rfl, Or.inr ⟨j, rest, rfl, fun ⟨w, behind, eq⟩ => noWord w behind eq⟩⟩
  | case3 rest noWord none =>
    exact ⟨[], rest, .nil, rfl, Or.inl fun ⟨j, behind, eq⟩ => none j behind eq⟩

lemma path_root (isRoot : IsRoot root) (w : String) (behind : Code) :
    Setting.path (root ++ .word w :: behind) =
      (restOfPath behind).map fun (words, rest) => (root ++ .word w :: words, rest) := by
  cases isRoot <;> cases read : restOfPath behind <;>
    simp [Setting.path, Code.hasMark, Code.hasSigns, Code.hasAnyWord, read] <;> rfl

lemma path_append (isPath : IsPath name) (whole : ¬ HasSeparator rest) :
    Setting.path (name ++ rest) = .ok (name, rest) := by
  obtain ⟨isRoot, w, tail⟩ := isPath
  rw [List.append_assoc, List.cons_append, path_root isRoot, restOfPath_append tail whole]
  rfl

lemma path_separator (isPath : IsPath name) (j : Bool) (noWord : ¬ HasWord rest) :
    Setting.path (name ++ .mark ':' true :: .mark ':' j :: rest) =
      .error (.missingWord rest.isEmpty) := by
  obtain ⟨isRoot, w, tail⟩ := isPath
  rw [List.append_assoc, List.cons_append, path_root isRoot, restOfPath_separator tail j noWord]
  rfl

/-- Behind a root that is taken as a whole stands no word. -/
lemma path_noWord (isRoot : IsRoot root) (whole : root = [] → ¬ HasSeparator rest)
    (noWord : ¬ HasWord rest) :
    Setting.path (root ++ rest) =
      if rest.isEmpty then .error .missingName
      else if rest.hasLiteral then .error .literalName else .error .markName := by
  have start : (if (root ++ rest).hasMark "::" then (root ++ rest).take 2 else []) = root := by
    cases isRoot with
    | nothing => exact if_neg fun separator => whole rfl (hasMark_separator.mp separator)
    | separator j => rfl
  have noWord' : Code.hasAnyWord (rest.take 1) = false := by
    rw [Bool.eq_false_iff, Ne, hasAnyWord_iff]
    rintro ⟨w, behind, eq⟩
    rcases rest with _ | ⟨t, rest⟩
    · cases eq
    · cases eq
      exact noWord ⟨w, rest, rfl⟩
  rw [Setting.path, start, List.drop_left, List.splitAt_eq]
  simp only [noWord', Bool.false_eq_true, if_false]
  rcases rest with _ | ⟨t, rest⟩ <;> rfl

/-- Every code begins with a path or breaks off before one ends. -/
lemma path_cases (code : Code) :
    (∃ name rest, IsPath name ∧ code = name ++ rest ∧ ¬ HasSeparator rest) ∨
      ∃ e, Breaks code e := by
  obtain ⟨root, rest, isRoot, rfl, whole⟩ : ∃ root rest, IsRoot root ∧ code = root ++ rest ∧
      (root = [] → ¬ HasSeparator rest) := by
    by_cases separator : HasSeparator code
    · obtain ⟨j, rest, rfl⟩ := separator
      exact ⟨_, rest, .separator j, rfl, nofun⟩
    · exact ⟨[], code, .nothing, rfl, fun _ => separator⟩
  by_cases word : HasWord rest
  · obtain ⟨w, behind, rfl⟩ := word
    obtain ⟨words, rest, tail, rfl, ends | ⟨j, behind, rfl, noWord⟩⟩ := exists_tail behind
    · exact Or.inl ⟨_, rest, .intro isRoot w tail, by simp, ends⟩
    · have broken := Breaks.missingWord (.intro isRoot w tail) j noWord
      exact Or.inr ⟨_, by simpa using broken⟩
  · right
    by_cases nonempty : rest = []
    · rw [nonempty, List.append_nil]
      exact ⟨_, .missingName isRoot⟩
    · by_cases value : HasValue rest
      · exact ⟨_, .literalName isRoot word value⟩
      · exact ⟨_, .markName isRoot whole nonempty word value⟩

/-! ### One setting -/

lemma value_append (isValue : IsValue value flag) (rest : Code) :
    Setting.value (value ++ rest) = .ok (flag, rest) := by
  cases isValue with
  | negative j number =>
    simp only [Setting.value, Code.hasWord, Code.hasLiteral, List.cons_append, number]
    rfl
  | _ => rfl

lemma value_noValue (noValue : ¬ HasValue rest) :
    Setting.value rest = .error (.missingValue rest.isEmpty) := by
  have noWord : ∀ w flag, IsValue [.word w] flag → rest.hasWord w = false := by
    intro w flag isValue
    rw [Bool.eq_false_iff, Ne, hasWord_iff]
    rintro ⟨behind, rfl⟩
    exact noValue ⟨_, _, behind, isValue, rfl⟩
  have noLiteral : rest.hasLiteral = false := by
    rwa [Bool.eq_false_iff, Ne, hasLiteral_iff]
  simp only [Setting.value, noWord _ _ .yes, noWord _ _ .no, noLiteral, Bool.false_eq_true,
    if_false]
  rfl

lemma IsPath.ne_nil (isPath : IsPath name) : name ≠ [] := by
  obtain ⟨isRoot, w, tail⟩ := isPath
  simp

lemma Spells.ne_nil (spells : Spells front s) : front ≠ [] := by
  cases spells with
  | bare isPath => exact isPath.ne_nil
  | assigned isPath j isValue => simp

lemma read_path (isPath : IsPath name) (whole : ¬ HasSeparator rest) :
    Setting.read (name ++ rest) =
      if rest.isEmpty || rest.hasMark "," then .ok (⟨name, some true⟩, rest)
      else if rest.hasMark "=" then
        (Setting.value (rest.drop 1)).map fun (flag, rest) => (⟨name, flag⟩, rest)
      else .error .missingEquals := by
  rw [Setting.read, path_append isPath whole]
  simp only [bind, Except.bind]
  split
  · rfl
  · split
    · cases Setting.value (rest.drop 1) <;> rfl
    · rfl

lemma read_assigned (isPath : IsPath name) (j : Bool) (rest : Code) :
    Setting.read (name ++ .mark '=' j :: rest) =
      (Setting.value rest).map fun (flag, rest) => (⟨name, flag⟩, rest) :=
  read_path isPath (by rintro ⟨i, behind, eq⟩; cases eq)

lemma read_value (isPath : IsPath name) (isValue : IsValue value flag) (j : Bool) (rest : Code) :
    Setting.read (name ++ .mark '=' j :: (value ++ rest)) = .ok (⟨name, flag⟩, rest) := by
  rw [read_assigned isPath, value_append isValue]
  rfl

lemma read_append (spells : Spells front s) (ends : rest = [] ∨ HasSign ',' rest) :
    Setting.read (front ++ rest) = .ok (s, rest) := by
  cases spells with
  | bare isPath =>
    have whole : ¬ HasSeparator rest := by
      rintro ⟨j, behind, rfl⟩
      rcases ends with eq | ⟨i, after, eq⟩ <;> cases eq
    rw [read_path isPath whole, if_pos]
    rcases ends with rfl | comma
    · rfl
    · rw [hasMark_comma.mpr comma, Bool.or_true]
  | assigned isPath j isValue =>
    rw [List.append_assoc, List.cons_append, read_value isPath isValue]

lemma read_missingEquals (isPath : IsPath name) (nonempty : rest ≠ []) (whole : ¬ HasSeparator rest)
    (noComma : ¬ HasSign ',' rest) (noEquals : ¬ HasSign '=' rest) :
    Setting.read (name ++ rest) = .error .missingEquals := by
  rw [read_path isPath whole, if_neg, if_neg (mt hasMark_equals.mp noEquals)]
  rw [Bool.or_eq_true, List.isEmpty_iff, hasMark_comma]
  exact not_or.mpr ⟨nonempty, noComma⟩

lemma read_literalName (isRoot : IsRoot root) (noWord : ¬ HasWord rest)
    (hasValue : HasValue rest) : Setting.read (root ++ rest) = .error .literalName := by
  obtain ⟨value, flag, behind, isValue, rfl⟩ := id hasValue
  have whole : ¬ HasSeparator (value ++ behind) := by
    rintro ⟨j, after, eq⟩
    cases isValue <;> cases eq
  have nonempty : (value ++ behind).isEmpty = false := by cases isValue <;> rfl
  have path := path_noWord isRoot (fun _ => whole) noWord
  rw [nonempty, hasLiteral_iff.mpr hasValue] at path
  rw [Setting.read, path]
  rfl

lemma read_breaks (breaks : Breaks code e) : Setting.read code = .error e := by
  cases breaks with
  | missingName isRoot =>
    have noSeparator : ¬ HasSeparator [] := by
      rintro ⟨_, _, eq⟩
      cases eq
    have noWord : ¬ HasWord [] := by
      rintro ⟨_, _, eq⟩
      cases eq
    have path := path_noWord isRoot (fun _ => noSeparator) noWord
    rw [List.append_nil] at path
    rw [Setting.read, path]
    rfl
  | literalName isRoot noWord hasValue => exact read_literalName isRoot noWord hasValue
  | markName isRoot whole nonempty noWord noValue =>
    have path := path_noWord isRoot whole noWord
    rw [List.isEmpty_eq_false_iff.mpr nonempty,
      Bool.eq_false_iff.mpr (mt hasLiteral_iff.mp noValue)] at path
    rw [Setting.read, path]
    rfl
  | missingWord isPath j noWord =>
    rw [Setting.read, path_separator isPath j noWord]
    rfl
  | missingEquals isPath nonempty whole noComma noEquals =>
    exact read_missingEquals isPath nonempty whole noComma noEquals
  | missingValue isPath j noValue =>
    rw [read_assigned isPath, value_noValue noValue]
    rfl

/-! ### All settings -/

lemma exists_steps (nonempty : code ≠ []) {n : Nat} (enough : code.length ≤ n) :
    ∃ m, n = m + 1 := by
  have := List.length_pos_iff.mpr nonempty
  exact ⟨n - 1, by omega⟩

lemma readFor_read (nonempty : code ≠ []) {n : Nat} (enough : code.length ≤ n)
    (reads : Setting.read code = .ok (s, rest)) :
    readFor n code =
      if rest.isEmpty then ([s], none)
      else if rest.hasMark "," then
        (s :: (readFor (n - 1) (rest.drop 1)).1, (readFor (n - 1) (rest.drop 1)).2)
      else ([s], some .missingComma) := by
  obtain ⟨n, rfl⟩ := exists_steps nonempty enough
  simp only [readFor, List.isEmpty_eq_false_iff.mpr nonempty, Bool.false_eq_true, if_false, reads]
  rfl

/-- The reader finds what the code spells. -/
lemma readFor_of_reads (reads : Reads code settings fault) {n : Nat} (enough : code.length ≤ n) :
    readFor n code = (settings, fault) := by
  induction reads generalizing n with
  | nil => cases n <;> rfl
  | last spells =>
    have read := read_append spells (Or.inl rfl)
    rw [List.append_nil] at read
    rw [readFor_read spells.ne_nil enough read]
    rfl
  | @cons _ rest _ _ _ spells j more ih =>
    have read := read_append spells (Or.inr ⟨j, rest, rfl⟩)
    rw [readFor_read (List.append_ne_nil_of_left_ne_nil spells.ne_nil _) enough read]
    have := List.length_pos_iff.mpr spells.ne_nil
    rw [List.length_append, List.length_cons] at enough
    change (_ :: (readFor (n - 1) _).1, (readFor (n - 1) _).2) = _
    rw [List.drop_one, List.tail_cons, ih (by omega)]
  | @missingComma _ _ rest _ isPath j isValue nonempty noComma =>
    have read := read_value isPath isValue j rest
    rw [readFor_read (by simp) enough read, if_neg (mt List.isEmpty_iff.mp nonempty),
      if_neg (mt hasMark_comma.mp noComma)]
  | broken nonempty breaks =>
    obtain ⟨n, rfl⟩ := exists_steps nonempty enough
    simp only [readFor, List.isEmpty_eq_false_iff.mpr nonempty, Bool.false_eq_true, if_false,
      read_breaks breaks]

/-- Behind a path a setting ends, goes on with a value or breaks off. -/
lemma reads_cases (nonempty : code ≠ []) :
    (∃ front s rest, Spells front s ∧ code = front ++ rest ∧ (rest = [] ∨ HasSign ',' rest)) ∨
      ∃ settings fault, Reads code settings fault := by
  rcases path_cases code with ⟨name, rest, isPath, rfl, whole⟩ | ⟨e, breaks⟩
  · by_cases ends : rest = [] ∨ HasSign ',' rest
    · exact Or.inl ⟨name, _, rest, .bare isPath, rfl, ends⟩
    · obtain ⟨some, noComma⟩ := not_or.mp ends
      by_cases equals : HasSign '=' rest
      · obtain ⟨j, behind, rfl⟩ := equals
        by_cases hasValue : HasValue behind
        · obtain ⟨value, flag, rest, isValue, rfl⟩ := hasValue
          by_cases ends : rest = [] ∨ HasSign ',' rest
          · exact Or.inl ⟨_, _, rest, .assigned isPath j isValue, by simp, ends⟩
          · obtain ⟨some, noComma⟩ := not_or.mp ends
            exact Or.inr ⟨_, _, .missingComma isPath j isValue some noComma⟩
        · exact Or.inr ⟨_, _, .broken nonempty (.missingValue isPath j hasValue)⟩
      · exact Or.inr ⟨_, _, .broken nonempty (.missingEquals isPath some whole noComma equals)⟩
  · exact Or.inr ⟨_, _, .broken nonempty breaks⟩

/-- Every code spells something. -/
lemma exists_reads (code : Code) : ∃ settings fault, Reads code settings fault := by
  -- Behind a setting and its comma shorter code is left.
  induction length : code.length using Nat.strongRecOn generalizing code with
  | ind n ih =>
    by_cases nonempty : code = []
    · subst nonempty
      exact ⟨_, _, .nil⟩
    · rcases reads_cases nonempty with ⟨front, s, rest, spells, rfl, rfl | ⟨j, rest, rfl⟩⟩ | reads
      · rw [List.append_nil]
        exact ⟨_, _, .last spells⟩
      · rw [List.length_append, List.length_cons] at length
        obtain ⟨settings, fault, more⟩ := ih rest.length (by omega) rest rfl
        exact ⟨_, _, .cons spells j more⟩
      · exact reads

/-- What is read from code is what it spells. -/
theorem ofCode_eq_iff : ofCode code = (settings, fault) ↔ Reads code settings fault := by
  refine ⟨fun read => ?_, fun reads => readFor_of_reads reads (Nat.le_refl _)⟩
  obtain ⟨settings', fault', reads⟩ := exists_reads code
  obtain ⟨rfl, rfl⟩ := Prod.mk.inj ((readFor_of_reads reads (Nat.le_refl _)).symm.trans read)
  exact reads

lemma Reads.unique (reads : Reads code settings fault) {settings' : List Setting}
    {fault' : Option DeriveError} (reads' : Reads code settings' fault') :
    settings = settings' ∧ fault = fault' :=
  Prod.mk.inj ((ofCode_eq_iff.mpr reads).symm.trans (ofCode_eq_iff.mpr reads'))

variable {more : Code}

lemma Joins.reads (joins : Joins code settings) : Reads code settings none := by
  induction joins with
  | single spells => exact .last spells
  | cons spells j rest ih => exact .cons spells j ih

end Setting

end ConsoleMemory.Accessors
