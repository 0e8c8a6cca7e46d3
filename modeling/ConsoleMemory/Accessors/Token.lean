import ConsoleMemory.Text.Basic
import ConsoleMemory.Text.Quoted

/-!
The tokens of code. Blanks and comments separate tokens and leave no trace, save for comments that
document: they are attributes. A token keeps the text it is written with, so quoted text with all
its escapes is one token, and so is a number with its point.
-/

namespace ConsoleMemory.Accessors

inductive Token where
  /-- A name or a keyword. -/
  | word (text : String)
  | lifetime (text : String)
  /-- A number or quoted text. -/
  | literal (text : String)
  /-- One sign; it is joined to the next one where nothing stands between them. -/
  | mark (sign : Char) (isJoint : Bool)
  | opening (bracket : Char)
  | closing (bracket : Char)
deriving DecidableEq, Repr

/-- Tokens in the order they are written in. -/
abbrev Code := List Token

namespace Token

def text : Token → String
  | word text | lifetime text | literal text => text
  | mark sign _ => sign.toString
  | opening bracket | closing bracket => bracket.toString

/-- The attribute that a comment stands for. One from within belongs to what the comment stands in,
any other one to what follows it. -/
def documentation (within : Bool) (text : List Char) : Code :=
  mark '#' false :: (if within then [mark '!' false] else []) ++
    [opening '[', word "doc", mark '=' false,
      literal (Text.quotedPrintable (String.ofList text)), closing ']']

/-! ### Pieces of text -/

/-- Blanks separate tokens, and so do the marks that set the direction of writing. -/
def isSeparator (c : Char) : Bool := Text.isBlank c || c == '\u200E' || c == '\u200F'

/-- Letters, digits and the low line; beyond the first 128 characters all but separators. -/
def isWordCharacter (c : Char) : Bool :=
  c == '_' || c.isAlphanum || (0x80 ≤ c.toNat && !isSeparator c)

/-- The characters that a word can begin with. -/
def isWordStart (c : Char) : Bool := isWordCharacter c && !c.isDigit

/-- Splits off the word that a text begins with. -/
def splitWord (text : List Char) : List Char × List Char :=
  (text.takeWhile isWordCharacter, text.dropWhile isWordCharacter)

/-- Splits off the word that a text begins with, unless it begins with a digit. -/
def splitSuffix (text : List Char) : List Char × List Char :=
  if text.head?.any isWordStart then splitWord text else ([], text)

/-- Splits off what is in front of the next line. -/
def splitLine (text : List Char) : List Char × List Char :=
  let line := text.takeWhile (· != '\n')
  let rest := text.dropWhile (· != '\n')
  (if !rest.isEmpty && line.getLast? == some '\r' then line.dropLast else line, rest)

/-- Splits off the rest of a comment that stands inside of `depth` others, without its end. -/
def splitComment : Nat → List Char → List Char × List Char
  | _, [] => ([], [])
  | 0, '*' :: '/' :: rest => ([], rest)
  | depth + 1, '*' :: '/' :: rest =>
    let (comment, rest) := splitComment depth rest
    ('*' :: '/' :: comment, rest)
  | depth, '/' :: '*' :: rest =>
    let (comment, rest) := splitComment (depth + 1) rest
    ('/' :: '*' :: comment, rest)
  | depth, c :: rest =>
    let (comment, rest) := splitComment depth rest
    (c :: comment, rest)

/-- Splits off quoted text up to and with its closing mark. A backslash takes the character behind
it along. -/
def splitQuoted (closing : Char) : List Char → List Char × List Char
  | [] => ([], [])
  | '\\' :: c :: rest =>
    let (quoted, rest) := splitQuoted closing rest
    ('\\' :: c :: quoted, rest)
  | c :: rest =>
    if c = closing then ([c], rest)
    else
      let (quoted, rest) := splitQuoted closing rest
      (c :: quoted, rest)

/-- Splits off text without escapes, which ends with a quotation mark and as many `#`. -/
def splitRaw (hashes : Nat) : List Char → List Char × List Char
  | [] => ([], [])
  | c :: rest =>
    if c = '"' ∧ rest.take hashes = List.replicate hashes '#' then
      (c :: rest.take hashes, rest.drop hashes)
    else
      let (raw, rest) := splitRaw hashes rest
      (c :: raw, rest)

/-- Splits off digits and the low lines between them. -/
def splitDigits (text : List Char) : List Char × List Char :=
  (text.takeWhile fun c => c.isDigit || c == '_', text.dropWhile fun c => c.isDigit || c == '_')

/-- Splits off the point of a number and what follows it. Before another point or a word the point
is no part of the number. -/
def splitFraction (text : List Char) : List Char × List Char :=
  match text with
  | '.' :: rest =>
    if rest.head?.any fun c => c == '.' || isWordStart c then ([], text)
    else ('.' :: (splitDigits rest).1, (splitDigits rest).2)
  | _ => ([], text)

/-- Splits off the exponent of a number, which has at least one digit. -/
def splitExponent (text : List Char) : List Char × List Char :=
  match text with
  | c :: rest =>
    let low := rest.takeWhile (· == '_')
    let behind := rest.dropWhile (· == '_')
    let sign := behind.takeWhile fun c => c == '+' || c == '-'
    let split := splitDigits (behind.drop sign.length)
    if (c = 'e' ∨ c = 'E') ∧ sign.length ≤ 1 ∧ split.1.any Char.isDigit then
      (c :: low ++ sign ++ split.1, split.2)
    else ([], text)
  | [] => ([], [])

/-- Whether a number announces another base than ten. -/
def hasBase (text : List Char) : Bool :=
  match text with
  | '0' :: c :: _ => c == 'x' || c == 'o' || c == 'b'
  | _ => false

/-- Splits off the number that a text begins with, with the word that gives its type. -/
def splitNumber (text : List Char) : List Char × List Char :=
  if hasBase text then splitWord text
  else
    let whole := splitDigits text
    let fraction := splitFraction whole.2
    let exponent := splitExponent fraction.2
    let suffix := splitSuffix exponent.2
    (whole.1 ++ fraction.1 ++ exponent.1 ++ suffix.1, suffix.2)

/-! ### Reading one token -/

/-- A comment up to the end of its line; `text` is what follows the two slashes. -/
def lineComment (text : List Char) : Code × List Char :=
  let (comment, rest) := splitLine text
  let code := match comment with
    | '!' :: text => documentation true text
    | '/' :: '/' :: _ => []
    | '/' :: text => documentation false text
    | _ => []
  (code, rest)

/-- A comment up to its end; `text` is what follows the slash and the star. -/
def blockComment (text : List Char) : Code × List Char :=
  let (comment, rest) := splitComment 0 text
  let code := match text with
    | '!' :: _ => documentation true (comment.drop 1)
    | '*' :: '*' :: _ | '*' :: '/' :: _ => []
    | '*' :: _ => documentation false (comment.drop 1)
    | _ => []
  (code, rest)

/-- A literal whose text is split into what was read already and the rest of it. A word that follows
at once is part of it. -/
def literalOf (before : List Char) (split : List Char × List Char) : Code × List Char :=
  let suffix := splitSuffix split.2
  ([literal (String.ofList (before ++ split.1 ++ suffix.1))], suffix.2)

/-- What announces text without escapes. -/
def isRawPrefix (name : List Char) : Bool :=
  name = ['r'] || name = ['b', 'r'] || name = ['c', 'r']

/-- A word, or the literal that it announces. -/
def ofWord (name text : List Char) : Code × List Char :=
  let plain := ([word (String.ofList name)], text)
  match text with
  | '"' :: rest =>
    if isRawPrefix name then literalOf (name ++ ['"']) (splitRaw 0 rest)
    else if name = ['b'] ∨ name = ['c'] then literalOf (name ++ ['"']) (splitQuoted '"' rest)
    else plain
  | '\'' :: rest =>
    if name = ['b'] then literalOf ['b', '\''] (splitQuoted '\'' rest) else plain
  | '#' :: rest =>
    let hashes := text.takeWhile (· == '#')
    let behind := text.dropWhile (· == '#')
    if isRawPrefix name && behind.head? == some '"' then
      literalOf (name ++ hashes ++ ['"']) (splitRaw hashes.length behind.tail)
    else if name = ['r'] ∧ rest.head?.any isWordCharacter then
      let (name, rest) := splitWord rest
      ([word (String.ofList ('r' :: '#' :: name))], rest)
    else plain
  | _ => plain

/-- A character or a lifetime; `text` is what follows the apostrophe. -/
def ofApostrophe (text : List Char) : Code × List Char :=
  match text with
  | '\\' :: _ | _ :: '\'' :: _ => literalOf ['\''] (splitQuoted '\'' text)
  | _ =>
    match splitWord text with
    | (['r'], '#' :: rest) =>
      let (name, rest) := splitWord rest
      ([lifetime (String.ofList ('\'' :: 'r' :: '#' :: name))], rest)
    | (name, rest) => ([lifetime (String.ofList ('\'' :: name))], rest)

/-- Whether a text begins with one more sign. A comment is none. -/
def beginsWithSign (text : List Char) : Bool :=
  match text with
  | '/' :: '/' :: _ | '/' :: '*' :: _ | [] => false
  | c :: _ => "~!@#$%^&*-=+|;:,<.>/?'".toList.contains c

/-- The literal that stands where code is in error, without its first bracket. -/
def errorMark : List Char := "/*ERROR*/)".toList

/-- Reads the text `c :: text` from its start on: a token, none where a separator stands, or what a
comment stands for; and the rest of the text. -/
def read (c : Char) (text : List Char) : Code × List Char :=
  if isSeparator c then ([], text)
  else if c = '/' ∧ text.head? = some '/' then lineComment text.tail
  else if c = '/' ∧ text.head? = some '*' then blockComment text.tail
  else if c.isDigit then
    let (number, rest) := splitNumber (c :: text)
    ([literal (String.ofList number)], rest)
  else if isWordCharacter c then
    let (name, rest) := splitWord text
    ofWord (c :: name) rest
  else if c = '"' then literalOf [c] (splitQuoted c text)
  else if c = '\'' then ofApostrophe text
  else if c = '(' ∧ text.take errorMark.length = errorMark then
    ([literal (String.ofList (c :: errorMark))], text.drop errorMark.length)
  else if c = '(' ∨ c = '[' ∨ c = '\x7b' then ([opening c], text)
  else if c = ')' ∨ c = ']' ∨ c = '\x7d' then ([closing c], text)
  else ([mark c (beginsWithSign text)], text)

theorem length_splitWord_le (text : List Char) : (splitWord text).2.length ≤ text.length :=
  (List.dropWhile_sublist _).length_le

theorem length_splitSuffix_le (text : List Char) : (splitSuffix text).2.length ≤ text.length := by
  unfold splitSuffix
  split
  · exact length_splitWord_le text
  · exact Nat.le_refl _

theorem length_splitDigits_le (text : List Char) : (splitDigits text).2.length ≤ text.length :=
  (List.dropWhile_sublist _).length_le

theorem length_splitFraction_le (text : List Char) :
    (splitFraction text).2.length ≤ text.length := by
  unfold splitFraction
  split
  · next rest =>
    have := length_splitDigits_le rest
    split
    · exact Nat.le_refl _
    · simp only [List.length_cons]
      omega
  · exact Nat.le_refl _

theorem length_splitExponent_le (text : List Char) :
    (splitExponent text).2.length ≤ text.length := by
  unfold splitExponent
  split
  · next c rest =>
    dsimp only
    split
    · refine Nat.le_trans (length_splitDigits_le _) ?_
      have := (List.dropWhile_sublist (l := rest) (· == '_')).length_le
      simp only [List.length_drop, List.length_cons]
      omega
    · exact Nat.le_refl _
  · exact Nat.le_refl _

/-- A number takes at least the digit that it begins with. -/
theorem length_splitNumber_le {c : Char} (h : c.isDigit = true) (text : List Char) :
    (splitNumber (c :: text)).2.length ≤ text.length := by
  have word : isWordCharacter c = true := by simp [isWordCharacter, Char.isAlphanum, h]
  unfold splitNumber
  split
  · simp only [splitWord, List.dropWhile_cons, word, if_true]
    exact (List.dropWhile_sublist _).length_le
  · refine Nat.le_trans (length_splitSuffix_le _) (Nat.le_trans (length_splitExponent_le _)
      (Nat.le_trans (length_splitFraction_le _) ?_))
    simp only [splitDigits, List.dropWhile_cons, h, Bool.true_or, if_true]
    exact (List.dropWhile_sublist _).length_le

theorem length_splitLine_le (text : List Char) : (splitLine text).2.length ≤ text.length :=
  (List.dropWhile_sublist _).length_le

theorem length_splitComment_le (depth : Nat) (text : List Char) :
    (splitComment depth text).2.length ≤ text.length := by
  fun_induction splitComment depth text <;> simp_all <;> omega

theorem length_splitQuoted_le (closing : Char) (text : List Char) :
    (splitQuoted closing text).2.length ≤ text.length := by
  fun_induction splitQuoted closing text <;> simp_all <;> omega

theorem length_splitRaw_le (hashes : Nat) (text : List Char) :
    (splitRaw hashes text).2.length ≤ text.length := by
  fun_induction splitRaw hashes text <;> simp_all <;> omega

theorem length_literalOf_le (before : List Char) (split : List Char × List Char) :
    (literalOf before split).2.length ≤ split.2.length :=
  length_splitSuffix_le _

theorem length_ofWord_le (name text : List Char) : (ofWord name text).2.length ≤ text.length := by
  have hashes : (text.dropWhile (· == '#')).tail.length ≤ text.length :=
    Nat.le_trans (List.tail_sublist _).length_le (List.dropWhile_sublist _).length_le
  unfold ofWord
  dsimp only
  split
  · next rest =>
    have := length_splitRaw_le 0 rest
    have := length_splitQuoted_le '"' rest
    split
    · refine Nat.le_trans (length_literalOf_le _ _) ?_
      simp only [List.length_cons]
      omega
    · split
      · refine Nat.le_trans (length_literalOf_le _ _) ?_
        simp only [List.length_cons]
        omega
      · exact Nat.le_refl _
  · next rest =>
    have := length_splitQuoted_le '\'' rest
    split
    · refine Nat.le_trans (length_literalOf_le _ _) ?_
      simp only [List.length_cons]
      omega
    · exact Nat.le_refl _
  · next rest =>
    have := length_splitWord_le rest
    split
    · exact Nat.le_trans (length_literalOf_le _ _) (Nat.le_trans (length_splitRaw_le _ _) hashes)
    · split
      · simp only [List.length_cons]
        omega
      · exact Nat.le_refl _
  · exact Nat.le_refl _

theorem length_ofApostrophe_le (text : List Char) :
    (ofApostrophe text).2.length ≤ text.length := by
  have word := length_splitWord_le text
  unfold ofApostrophe
  split
  · exact Nat.le_trans (length_literalOf_le _ _) (length_splitQuoted_le _ _)
  · exact Nat.le_trans (length_literalOf_le _ _) (length_splitQuoted_le _ _)
  · split
    · next rest h =>
      rw [h, List.length_cons] at word
      have := length_splitWord_le rest
      dsimp only
      omega
    · next h =>
      rw [h] at word
      exact word

/-- A reading leaves less text than there was. -/
theorem length_read_le (c : Char) (text : List Char) : (read c text).2.length ≤ text.length := by
  have tail : text.tail.length ≤ text.length := (List.tail_sublist _).length_le
  unfold read
  dsimp only
  split
  · exact Nat.le_refl _
  split
  · exact Nat.le_trans (length_splitLine_le _) tail
  split
  · exact Nat.le_trans (length_splitComment_le _ _) tail
  split
  · next h => exact length_splitNumber_le h text
  split
  · exact Nat.le_trans (length_ofWord_le _ _) (length_splitWord_le _)
  split
  · exact Nat.le_trans (length_literalOf_le _ _) (length_splitQuoted_le _ _)
  split
  · exact length_ofApostrophe_le _
  split
  · simp
  split
  · exact Nat.le_refl _
  split <;> exact Nat.le_refl _

/-- The tokens met in `steps` readings. -/
def readAll : Nat → List Char → Code
  | 0, _ | _, [] => []
  | steps + 1, c :: text =>
    let (code, rest) := read c text
    code ++ readAll steps rest

end Token

namespace Code

/-- The tokens of a text. As many readings as there are characters reach its end, since each of them
takes at least one (`Token.length_read_le`). -/
def ofText (text : String) : Code := Token.readAll text.length text.toList

/-- The tokens as they are written, one behind the other. Spaces are left out, also from quoted
text. -/
def text (code : Code) : String :=
  String.ofList ((code.flatMap (·.text.toList)).filter (· != ' '))

example : text (ofText "Vec\x0c< /* of */ u8\u200E >") = "Vec<u8>" := by decide +kernel
example : text (ofText "a /* b /* c */ /*/ d */*/ * / e // f\n g") = "a*/eg" := by
  decide +kernel
example : text (ofText "[&'a u8; \" /* \\\" \t\" . '\"' .x ()]") =
    "[&'au8;\"/*\\\"\t\".'\"'.x()]" := by decide +kernel
example : text (ofText "m![r#\" \"// \"# // x\n, r#fn]") = "m![r#\"\"//\"#,r#fn]" := by
  decide +kernel
example : text (ofText "/** d */ x /// e\r\n/***/") = "#[doc=\"d\"]x#[doc=\"e\"]" := by
  decide +kernel
example : ofText "'a b::'c'd 1.0e-5_f.1" =
    [.lifetime "'a", .word "b", .mark ':' true, .mark ':' true, .literal "'c'd",
      .literal "1.0e-5_f", .mark '.' false, .literal "1"] := by decide +kernel
example : ofText "0x1.2 1..2 1.x 1e 1e+" =
    [.literal "0x1", .mark '.' false, .literal "2", .literal "1", .mark '.' true,
      .mark '.' false, .literal "2", .literal "1", .mark '.' false, .word "x", .literal "1e",
      .literal "1e", .mark '+' false] := by decide +kernel

end Code

end ConsoleMemory.Accessors
