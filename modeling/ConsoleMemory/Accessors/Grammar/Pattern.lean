import ConsoleMemory.Accessors.Grammar.Type
import ConsoleMemory.Text.Basic

/-!
Patterns. The numbers of fields are written in base ten, and patterns for what is boxed stay as they
are.
-/

namespace ConsoleMemory.Accessors

namespace Token

/-- The number of a field in base ten. -/
def fieldNumber (digits : List Char) : Code :=
  let value := match digits with
    | '0' :: 'x' :: rest => Text.valueIn 16 rest
    | '0' :: 'o' :: rest => Text.valueIn 8 rest
    | '0' :: 'b' :: rest => Text.valueIn 2 rest
    | digits => Text.valueIn 10 digits
  [literal (toString value)]

/-- The parts of a text that stand between points, the last one after the last point. -/
def splitPoints (text : List Char) : List (List Char) :=
  text.foldr (fun c parts => match parts with
    | part :: parts => if c = '.' then [] :: part :: parts else (c :: part) :: parts
    | [] => []) [[]]

/-- The numbers of fields in fields: what is read as a number with a point where it stands for
fields is their numbers. -/
def fieldNumbers (text : List Char) : Code :=
  let point : Code := [mark '.' false]
  point.intercalate ((splitPoints text).map fun part =>
    if part.isEmpty then [] else fieldNumber part)

example : fieldNumbers "0x1F".toList = [literal "31"] := by decide +kernel
example : fieldNumbers "01.1_0".toList = [literal "1", mark '.' false, literal "10"] := by
  decide +kernel
example : fieldNumbers "7.".toList = [literal "7", mark '.' false] := by decide +kernel

end Token

namespace Code

/-- Whether alternatives follow. -/
def hasAlternative (code : Code) : Bool :=
  code.hasMark "|" && !code.hasMark "||" && !code.hasMark "|="

/-- Whether a range in a pattern goes on without an end. -/
def endsRange (code : Code) : Bool :=
  code.isDone || code.hasMark "|" || code.hasMark "=" ||
    (code.hasMark ":" && !code.hasMark "::") || code.hasMark "," || code.hasMark ";" ||
    code.hasWord "if"

/-- Whether a word begins a path in a pattern. -/
def hasPatternPath (code : Code) : Bool :=
  let next := code.afterTree
  (code.hasName && (next.hasMark "::" || next.hasMark "!" || next.hasBracket '\x7b' ||
      next.hasBracket '(' || next.hasMark "..")) ||
    (code.hasWord "self" && next.hasMark "::") || code.hasMark "::" || code.hasMark "<" ||
    code.hasWordOf ["Self", "super", "crate"]

end Code

namespace Reader

/-- The mark of a range. -/
def rangeMark : Reader := do
  let code ← get
  if code.hasMark "..=" then mark "..=" else if code.hasMark "..." then mark "..." else mark ".."

/-- The name or the number of a field. -/
def fieldName : Reader := do
  match ← get with
  | .literal text :: _ =>
    discard literal
    return Token.fieldNumbers text.toList
  | _ => name

variable (phrases : Phrases)

/-- A block behind a word, with the attributes inside of it. -/
def block : Reader := group '\x7b' (all [innerAttributes phrases, phrases .statements])

/-- The patterns of some alternatives. -/
def patterns : Reader :=
  all [optionalMark "|", phrases .pattern,
    many (!·.hasAlternative) (all [mark "|", phrases .pattern])]

/-- An end of a range in a pattern. -/
def rangeEnd : Reader := do
  let code ← get
  if code.hasLiteral then literal
  else if code.hasWord "const" then all [word "const", block phrases]
  else path phrases true

/-- What follows the beginning of a range in a pattern. -/
def rangeRest : Reader :=
  all [rangeMark, when (!·.endsRange) (rangeEnd phrases)]

/-- The pattern for one field. -/
def fieldPattern : Reader := do
  let attributes ← attributes phrases
  let code ← get
  if code.hasMark ".." then
    return attributes ++ (← mark "..")
  else if code.hasWordOf ["box", "ref", "mut"] then
    return attributes ++
      (← all [optionalWord "box", optionalWord "ref", optionalWord "mut", name])
  else
    return attributes ++
      (← all [fieldName, when (·.hasMark ":") (all [mark ":", patterns phrases])])

/-- A pattern that begins with a path. -/
def pathPattern : Reader := do
  let path ← path phrases true
  let code ← get
  if code.hasCallMark && path.isPlainPath then
    return path ++ (← all [mark "!", tree])
  else if code.hasBracket '\x7b' then
    return path ++ (← commas '\x7b' (fieldPattern phrases))
  else if code.hasBracket '(' then
    return path ++ (← commas '(' (patterns phrases))
  else if code.hasMark ".." then
    return path ++ (← rangeRest phrases)
  else return path

/-- A pattern without alternatives. -/
def pattern : Reader := do
  let code ← get
  if code.hasPatternPath then pathPattern phrases
  else if code.hasWord "_" then word "_"
  else if code.hasWord "box" then verbatim (all [word "box", phrases .pattern])
  else if code.hasLiteral || code.hasWord "const" then
    all [rangeEnd phrases, when (·.hasMark "..") (rangeRest phrases)]
  else if code.hasMark "&" then all [mark "&", optionalWord "mut", phrases .pattern]
  else if code.hasBracket '(' then commas '(' (patterns phrases)
  else if code.hasBracket '[' then commas '[' (patterns phrases)
  else if code.hasMark ".." then rangeRest phrases
  else
    all [optionalWord "ref", optionalWord "mut", orElse name (word "self"),
      when (·.hasMark "@") (all [mark "@", phrases .pattern])]

end Reader

end ConsoleMemory.Accessors
