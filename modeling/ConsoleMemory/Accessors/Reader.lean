import ConsoleMemory.Accessors.Token

/-!
Reading code from its start on. A reader takes some tokens and gives them back in the form in which
they are written out; it fails on code that it cannot read. What follows is looked at first, so that
a reader that has begun does not turn back. A phrase of code can hold any other, so each one is read
with the help of a reader for all of them, which is tied to itself in the end.
-/

namespace ConsoleMemory.Accessors

namespace Code

/-! ### Looking ahead -/

/-- Splits off what is left of an open bracket, `depth` brackets deep, with what closes it. -/
def splitInside : Nat → Code → Code × Code
  | _, [] => ([], [])
  | 0, .closing c :: rest => ([.closing c], rest)
  | depth + 1, .closing c :: rest =>
    let (inside, rest) := splitInside depth rest
    (.closing c :: inside, rest)
  | depth, .opening c :: rest =>
    let (inside, rest) := splitInside (depth + 1) rest
    (.opening c :: inside, rest)
  | depth, t :: rest =>
    let (inside, rest) := splitInside depth rest
    (t :: inside, rest)

/-- Splits off one token, or a bracket with all inside of it. -/
def splitTree : Code → Code × Code
  | [] => ([], [])
  | .opening c :: rest =>
    let (inside, rest) := splitInside 0 rest
    (.opening c :: inside, rest)
  | t :: rest => ([t], rest)

/-- What follows one token, or a bracket with all inside of it. -/
def afterTree (code : Code) : Code := code.splitTree.2

/-- Whether code begins with some signs that are joined to each other. -/
def hasSigns : List Char → Code → Bool
  | [], _ => true
  | [c], .mark d _ :: _ => c == d
  | c :: signs, .mark d isJoint :: rest => c == d && isJoint && hasSigns signs rest
  | _, _ => false

def hasMark (code : Code) (mark : String) : Bool := hasSigns mark.toList code

def hasWord (code : Code) (word : String) : Bool := code.head? == some (.word word)

/-- Whether code begins with one of some words. -/
def hasWordOf (code : Code) (words : List String) : Bool := words.any code.hasWord

def hasBracket (code : Code) (bracket : Char) : Bool := code.head? == some (.opening bracket)

def hasAnyBracket (code : Code) : Bool :=
  code.hasBracket '(' || code.hasBracket '[' || code.hasBracket '\x7b'

/-- Whether code is at its end or at the end of the brackets that it stands in. -/
def isDone (code : Code) : Bool :=
  match code with
  | [] | .closing _ :: _ => true
  | _ => false

/-- The words that serve as no name. -/
def keywords : List String :=
  ["_", "abstract", "as", "async", "await", "become", "box", "break", "const", "continue", "crate",
    "do", "dyn", "else", "enum", "extern", "false", "final", "fn", "for", "if", "impl", "in", "let",
    "loop", "macro", "match", "mod", "move", "mut", "override", "priv", "pub", "ref", "return",
    "Self", "self", "static", "struct", "super", "trait", "true", "try", "type", "typeof", "unsafe",
    "unsized", "use", "virtual", "where", "while", "yield"]

def hasName (code : Code) : Bool :=
  match code with
  | .word w :: _ => !keywords.contains w
  | _ => false

def hasAnyWord (code : Code) : Bool :=
  match code with
  | .word _ :: _ => true
  | _ => false

def hasLifetime (code : Code) : Bool :=
  match code with
  | .lifetime _ :: _ => true
  | _ => false

/-- Whether code begins with a value that is written as such: a number, maybe with a sign, quoted
text or a truth value. -/
def hasLiteral (code : Code) : Bool :=
  match code with
  | .literal _ :: _ => true
  | .mark '-' _ :: .literal text :: _ => text.toList.head?.any Char.isDigit
  | _ => code.hasWordOf ["true", "false"]

end Code

/-- A reader that gives a value and the code that is left. -/
abbrev ReaderOf (α : Type) := StateT Code Option α

/-- A reader that gives what it has read, as it is written out. -/
abbrev Reader := ReaderOf Code

namespace Reader

/-! ### One token or bracket -/

/-- Takes what comes next as it is: a token, or a bracket with all inside of it. -/
def tree : Reader := fun code =>
  if code.isDone then none else some code.splitTree

/-- Takes as many signs as `mark` has. -/
def mark (mark : String) : Reader := fun code =>
  if code.hasMark mark then some (code.take mark.length, code.drop mark.length) else none

def word (word : String) : Reader := fun code =>
  if code.hasWord word then some (code.take 1, code.drop 1) else none

/-- Takes one token that some test admits. -/
def tokenOf (test : Code → Bool) : Reader := fun code =>
  if test code then some (code.take 1, code.drop 1) else none

def name : Reader := tokenOf Code.hasName

def anyWord : Reader := tokenOf Code.hasAnyWord

def lifetime : Reader := tokenOf Code.hasLifetime

/-- A value that is written as such. -/
def literal : Reader := fun code =>
  if code.hasLiteral then
    let length := if code.hasMark "-" then 2 else 1
    some (code.take length, code.drop length)
  else none

/-! ### Composition -/

def nothing : Reader := pure []

/-- One reader after the other. -/
def all (readers : List Reader) : Reader :=
  readers.foldlM (fun code reader => return code ++ (← reader)) []

/-- Reads where the code ahead passes a test, and takes nothing elsewhere. -/
def when (test : Code → Bool) (reader : Reader) : Reader := do
  if test (← get) then reader else nothing

def optionalMark (mark : String) : Reader := when (·.hasMark mark) (.mark mark)

def optionalWord (word : String) : Reader := when (·.hasWord word) (.word word)

/-- What `reader` gives, no more than `steps` times, until the code ahead passes a test. -/
def collectFor {α : Type} (stop : Code → Bool) (reader : ReaderOf α) : Nat → ReaderOf (List α)
  | 0 => failure
  | steps + 1 => do
    if stop (← get) then return []
    else
      let a ← reader
      return a :: (← collectFor stop reader steps)

/-- What `reader` gives, again and again, until the code ahead passes a test. A reader that takes
something each time gets there in no more steps than there are tokens. -/
def collect {α : Type} (stop : Code → Bool) (reader : ReaderOf α) : ReaderOf (List α) := do
  let code ← get
  collectFor stop reader (code.length + 1)

/-- Takes what `reader` takes, again and again, until the code ahead passes a test. -/
def many (stop : Code → Bool) (reader : Reader) : Reader := do
  return (← collect stop reader).flatten

/-- What `reader` gives, each with the mark that follows it. They end where no mark follows, or in
front of code that passes a test. -/
def listFor {α : Type} (separator : String) (stop : Code → Bool) (reader : ReaderOf α) :
    Nat → ReaderOf (List (α × Code))
  | 0 => failure
  | steps + 1 => do
    if stop (← get) then return []
    else
      let a ← reader
      let mark ← optionalMark separator
      if mark.isEmpty then return [(a, [])]
      else return (a, mark) :: (← listFor separator stop reader steps)

/-- What `reader` gives, with marks between and maybe behind; only the last one can go without. -/
def list {α : Type} (separator : String) (stop : Code → Bool) (reader : ReaderOf α) :
    ReaderOf (List (α × Code)) := do
  let code ← get
  listFor separator stop reader (code.length + 1)

/-- Takes what `reader` takes, with marks between and maybe behind. -/
def separated (separator : String) (stop : Code → Bool) (reader : Reader) : Reader := do
  return (← list separator stop reader).flatMap fun (code, mark) => code ++ mark

/-- A bracket, with `inside` for all that it holds. -/
def group (bracket : Char) (inside : Reader) : Reader := do
  let opening ← tokenOf (·.hasBracket bracket)
  let code ← inside
  let closing ← tokenOf fun code => !code.isEmpty && code.isDone
  return opening ++ code ++ closing

/-- Pieces with commas, for all that a bracket holds. -/
def commas (bracket : Char) (reader : Reader) : Reader :=
  group bracket (separated "," (·.isDone) reader)

/-- Gives what `reader` takes as it stands. -/
def verbatim {α : Type} (reader : ReaderOf α) : Reader := do
  let before : Code ← get
  discard reader
  let after : Code ← get
  return before.take (before.length - after.length)

/-- Takes all up to the end of the brackets around as it stands. -/
def remainder : Reader := many (·.isDone) tree

/-- Takes what `reader` takes, if that is all up to the end of the brackets around. -/
def whole (reader : Reader) : Reader := do
  let code ← reader
  if (← get).isDone then return code else failure

/-- What one reader takes or, where it fails, what the other one does. -/
def orElse (first second : Reader) : Reader := fun code =>
  match first code with
  | some result => some result
  | none => second code

/-- Takes all up to the end of the brackets around: what `reader` can read, anything else as it
stands. -/
def readable (reader : Reader) : Reader := orElse (whole reader) remainder

/-- Reads all of some code. -/
def run {α : Type} (reader : ReaderOf α) (code : Code) : Option α :=
  match reader code with
  | some (a, []) => some a
  | _ => none

example : run (commas '(' name) (Code.ofText "(a, b,)") = some (Code.ofText "(a, b,)") := by
  decide +kernel
example : run (verbatim (all [name, tree])) (Code.ofText "a [b (c) d]") =
    some (Code.ofText "a [b (c) d]") := by decide +kernel
example : run (mark "<=") (Code.ofText "< =") = none := by decide +kernel

end Reader

/-! ### Phrases -/

/-- The phrases that code is made of. -/
inductive Phrase where
  /-- A type; `plus` says whether more bounds can be added to it. -/
  | type (plus : Bool)
  | bound
  /-- An expression; `struct` says whether a brace behind a path belongs to it. -/
  | expression (struct : Bool)
  /-- The part of an expression between two operators. -/
  | operand (struct : Bool)
  /-- An expression that ends with its closing brace if it begins like a statement. -/
  | statementExpression
  | pattern
  /-- What the braces of a block hold. -/
  | statements
  | definition
  /-- A member of a trait. -/
  | requirement
  /-- A member of an implementation. -/
  | method
  /-- A member of a block of foreign code. -/
  | foreign
deriving DecidableEq, Repr

/-- A reader for each phrase. -/
abbrev Phrases := Phrase → Reader

end ConsoleMemory.Accessors
