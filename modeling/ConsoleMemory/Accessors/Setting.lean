import ConsoleMemory.Accessors.DeriveError
import ConsoleMemory.Accessors.Grammar.Annotation

/-!
The settings in an attribute, each the path of an option and maybe a value. They are read up to the
first one that is not formed well.
-/

namespace ConsoleMemory.Accessors

/-- An option as written in an attribute; without a value it asks for true. -/
structure Setting where
  name : Code
  /-- The truth value, none for a value of another kind. -/
  flag : Option Bool
deriving DecidableEq, Repr

namespace Setting

/-- The rest of a path behind its first word, and what follows it. -/
def restOfPath : Code → Except DeriveError (Code × Code)
  | .mark ':' true :: .mark ':' j :: .word w :: rest => do
    let (path, rest) ← restOfPath rest
    return (.mark ':' true :: .mark ':' j :: .word w :: path, rest)
  | .mark ':' true :: .mark ':' _ :: rest => throw (.missingWord rest.isEmpty)
  | rest => return ([], rest)

/-- The path that code begins with, and what follows it. -/
def path (code : Code) : Except DeriveError (Code × Code) := do
  let start := if code.hasMark "::" then code.take 2 else []
  let (name, rest) := (code.drop start.length).splitAt 1
  if Code.hasAnyWord name then
    let (path, rest) ← restOfPath rest
    return (start ++ name ++ path, rest)
  else if name.isEmpty then throw .missingName
  else if Code.hasLiteral (code.drop start.length) then throw .literalName
  else throw .markName

/-- The value behind a sign of equality, and what follows it. -/
def value (code : Code) : Except DeriveError (Option Bool × Code) :=
  if code.hasWord "true" then return (some true, code.drop 1)
  else if code.hasWord "false" then return (some false, code.drop 1)
  else if code.hasLiteral then return (none, code.drop (if code.hasMark "-" then 2 else 1))
  else throw (.missingValue code.isEmpty)

/-- The setting that code begins with, and what follows it. -/
def read (code : Code) : Except DeriveError (Setting × Code) := do
  let (name, rest) ← path code
  if rest.isEmpty || rest.hasMark "," then return (⟨name, some true⟩, rest)
  else if rest.hasMark "=" then
    let (flag, rest) ← value (rest.drop 1)
    return (⟨name, flag⟩, rest)
  else throw .missingEquals

/-- The settings met in `steps` readings, and what is wrong behind them. -/
def readFor : Nat → Code → List Setting × Option DeriveError
  | 0, _ => ([], none)
  | steps + 1, code =>
    if code.isEmpty then ([], none)
    else
      match read code with
      | .error e => ([], some e)
      | .ok (s, rest) =>
        if rest.isEmpty then ([s], none)
        else if rest.hasMark "," then
          let (settings, fault) := readFor steps (rest.drop 1)
          (s :: settings, fault)
        else ([s], some .missingComma)

/-- All settings up to the first one that is not formed well, and what is wrong with that one. Each
has one token at least, so that there are no more settings than tokens. -/
def ofCode (code : Code) : List Setting × Option DeriveError := readFor code.length code

example : ofCode (Code.ofText "get, skip = false, a::b = 1,") =
    ([⟨[.word "get"], some true⟩, ⟨[.word "skip"], some false⟩,
      ⟨Code.ofText "a::b", none⟩], none) := by decide +kernel
example : ofCode (Code.ofText "get x") = ([], some .missingEquals) := by decide +kernel
example : ofCode (Code.ofText "get, a::") =
    ([⟨[.word "get"], some true⟩], some (.missingWord true)) := by decide +kernel

end Setting

/-- The settings that an annotation holds in brackets, and what is wrong behind them. -/
def Annotation.settings (a : Annotation) : List Setting × Option DeriveError :=
  match a.content with
  | .nothing => ([], some .missingArguments)
  | .bracketed _ code => Setting.ofCode code
  | .assigned _ => ([], some .missingParentheses)

end ConsoleMemory.Accessors
