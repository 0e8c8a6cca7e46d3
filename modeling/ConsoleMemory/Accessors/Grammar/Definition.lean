import ConsoleMemory.Accessors.Grammar.Expression

/-!
Definitions and statements. A definition that is incomplete where it stands, or in a form that has
no meaning yet, stays as it is.
-/

namespace ConsoleMemory.Accessors

namespace Code

/-- What follows a word that may be missing. -/
def afterWord (code : Code) (word : String) : Code :=
  if code.hasWord word then code.drop 1 else code

/-- Whether a function is announced. -/
def hasFunction (code : Code) : Bool :=
  let code := (((code.afterWord "const").afterWord "async").afterWord "safe").afterWord "unsafe"
  code.hasWord "fn" || (code.hasWord "extern" &&
    (code.afterTree.hasWord "fn" || (code.afterTree.hasLiteral &&
      code.afterTree.afterTree.hasWord "fn")))

/-- Whether a visibility is restricted to some place. -/
def hasRestriction (code : Code) : Bool :=
  code.hasBracket '(' && (hasWord (code.drop 1) "in" ||
    (hasWordOf (code.drop 1) ["crate", "self", "super"] && isDone (code.drop 2)))

/-- Whether parameters and no type stand between the angle brackets that follow. -/
def hasParameters (code : Code) : Bool :=
  let next := code.afterTree
  let later := next.afterTree
  code.hasMark "<" && (next.hasMark ">" || next.hasMark "#" || next.hasWord "const" ||
    ((next.hasLifetime || next.hasName) && (later.hasMark ">" || later.hasMark "," ||
      (later.hasMark ":" && !later.hasMark "::") || later.hasMark "=")))

/-- What follows the path of words that code begins with. -/
def afterPlainPath (code : Code) : Code :=
  ((Reader.plainPath code).map (·.2)).getD []

/-- Whether a macro is defined or called here with its name behind the mark. -/
def hasNamedMacro (code : Code) : Bool :=
  code.afterPlainPath.hasMark "!" &&
    (hasName (code.afterPlainPath.drop 1) || hasWord (code.afterPlainPath.drop 1) "try")

/-- Whether a macro is called here with braces, and nothing is done with what it gives. -/
def hasMacroStatement (code : Code) : Bool :=
  let next := code.afterPlainPath.drop 1
  let later := afterTree next
  code.afterPlainPath.hasMark "!" && hasBracket next '\x7b' &&
    !((later.hasMark "." && !later.hasMark "..") || later.hasMark "?")

/-- Whether a definition begins here. -/
def hasDefinition (code : Code) : Bool :=
  let next := code.afterTree
  let later := next.afterTree
  code.hasWordOf ["pub", "extern", "use", "fn", "mod", "type", "struct", "enum", "trait", "impl",
      "macro"] ||
    (code.hasWord "crate" && !next.hasMark "::") ||
    (code.hasWord "static" && (next.hasWord "mut" || next.hasName)) ||
    (code.hasWord "const" && !(next.hasBracket '\x7b' || next.hasWord "static" ||
      (next.hasWord "async" && !later.hasWordOf ["unsafe", "extern", "fn"]) ||
      next.hasWord "move" || next.hasMark "|")) ||
    (code.hasWord "unsafe" && !next.hasBracket '\x7b') ||
    (code.hasWord "async" && next.hasWordOf ["unsafe", "extern", "fn"]) ||
    (code.hasWord "union" && next.hasName) ||
    (code.hasWord "auto" && next.hasWord "trait") ||
    (code.hasWord "default" && next.hasWordOf ["unsafe", "impl"]) ||
    code.hasNamedMacro

end Code

namespace Reader

/-- Takes all up to a semicolon, with it. -/
def throughSemicolon : Reader := all [many (·.hasMark ";") tree, mark ";"]

variable (phrases : Phrases)

/-! ### Fields and functions -/

def visibility : Reader :=
  when (·.hasWord "pub") (all [word "pub", when (·.hasRestriction) tree])

/-- The type of a field. One without a name can hold fields of its own, which stay as they are. -/
def fieldType : Reader := do
  let code ← get
  if code.hasWord "struct" || (code.hasWord "union" && code.afterTree.hasBracket '\x7b') then
    all [anyWord, tree]
  else phrases (.type true)

def field : Reader :=
  all [attributes phrases, visibility, anyWord, mark ":", fieldType phrases]

def fields : Reader := commas '\x7b' (field phrases)

/-- Fields without names. -/
def unnamedFields : Reader :=
  commas '(' (all [attributes phrases, visibility, phrases (.type true)])

/-- The receiver of a method. -/
def receiver : Reader := do
  if (← get).hasMark "&" then
    all [mark "&", when (·.hasLifetime) lifetime, optionalWord "mut", word "self"]
  else
    all [optionalWord "mut", word "self",
      when (·.hasMark ":") (all [mark ":", phrases (.type true)])]

/-- A parameter of a function with its type, which can be left without a name. -/
def namedParameter : Reader := do
  let code ← get
  if code.hasName && code.afterTree.hasMark "<" then
    return [.word "_", .mark ':' false] ++ (← phrases (.type true))
  else
    let start ← all [phrases .pattern, mark ":"]
    let code ← get
    return start ++ (← if code.hasMark "..." then variadic else phrases (.type true))

def functionParameter : Reader := do
  let attributes ← attributes phrases
  let code ← get
  return attributes ++ (← if code.hasMark "..." then variadic
    else orElse (receiver phrases) (namedParameter phrases))

/-- A function without its body. -/
def functionHead : Reader := do
  let start ← all [optionalWord "const", optionalWord "async", optionalWord "safe",
    optionalWord "unsafe", foreignMark, word "fn", name, generics phrases]
  return start ++ (← all [commas '(' (functionParameter phrases), result phrases true,
    conditions phrases])

/-! ### Definitions

Each of these readers also says whether the definition stays as it is. -/

/-- Takes what `reader` takes; it is written out as read. -/
def complete (reader : Reader) : ReaderOf (Code × Bool) := do return (← reader, false)

/-- A function; it has a body unless the place where it stands admits that it has none. -/
def function (mayLackBody : Bool) : ReaderOf (Code × Bool) := do
  let head ← functionHead phrases
  if (← get).hasMark ";" then
    return (head ++ (← mark ";"), !mayLackBody)
  else
    return (head ++ (← block phrases), false)

/-- Where the conditions of a type can stand. -/
inductive ConditionPlace where
  | beforeValue
  | afterValue
  | both
deriving DecidableEq, Repr

/-- A type with another name; `isVerbatim` says whether it stays as it is, given whether it has
bounds and a value. -/
def typeDefinition (place : ConditionPlace) (isVerbatim : Bool → Bool → Bool) :
    ReaderOf (Code × Bool) := do
  let start ← all [word "type", name, generics phrases]
  let colon ← optionalMark ":"
  let bounds ← if colon.isEmpty then nothing
    else boundsUpTo phrases fun code =>
      code.hasWord "where" || code.hasMark "=" || code.hasMark ";"
  let before ← if place = .afterValue then nothing else conditions phrases
  let value ← when (·.hasMark "=") (all [mark "=", phrases (.type true)])
  let after ← if place = .beforeValue then nothing else conditions phrases
  let stop ← mark ";"
  return (start ++ (if bounds.isEmpty then [] else colon) ++ bounds ++ before ++ value ++ after ++
    stop, isVerbatim (!colon.isEmpty) (!value.isEmpty))

/-- A constant; without a value it stays as it is unless the place where it stands admits that it
has none. -/
def constantDefinition (mayLackValue : Bool) : ReaderOf (Code × Bool) := do
  let start ← all [word "const", anyWord]
  let hasParameters := (← get).hasMark "<"
  let type ← all [generics phrases, mark ":", phrases (.type true)]
  let value ← when (·.hasMark "=") (all [mark "=", phrases (.expression true)])
  let hasConditions := (← get).hasWord "where"
  let stop ← all [conditions phrases, mark ";"]
  return (start ++ type ++ value ++ stop,
    hasParameters || hasConditions || (value.isEmpty && !mayLackValue))

def staticDefinition : ReaderOf (Code × Bool) := do
  let start ← all [word "static", optionalWord "mut", name]
  let type ← when (·.hasMark ":") (all [mark ":", phrases (.type true)])
  let value ← when (·.hasMark "=") (all [mark "=", phrases (.expression true)])
  return (start ++ type ++ value ++ (← mark ";"), type.isEmpty || value.isEmpty)

/-- A structure or a union. -/
def record : Reader := do
  let start ← all [anyWord, name, generics phrases]
  let code ← get
  if code.hasBracket '(' then
    return start ++ (← all [unnamedFields phrases, conditions phrases, mark ";"])
  else
    let conditions ← conditions phrases
    let code ← get
    return start ++ conditions ++ (← if code.hasMark ";" then mark ";" else fields phrases)

/-- One of the alternatives of a type. No visibility is written. -/
def variant : Reader := do
  let attributes ← attributes phrases
  discard visibility
  let name ← name
  let code ← get
  let fields ← if code.hasBracket '\x7b' then fields phrases
    else if code.hasBracket '(' then unnamedFields phrases
    else nothing
  let value ← when (·.hasMark "=") <| all [mark "=",
    orElse (phrases (.expression true)) (many (fun code => code.isDone || code.hasMark ",") tree)]
  return attributes ++ name ++ fields ++ value

/-- A type with alternatives. -/
def enumeration : Reader :=
  all [word "enum", name, generics phrases, conditions phrases, commas '\x7b' (variant phrases)]

/-- The members of a definition in braces. -/
def members (member : Phrase) : Reader :=
  group '\x7b' (all [innerAttributes phrases, many (·.isDone) (phrases member)])

/-- A trait, or another name for some bounds. -/
def trait : Reader := do
  let start ← all [optionalWord "unsafe", optionalWord "auto", word "trait", name, generics phrases]
  let stop (code : Code) := code.hasWord "where" || code.hasBracket '\x7b' || code.hasMark ";"
  if (← get).hasMark "=" then
    return start ++ (← all [mark "=", boundsUpTo phrases stop, conditions phrases, mark ";"])
  else
    let colon ← optionalMark ":"
    let bounds ← if colon.isEmpty then nothing else boundsUpTo phrases stop
    return start ++ (if bounds.isEmpty then [] else colon) ++ bounds ++
      (← all [conditions phrases, members phrases .requirement])

/-- An implementation; `hasVisibility` says whether a visibility stands in front, which has no
meaning there. What implements no trait but excludes one has a type that stays as it is. -/
def implementation (hasVisibility : Bool) : ReaderOf (Code × Bool) := do
  let start ← all [optionalWord "default", optionalWord "unsafe", word "impl"]
  let generics ← when (·.hasParameters) (generics phrases)
  let isConst := (← get).hasWord "const" ||
    ((← get).hasMark "?" && (← get).afterTree.hasWord "const")
  let announced ← all [optionalMark "?", optionalWord "const"]
  let before : Code ← get
  let isExcluded := before.hasMark "!" && !before.afterTree.hasBracket '\x7b'
  let polarity ← if isExcluded then mark "!" else nothing
  let code : Code ← get
  let isPath := !code.hasMark "<" &&
    ((typePath phrases code).map (·.2.hasWord "for")).getD false
  let first ← phrases (.type true)
  let after : Code ← get
  let hasTarget := after.hasWord "for"
  let target ← when (·.hasWord "for") (all [word "for", phrases (.type true)])
  let head := if isExcluded && !hasTarget then before.take (before.length - after.length)
    else polarity ++ first
  let rest ← all [conditions phrases, members phrases .method]
  return (start ++ generics ++ announced ++ head ++ target ++ rest,
    hasVisibility || isConst || (hasTarget && !isPath))

/-- A module. -/
def module : Reader := do
  let start ← all [optionalWord "unsafe", word "mod", anyWord]
  let code ← get
  return start ++ (← if code.hasMark ";" then mark ";" else members phrases .definition)

/-- A block of foreign code. -/
def foreignBlock : Reader :=
  all [optionalWord "unsafe", foreignMark, members phrases .foreign]

/-- A macro called where a definition can stand, or a definition of one. -/
def macroDefinition : Reader := do
  let start ← all [plainPath, mark "!", when (!·.hasAnyBracket) anyWord]
  let isBrace := (← get).hasBracket '\x7b'
  return start ++ (← tree) ++ (← if isBrace then nothing else mark ";")

/-- A definition behind its attributes and its visibility. -/
def definitionBody (hasVisibility : Bool) : ReaderOf (Code × Bool) := do
  let code ← get
  let next := code.afterTree
  if code.hasFunction then function phrases false
  else if code.hasWord "use" || (code.hasWord "extern" && next.hasWord "crate") then
    complete throughSemicolon
  else if code.hasWord "extern" || (code.hasWord "unsafe" && next.hasWord "extern") then
    complete (foreignBlock phrases)
  else if code.hasWord "static" then staticDefinition phrases
  else if code.hasWord "const" then constantDefinition phrases false
  else if code.hasWord "mod" || (code.hasWord "unsafe" && next.hasWord "mod") then
    complete (module phrases)
  else if code.hasWord "type" then
    typeDefinition phrases .beforeValue fun hasBounds hasValue => hasBounds || !hasValue
  else if code.hasWord "struct" || (code.hasWord "union" && next.hasName) then
    complete (record phrases)
  else if code.hasWord "enum" then complete (enumeration phrases)
  else if code.hasWord "trait" || next.hasWord "trait" || (code.hasWord "unsafe" &&
      next.hasWord "auto") then
    complete (trait phrases)
  else if code.hasWordOf ["impl", "unsafe"] || (code.hasWord "default" && !next.hasMark "!") then
    implementation phrases hasVisibility
  else if code.hasWord "macro" then
    return (← all [word "macro", name, when (·.hasBracket '(') tree, tree], true)
  else complete macroDefinition

/-- Reads with attributes and a visibility in front; what stays as it is does so as a whole. -/
def withAttributes (body : (hasVisibility : Bool) → ReaderOf (Code × Bool)) : Reader := do
  let before : Code ← get
  let attributes ← attributes phrases
  let visibility ← visibility
  let (code, isVerbatim) ← body !visibility.isEmpty
  let after : Code ← get
  return if isVerbatim then before.take (before.length - after.length)
    else attributes ++ visibility ++ code

def definition : Reader := withAttributes phrases (definitionBody phrases)

/-- A member of a trait. One with a visibility or a default stays as it is. -/
def requirement : Reader := withAttributes phrases fun hasVisibility => do
  let hasDefault := (← get).hasWord "default" && !(← get).afterTree.hasMark "!"
  let announced ← if hasDefault then word "default" else nothing
  let code ← get
  let (code, isVerbatim) ←
    if code.hasFunction then function phrases true
    else if code.hasWord "const" then constantDefinition phrases true
    else if code.hasWord "type" then typeDefinition phrases .afterValue fun _ _ => false
    else complete macroDefinition
  return (announced ++ code, isVerbatim || hasVisibility || hasDefault)

/-- A member of an implementation. -/
def method : Reader := withAttributes phrases fun _ => do
  let hasDefault := (← get).hasWord "default" && !(← get).afterTree.hasMark "!"
  let announced ← if hasDefault then word "default" else nothing
  let code ← get
  let (code, isVerbatim) ←
    if code.hasFunction then function phrases false
    else if code.hasWord "const" then constantDefinition phrases false
    else if code.hasWord "type" then
      typeDefinition phrases .afterValue fun hasBounds hasValue => hasBounds || !hasValue
    else complete macroDefinition
  return (announced ++ code, isVerbatim)

/-- A member of a block of foreign code. One that is called safe, or has a body or a value, stays as
it is. -/
def foreign : Reader := withAttributes phrases fun _ => do
  let code ← get
  if code.hasFunction then
    let isSafe := ((code.afterWord "const").afterWord "async").hasWord "safe"
    let head ← functionHead phrases
    let code ← get
    let hasBody := !code.hasMark ";"
    return (head ++ (← if hasBody then block phrases else mark ";"), isSafe || hasBody)
  else if code.hasWord "static" || code.afterTree.hasWord "static" then
    let announced ← if code.hasWord "static" then nothing else anyWord
    let start ← all [word "static", optionalWord "mut", name, mark ":", phrases (.type true)]
    let value ← when (·.hasMark "=") (all [mark "=", phrases (.expression true)])
    return (announced ++ start ++ value ++ (← mark ";"), !announced.isEmpty || !value.isEmpty)
  else if code.hasWord "type" then
    typeDefinition phrases .both fun hasBounds hasValue => hasBounds || hasValue
  else complete macroDefinition

/-! ### Statements -/

/-- A variable. -/
def variableStatement : Reader :=
  all [word "let", phrases .pattern, when (·.hasMark ":") (all [mark ":", phrases (.type true)]),
    when (·.hasMark "=") (all [mark "=", phrases (.expression true),
      when (·.hasWord "else") (all [word "else", block phrases])]),
    mark ";"]

def statement : Reader := do
  let code : Code ← get
  let next := code.afterAttributes code.length
  if code.hasMark ";" then mark ";"
  else if next.hasMacroStatement then
    all [attributes phrases, plainPath, mark "!", tree, optionalMark ";"]
  else if next.hasWord "let" then all [attributes phrases, variableStatement phrases]
  else if next.hasDefinition then phrases .definition
  else all [phrases .statementExpression, optionalMark ";"]

def statements : Reader := many (·.isDone) (statement phrases)

/-! ### Phrases -/

/-- What a phrase is made of, given a reader for the phrases that it holds. -/
def ofPhrase : Phrases
  | .type plus => type phrases plus
  | .bound => bound phrases
  | .expression struct => expression phrases struct
  | .operand struct => operand phrases struct
  | .statementExpression => statementExpression phrases
  | .pattern => pattern phrases
  | .statements => statements phrases
  | .definition => definition phrases
  | .requirement => requirement phrases
  | .method => method phrases
  | .foreign => foreign phrases

/-- A reader for phrases that stand in each other no deeper than `depth`. -/
def phrasesTo : Nat → Phrases
  | 0 => fun _ => failure
  | depth + 1 => ofPhrase (phrasesTo depth)

end Reader

end ConsoleMemory.Accessors
