import ConsoleMemory.Accessors.Grammar.Path

/-!
Types. Those in parentheses, of functions, of references and of traits keep the order of their
parts; what changes in them are the paths and bounds that they hold.
-/

namespace ConsoleMemory.Accessors

namespace Code

/-- Whether code follows for which there is no other syntax. -/
def hasBuiltin (code : Code) : Bool := code.hasWord "builtin" && code.afterTree.hasMark "#"

/-- Whether a macro is called here, behind its path. -/
def hasCallMark (code : Code) : Bool := code.hasMark "!" && !code.hasMark "!="

/-- Whether code begins with a name for what follows a colon. -/
def hasLabel (code : Code) : Bool :=
  code.hasAnyWord && code.afterTree.hasMark ":" && !code.afterTree.hasMark "::"

end Code

namespace Reader

/-- Code for which there is no other syntax: a marked name with arguments in parentheses. -/
def builtin : Reader := all [word "builtin", mark "#", name, tree]

/-- The announcement of a foreign function. -/
def foreignMark : Reader :=
  when (·.hasWord "extern") (all [word "extern", when (·.hasLiteral) literal])

/-- Any number of further arguments. -/
def variadic : Reader := all [mark "...", optionalMark ","]

variable (phrases : Phrases)

/-- Types in parentheses, maybe the first of some bounds. -/
def parenthesized (plus : Bool) : Reader := do
  let type ← group '(' do
    let code ← get
    if code.hasMark "?" then phrases .bound
    else separated "," (·.isDone) (phrases (.type true))
  return type ++ (← moreBounds phrases plus)

/-- One argument of a function type; the first one can be the receiver, which stays as it is if it
changes. -/
def functionArgument (isFirst : Bool) : Reader := do
  let attributes ← attributes phrases
  let code ← get
  if code.hasMark "..." then
    return attributes ++ (← variadic)
  else if isFirst && code.hasWord "mut" && code.afterTree.hasWord "self" then
    return attributes ++ (← verbatim (all [word "mut",
      when (·.hasLabel) (all [anyWord, mark ":"]), phrases (.type true)]))
  else
    let label ← when (·.hasLabel) (all [anyWord, mark ":"])
    let code ← get
    return attributes ++ label ++
      (← if code.hasMark "..." then variadic else phrases (.type true))

/-- The type of a function. -/
def functionType : Reader :=
  all [optionalWord "unsafe", foreignMark, word "fn",
    group '(' (all [
      when (!·.isDone) (all [functionArgument phrases true, optionalMark ","]),
      separated "," (·.isDone) (functionArgument phrases false)]),
    result phrases false]

/-- A type that begins with a path: a macro, a named type or some bounds. -/
def namedType (plus : Bool) : Reader := do
  let path ← typePath phrases
  if (← get).hasCallMark && path.isPlainPath then
    return path ++ (← all [mark "!", tree])
  else
    return path ++ (← moreBounds phrases plus)

/-- A type without the lifetimes that are bound for it. -/
def plainType (plus : Bool) : Reader := do
  let code ← get
  if code.hasBracket '(' then parenthesized phrases plus
  else if code.hasWordOf ["fn", "unsafe", "extern"] then functionType phrases
  else if code.hasBuiltin then builtin
  else if code.hasPathWord || code.hasMark "::" || code.hasMark "<" then namedType phrases plus
  else if code.hasBracket '[' then
    group '[' (all [phrases (.type true),
      when (·.hasMark ";") (all [mark ";", readable (phrases (.expression true))])])
  else if code.hasMark "*" then
    all [mark "*", orElse (word "const") (word "mut"), phrases (.type false)]
  else if code.hasMark "&" then
    all [mark "&", when (·.hasLifetime) lifetime, optionalWord "mut", phrases (.type false)]
  else if code.hasMark "!" then mark "!"
  else if code.hasWord "impl" then all [word "impl", bounds phrases plus]
  else if code.hasWord "_" then word "_"
  else bounds phrases plus

/-- A type. One that is announced with a star is not looked into. -/
def type (plus : Bool) : Reader := do
  let before : Code ← get
  let lifetimes ← when (·.hasWord "for") (binder phrases)
  if (← get).hasWord "dyn" then
    let announced ← word "dyn"
    let star ← optionalMark "*"
    let bounds ← bounds phrases plus
    let after : Code ← get
    return if star.isEmpty then lifetimes ++ announced ++ bounds
      else before.take (before.length - after.length)
  else
    return lifetimes ++ (← plainType phrases plus)

end Reader

end ConsoleMemory.Accessors
