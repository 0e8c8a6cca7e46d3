import ConsoleMemory.Accessors.Grammar.Annotation

/-!
Paths and what stands between angle brackets: the arguments of a path and the parameters of a
definition, with the bounds that they must satisfy. In both lifetimes are written in front, and
bounds that bind nothing are left out.
-/

namespace ConsoleMemory.Accessors

/-! ### Lists between angle brackets -/

structure Argument where
  code : Code
  isLifetime : Bool
  /-- The comma that follows, if there is one. -/
  comma : Code
deriving DecidableEq, Repr

namespace Argument

def written (a : Argument) : Code := a.code ++ a.comma

/-- The arguments with the lifetimes in front, each with its own comma. One comma is added where the
last lifetime has none and other arguments follow. -/
def arrange (arguments : List Argument) : Code :=
  let lifetimes := arguments.filter (·.isLifetime)
  let others := arguments.filter (!·.isLifetime)
  let isMissing := !others.isEmpty && lifetimes.getLast?.any (·.comma.isEmpty)
  lifetimes.flatMap written ++ (if isMissing then [.mark ',' false] else []) ++
    others.flatMap written

/-- Arguments between angle brackets. -/
def between (arguments : List Argument) : Code :=
  .mark '<' false :: arrange arguments ++ [.mark '>' false]

end Argument

/-- A parameter of a definition: a type, a lifetime or a constant. -/
structure Parameter where
  attributes : Code
  /-- The word in front of a constant. -/
  announced : Code
  name : Code
  /-- What the parameter must satisfy, from the colon on. -/
  bounds : Code
  /-- The value that serves where none is given, from the sign of equality on. -/
  default : Code
  isLifetime : Bool
  /-- The comma that follows, if there is one. -/
  comma : Code
deriving DecidableEq, Repr

namespace Parameter

/-- The parameter without its default. -/
def declaration (p : Parameter) : Code := p.attributes ++ p.announced ++ p.name ++ p.bounds

def code (p : Parameter) : Code := p.declaration ++ p.default

/-- Parameters between angle brackets, nothing where there are none; `code` is how one of them is
written. -/
def angled (code : Parameter → Code) (parameters : List Parameter) : Code :=
  if parameters.isEmpty then []
  else Argument.between (parameters.map fun p => ⟨code p, p.isLifetime, p.comma⟩)

end Parameter

namespace Code

/-- Whether arguments between angle brackets follow a word in a type. -/
def hasAngle (code : Code) : Bool :=
  code.hasMark "<" && !code.hasMark "<=" && !code.hasMark "<<="

/-- Whether a path separator and then arguments between angle brackets follow. -/
def hasTurbofish (code : Code) : Bool := code.hasMark "::" && hasMark (code.drop 2) "<"

/-- Whether a path goes on. -/
def hasSegment (code : Code) : Bool := code.hasMark "::" && !hasBracket (code.drop 2) '('

/-- Whether types in parentheses follow as arguments. -/
def hasCall (code : Code) : Bool :=
  code.hasBracket '(' || (code.hasMark "::" && hasBracket (code.drop 2) '(')

/-- Whether one more bound can follow a plus sign. -/
def hasBound (code : Code) : Bool :=
  code.hasAnyWord || code.hasMark "::" || code.hasMark "?" || code.hasMark "~" ||
    code.hasLifetime || code.hasBracket '(' || code.hasBracket '['

/-- Whether code is a path of words only. -/
def isPlainPath (code : Code) : Bool :=
  code.all fun
    | .word _ | .mark ':' _ => true
    | _ => false

/-- Whether code ends with a word, so that a path may take arguments. -/
def endsWithWord (code : Code) : Bool := hasAnyWord code.getLast?.toList

/-- Whether the conditions of a definition end here. -/
def endsCondition (code : Code) : Bool :=
  code.isDone || code.hasBracket '\x7b' || code.hasMark "," || code.hasMark ";" ||
    (code.hasMark ":" && !code.hasMark "::") || code.hasMark "="

end Code

namespace Reader

variable (phrases : Phrases)

/-- A constant as an argument. -/
def constant : Reader := do
  let code ← get
  if code.hasLiteral then literal
  else if code.hasName then name
  else group '\x7b' (readable (all [innerAttributes phrases, phrases .statements]))

/-- The bounds up to a place that passes a test. -/
def boundsUpTo (stop : Code → Bool) : Reader := separated "+" stop (phrases .bound)

/-- Further bounds, each behind a plus sign; the last sign can go without. -/
def moreBounds (plus : Bool) : Reader :=
  many (fun code => !(plus && code.hasMark "+")) <|
    all [mark "+", when (·.hasBound) (phrases .bound)]

/-- One bound and, where plus signs are read, further ones. -/
def bounds (plus : Bool) : Reader := all [phrases .bound, moreBounds phrases plus]

/-- One argument between angle brackets, and whether it is a lifetime. -/
def argument : ReaderOf (Code × Bool) := do
  let code ← get
  if code.hasLifetime && !code.afterTree.hasMark "+" then
    return (← lifetime, true)
  else if code.hasLiteral || code.hasBracket '\x7b' then
    return (← constant phrases, false)
  else
    let type ← phrases (.type true)
    let code ← get
    if code.hasMark "=" then
      let equals ← mark "="
      let code ← get
      let value ← if code.hasLiteral || code.hasBracket '\x7b' then constant phrases
        else phrases (.type true)
      return (type ++ equals ++ value, false)
    else if code.hasMark ":" then
      let colon ← mark ":"
      let stop (code : Code) := code.hasMark "," || code.hasMark ">"
      return (type ++ colon ++ (← boundsUpTo phrases stop), false)
    else
      return (type, false)

/-- The arguments of a path, with their angle brackets. -/
def arguments : Reader := do
  discard <| mark "<"
  let arguments ← list "," (·.hasMark ">") (argument phrases)
  discard <| mark ">"
  return Argument.between (arguments.map fun ((code, isLifetime), comma) =>
    ⟨code, isLifetime, comma⟩)

/-- One word of a path with its arguments. In an expression a separator announces those. -/
def segment (inExpression : Bool) : Reader := do
  if (← get).hasWordOf ["super", "self", "crate", "try"] then anyWord
  else
    let word ← tokenOf Code.hasPathWord
    let code ← get
    if (!inExpression && code.hasAngle) || code.hasTurbofish then
      return word ++ (← optionalMark "::") ++ (← arguments phrases)
    else return word

/-- What follows the first word of a path. -/
def segments (inExpression : Bool) : Reader :=
  many (!·.hasSegment) (all [mark "::", segment phrases inExpression])

/-- A path, maybe with a type in angle brackets in front. -/
def path (inExpression : Bool) : Reader := do
  if (← get).hasMark "<" then
    all [mark "<", phrases (.type true),
      when (·.hasWord "as") (all [word "as", phrases (.type false)]),
      mark ">", segments phrases inExpression]
  else
    all [optionalMark "::", segment phrases inExpression, segments phrases inExpression]

/-- The type of a result with its arrow. -/
def result (plus : Bool) : Reader :=
  when (·.hasMark "->") (all [mark "->", phrases (.type plus)])

/-- Types in parentheses with the type of a result. No separator is written in front of them. -/
def signature : Reader := do
  discard <| optionalMark "::"
  all [commas '(' (phrases (.type true)), result phrases false]

/-- The arguments in parentheses at the end of a path, as often as a path ends with a word. -/
def signatures (path : Code) : Nat → Reader
  | 0 => failure
  | steps + 1 => do
    if path.endsWithWord && (← get).hasCall then
      let signature ← signature phrases
      let rest ← segments phrases false
      return path ++ signature ++ (← if rest.isEmpty then nothing else signatures rest steps)
    else return path

/-- A path that names a type or a bound. -/
def typePath : Reader := do
  let path ← path phrases false
  signatures phrases path ((← get).length + 1)

/-! ### Parameters -/

/-- A parameter without its comma. -/
def parameter : ReaderOf Parameter := do
  let attributes ← attributes phrases
  let stop (code : Code) : Bool :=
    code.isDone || code.hasMark "," || code.hasMark ">" || code.hasMark "="
  /- A colon with no bounds behind it is left out. -/
  let boundsOf (bound : Reader) : Reader := do
    let colon ← optionalMark ":"
    if colon.isEmpty then nothing
    else
      let bounds ← separated "+" stop bound
      return if bounds.isEmpty then [] else colon ++ bounds
  let code ← get
  if code.hasLifetime then
    return ⟨attributes, [], ← lifetime, ← boundsOf lifetime, [], true, []⟩
  else if code.hasWord "const" then
    let announced ← word "const"
    let name ← name
    let type ← all [mark ":", phrases (.type true)]
    let default ← when (·.hasMark "=") (all [mark "=", constant phrases])
    return ⟨attributes, announced, name, type, default, false, []⟩
  else
    let name ← anyWord
    let bounds ← boundsOf (phrases .bound)
    let default ← when (·.hasMark "=") (all [mark "=", phrases (.type true)])
    return ⟨attributes, [], name, bounds, default, false, []⟩

/-- The parameters of a definition. -/
def parameters : ReaderOf (List Parameter) := do
  if (← get).hasMark "<" then
    discard <| mark "<"
    let parameters ← list "," (·.hasMark ">") (parameter phrases)
    discard <| mark ">"
    return parameters.map fun (p, comma) => { p with comma }
  else return []

/-- The parameters of a definition as they are written. -/
def generics : Reader := do return Parameter.angled Parameter.code (← parameters phrases)

/-- Lifetimes and types that are bound for what follows. -/
def binder : Reader :=
  all [word "for", mark "<",
    separated "," (·.hasMark ">") (do return (← parameter phrases).code), mark ">"]

/-- One condition on the parameters of a definition. -/
def condition : Reader := do
  let code ← get
  if code.hasLifetime && code.afterTree.hasMark ":" then
    all [lifetime, mark ":", separated "+" Code.endsCondition lifetime]
  else
    all [when (·.hasWord "for") (binder phrases), phrases (.type true), mark ":",
      boundsUpTo phrases Code.endsCondition]

/-- The conditions on the parameters of a definition. Without any the word in front is left out. -/
def conditions : Reader := do
  let announced ← optionalWord "where"
  if announced.isEmpty then nothing
  else
    let conditions ← separated "," Code.endsCondition (condition phrases)
    return if conditions.isEmpty then [] else announced ++ conditions

/-! ### Bounds -/

/-- What a type must satisfy. Bounds that hold only sometimes are not looked into; the other ones
are written with a waiving question mark in front. -/
def boundPath : ReaderOf (Code × Bool) := do
  let lifetimes ← when (·.hasWord "for") (binder phrases)
  let code ← get
  if code.hasMark "~" || code.hasBracket '[' || code.hasWord "const" then
    discard <| optionalMark "~"
    discard tree
    discard <| optionalMark "?"
    return (← typePath phrases, true)
  else
    let waived ← optionalMark "?"
    let lifetimes ← if lifetimes.isEmpty then when (·.hasWord "for") (binder phrases)
      else pure lifetimes
    return (waived ++ lifetimes ++ (← typePath phrases), false)

/-- The lifetimes and types that a type may hold. -/
def captures : Reader := do
  let announced ← word "use"
  discard <| mark "<"
  let captured ← list "," (·.hasMark ">") (do
    let code ← get
    return (← tree, code.hasLifetime))
  discard <| mark ">"
  return announced ++ Argument.between (captured.map fun ((code, isLifetime), comma) =>
    ⟨code, isLifetime, comma⟩)

/-- One bound. -/
def bound : Reader := do
  let before : Code ← get
  if before.hasLifetime then lifetime
  else if before.hasWord "use" then captures
  else
    let (code, isVerbatim) ← if before.hasBracket '(' then do
        let opening ← tokenOf (·.hasBracket '(')
        let (code, isVerbatim) ← boundPath phrases
        let closing ← tokenOf fun code => !code.isEmpty && code.isDone
        pure (opening ++ code ++ closing, isVerbatim)
      else boundPath phrases
    let after : Code ← get
    return if isVerbatim then before.take (before.length - after.length) else code

end Reader

end ConsoleMemory.Accessors
