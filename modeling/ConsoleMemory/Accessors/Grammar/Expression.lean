import ConsoleMemory.Accessors.Grammar.Pattern

/-!
Expressions. Operators stay where they are, so an expression is read as operands with operators
between them; which of them binds closer does not matter.
-/

namespace ConsoleMemory.Accessors

namespace Code

/-- The operators between two operands; of two that begin alike the longer one comes first. -/
def operators : List String :=
  ["<<=", ">>=", "+=", "-=", "*=", "/=", "%=", "^=", "&=", "|=", "&&", "||", "<<", ">>", "==", "<=",
    "!=", ">=", "+", "-", "*", "/", "%", "^", "&", "|", "<", ">"]

/-- The operator that code begins with. -/
def operator? (code : Code) : Option String := operators.find? code.hasMark

/-- Whether a range without an end stops here. -/
def endsOpenRange (struct : Bool) (code : Code) : Bool :=
  code.isDone || [",", ";", "?", "=>", "=", "+", "/", "%", "^", ">", "<=", "!=", "-=", "*=", "&=",
      "|=", "<<="].any code.hasMark ||
    (code.hasMark "." && !code.hasMark "..") || (!struct && code.hasBracket '\x7b') ||
    code.hasWord "as"

/-- Whether an expression begins here. -/
def beginsExpression (code : Code) : Bool :=
  (code.hasAnyWord && !code.hasWord "as") || code.hasAnyBracket || code.hasLiteral ||
    code.hasLifetime ||
    (code.hasMark "!" && !code.hasMark "!=") ||
    (code.hasMark "-" && !code.hasMark "-=" && !code.hasMark "->") ||
    (code.hasMark "*" && !code.hasMark "*=") || (code.hasMark "|" && !code.hasMark "|=") ||
    (code.hasMark "&" && !code.hasMark "&=") || code.hasMark ".." ||
    (code.hasMark "<" && !code.hasMark "<=" && !code.hasMark "<<=") || code.hasMark "::" ||
    code.hasMark "#"

/-- Whether a closure begins here. -/
def hasClosure (code : Code) : Bool :=
  let next := code.afterTree
  code.hasMark "|" || code.hasWord "move" || code.hasWord "static" ||
    (code.hasWord "for" && next.hasMark "<" &&
      (next.afterTree.hasLifetime || next.afterTree.hasMark ">")) ||
    (code.hasWord "const" && !next.hasBracket '\x7b') ||
    (code.hasWord "async" && (next.hasMark "|" || next.hasWord "move"))

/-- Whether an asynchronous block begins here. -/
def hasAsyncBlock (code : Code) : Bool :=
  let next := code.afterTree
  code.hasWord "async" && (next.hasBracket '\x7b' ||
    (next.hasWord "move" && next.afterTree.hasBracket '\x7b'))

/-- Whether an expression begins here that ends with its closing brace in a statement. -/
def hasBlockExpression (code : Code) : Bool :=
  let next := code.afterTree
  code.hasWordOf ["if", "while", "loop", "match", "unsafe"] ||
    (code.hasWord "for" && !code.hasClosure) || code.hasBracket '\x7b' || code.hasLifetime ||
    (code.hasWordOf ["try", "const"] && next.hasBracket '\x7b')

/-- Whether what has been read is an operand of something: called, indexed, tried or asked for a
field. -/
def hasTrailer (code : Code) : Bool :=
  code.hasBracket '(' || code.hasBracket '[' || code.hasMark "?" ||
    (code.hasMark "." && !code.hasMark "..")

/-- Whether code begins with a number that has a point at its end. -/
def endsInPoint (code : Code) : Bool :=
  match code with
  | .literal text :: _ => text.endsWith "."
  | _ => false

/-- Whether an expression that is not looked into begins here. -/
def hasVerbatim (code : Code) : Bool :=
  code.hasWord "become" ||
    (code.hasBuiltin && !code.afterTree.afterTree.afterTree.afterTree.hasTrailer)

/-- What follows the attributes that code begins with, up to `steps` of them. -/
def afterAttributes : Nat → Code → Code
  | 0, code => code
  | steps + 1, code =>
    if code.hasAttribute then afterAttributes steps code.afterTree.afterTree else code

end Code

namespace Reader

variable (phrases : Phrases)

/-! ### Parts of expressions -/

/-- A parameter of a closure. Attributes in front of a pattern that stays as it is are left out,
unless a type follows. -/
def closureParameter : Reader := do
  let attributes ← attributes phrases
  let isBoxed := (← get).hasWord "box"
  let pattern ← phrases .pattern
  let type ← when (·.hasMark ":") (all [mark ":", phrases (.type true)])
  return (if isBoxed && type.isEmpty then [] else attributes) ++ pattern ++ type

def closure (struct : Bool) : Reader := do
  let announced ← all [when (·.hasWord "for") (binder phrases), optionalWord "const",
    optionalWord "static", optionalWord "async", optionalWord "move", mark "|",
    separated "," (·.hasMark "|") (closureParameter phrases), mark "|"]
  if (← get).hasMark "->" then
    return announced ++ (← all [result phrases true, block phrases])
  else
    return announced ++ (← phrases (.expression struct))

/-- The value of a field in an expression for a structure. -/
def fieldValue : Reader := do
  let attributes ← attributes phrases
  if (← get).hasMark ".." then
    return attributes ++ (← all [mark "..", when (!·.isDone) (phrases (.expression true))])
  else
    return attributes ++ (← all [fieldName,
      when (·.hasMark ":") (all [mark ":", phrases (.expression true)])])

/-- An expression that begins with a path. -/
def pathExpression (struct : Bool) : Reader := do
  let path ← path phrases true
  let code ← get
  if code.hasCallMark && path.isPlainPath then
    return path ++ (← all [mark "!", tree])
  else if struct && code.hasBracket '\x7b' then
    return path ++ (← commas '\x7b' (fieldValue phrases))
  else return path

/-- One arm of a choice between patterns. -/
def arm : Reader :=
  all [attributes phrases, patterns phrases,
    when (·.hasWord "if") (all [word "if", phrases (.expression true)]),
    mark "=>", phrases .statementExpression, optionalMark ","]

/-- A condition with what is done where it holds. -/
def ifThen : Reader := all [word "if", phrases (.expression false), block phrases]

/-- The cases of a condition. -/
def ifElse : Reader := do
  let first ← ifThen phrases
  let others ← many (fun code => !(code.hasWord "else" && code.afterTree.hasWord "if")) <|
    all [word "else", ifThen phrases]
  return first ++ others ++ (← when (·.hasWord "else") (all [word "else", block phrases]))

/-- An expression that ends with a closing brace. -/
def blockExpression : Reader := do
  let code ← get
  if code.hasLifetime then
    all [lifetime, mark ":", loopOrBlock]
  else if code.hasWord "if" then ifElse phrases
  else if code.hasWord "match" then
    all [word "match", phrases (.expression false),
      group '\x7b' (all [innerAttributes phrases, many (·.isDone) (arm phrases)])]
  else loopOrBlock
where
  loopOrBlock : Reader := do
    let code ← get
    if code.hasWord "while" then
      all [word "while", phrases (.expression false), block phrases]
    else if code.hasWord "for" then
      all [word "for", patterns phrases, word "in", phrases (.expression false), block phrases]
    else
      all [when (·.hasWordOf ["loop", "unsafe", "try", "const"]) anyWord, block phrases]

/-- The end of a range, if it has one. -/
def openRange (struct : Bool) : Reader := do
  if (← get).hasMark "..=" then
    all [mark "..=", phrases (.operand struct)]
  else
    all [mark "..", when (!·.endsOpenRange struct) (phrases (.operand struct))]

/-- The word of a jump with the value that it takes along. A brace behind a path belongs to that
value wherever the jump stands. -/
def jump (struct : Bool) : Reader := do
  let code ← get
  let value (test : Code → Bool) := when (fun code => code.beginsExpression && test code)
    (phrases (.expression true))
  if code.hasWord "break" then
    all [word "break", when (·.hasLifetime) lifetime,
      value fun code => struct || !code.hasBracket '\x7b']
  else if code.hasWord "continue" then
    all [word "continue", when (·.hasLifetime) lifetime]
  else
    all [anyWord, value fun _ => true]

/-- An operand without what is done with it. -/
def atom (struct : Bool) : Reader := do
  let code ← get
  if code.hasLiteral then literal
  else if code.hasAsyncBlock then all [word "async", optionalWord "move", block phrases]
  else if code.hasClosure then closure phrases struct
  else if code.hasBuiltin then builtin
  else if code.hasBlockExpression then blockExpression phrases
  else if code.hasPathWord || code.hasWord "try" || code.hasMark "::" || code.hasMark "<" then
    pathExpression phrases struct
  else if code.hasBracket '(' then commas '(' (phrases (.expression true))
  else if code.hasBracket '[' then
    group '[' (all [
      when (!·.isDone) (phrases (.expression true)),
      when (·.hasMark ";") (all [mark ";", phrases (.expression true)]),
      when (·.hasMark ",") (all [mark ",",
        separated "," (·.isDone) (phrases (.expression true))])])
  else if code.hasWordOf ["break", "continue", "return", "yield", "become"] then
    jump phrases struct
  else if code.hasWord "let" then
    all [word "let", patterns phrases, mark "=", phrases (.operand struct)]
  else if code.hasMark ".." then openRange phrases struct
  else word "_"

/-- A field or a method with its arguments between angle brackets. -/
def member : Reader := do
  if (← get).hasWord "await" then anyWord
  else
    all [fieldName, when (·.hasMark "::") (all [mark "::", arguments phrases])]

/-- What is done with an operand. The number of a field that is read with a point at its end does
not hold the next field. -/
def trailer : Reader := do
  let code ← get
  if code.hasBracket '(' then commas '(' (phrases (.expression true))
  else if code.hasBracket '[' then group '[' (phrases (.expression true))
  else if code.hasMark "?" then mark "?"
  else
    let point ← mark "."
    let code ← get
    let member ← member phrases
    return point ++ member ++
      (← if code.endsInPoint then Reader.member phrases else nothing)

def trailers : Reader := many (!·.hasTrailer) (trailer phrases)

/-- The operators of an expression with the operands behind them. -/
def operations (struct : Bool) : Reader :=
  many (fun code => !(code.operator?.isSome || code.hasEquals || code.hasMark ".." ||
      code.hasWord "as")) do
    let code ← get
    if let some operator := code.operator? then
      all [mark operator, phrases (.operand struct)]
    else if code.hasEquals then all [mark "=", phrases (.operand struct)]
    else if code.hasMark ".." then openRange phrases struct
    else all [word "as", phrases (.type false)]

/-! ### Expressions -/

/-- An operand behind its attributes. -/
def plainOperand (struct : Bool) : Reader := do
  let code ← get
  if code.hasMark "&" then
    let next := code.afterTree
    if next.hasWord "raw" && next.afterTree.hasWordOf ["const", "mut"] then
      all [mark "&", anyWord, anyWord, phrases (.operand struct)]
    else
      all [mark "&", optionalWord "mut", phrases (.operand struct)]
  else if code.hasMark "*" || code.hasMark "!" || code.hasMark "-" then
    all [tree, phrases (.operand struct)]
  else
    all [atom phrases struct, trailers phrases]

/-- An operand. One that is not looked into stays as it is with its attributes. -/
def operand (struct : Bool) : Reader := do
  let code : Code ← get
  let reader := all [attributes phrases, plainOperand phrases struct]
  if (code.afterAttributes code.length).hasVerbatim then verbatim reader else reader

def expression (struct : Bool) : Reader :=
  all [phrases (.operand struct), operations phrases struct]

/-- An expression that ends with its closing brace where it begins like a statement, unless a point
or a question mark follows. Attributes in front of what is not looked into are left out. -/
def statementExpression : Reader := do
  let attributes ← attributes phrases
  let code ← get
  if code.hasBlockExpression then
    let block ← blockExpression phrases
    let code ← get
    if (code.hasMark "." && !code.hasMark "..") || code.hasMark "?" then
      return attributes ++ block ++ (← all [trailers phrases, operations phrases true])
    else return attributes ++ block
  else
    return (if code.hasVerbatim then [] else attributes) ++ (← phrases (.expression true))

end Reader

end ConsoleMemory.Accessors
