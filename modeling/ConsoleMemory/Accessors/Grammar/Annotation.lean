import ConsoleMemory.Accessors.Reader

/-!
Annotations: what stands between the brackets of an attribute. What an annotation holds in brackets
of its own has a syntax of its own and stays as it is.
-/

namespace ConsoleMemory.Accessors

/-- What stands behind the path of an annotation. -/
inductive Annotation.Content where
  | nothing
  /-- A bracket and what it holds. -/
  | bracketed (bracket : Char) (inside : Code)
  /-- A value, assigned to the path by a sign of equality. -/
  | assigned (value : Code)
deriving DecidableEq, Repr

structure Annotation where
  path : Code
  content : Annotation.Content
deriving DecidableEq, Repr

namespace Annotation

/-- The bracket that closes another one. -/
def closingOf (bracket : Char) : Char :=
  match bracket with
  | '(' => ')'
  | '[' => ']'
  | _ => '\x7d'

def Content.code : Content → Code
  | nothing => []
  | bracketed bracket inside => .opening bracket :: inside ++ [.closing (closingOf bracket)]
  | assigned value => .mark '=' false :: value

def code (a : Annotation) : Code := a.path ++ a.content.code

/-- The attribute that holds the annotation. -/
def attributeCode (a : Annotation) : Code :=
  .mark '#' false :: .opening '[' :: a.code ++ [.closing ']']

/-- Whether the path is a single word. -/
def isNamed (a : Annotation) (name : String) : Bool := a.path == [.word name]

end Annotation

namespace Code

/-- Whether code begins with a word that paths are made of. -/
def hasPathWord (code : Code) : Bool :=
  code.hasName || code.hasWordOf ["super", "self", "Self", "crate"]

/-- Whether code begins with a single sign of equality. -/
def hasEquals (code : Code) : Bool :=
  code.hasMark "=" && !code.hasMark "==" && !code.hasMark "=>"

/-- Whether code begins with an attribute for what follows. -/
def hasAttribute (code : Code) : Bool := code.hasMark "#" && code.afterTree.hasBracket '['

/-- Whether code begins with an attribute for what it stands in. -/
def hasInnerAttribute (code : Code) : Bool :=
  code.hasMark "#" && code.afterTree.hasMark "!"

end Code

namespace Reader

/-- A path of words only. -/
def plainPath : Reader := do
  let start ← optionalMark "::"
  let first ← tokenOf Code.hasPathWord
  let rest ← many (!·.hasMark "::") (all [mark "::", tokenOf Code.hasPathWord])
  return start ++ first ++ rest

def annotation (phrases : Phrases) : ReaderOf Annotation := do
  let path ← if (← get).hasWord "unsafe" then word "unsafe" else plainPath
  match ← get with
  | .opening bracket :: _ => return ⟨path, .bracketed bracket ((← tree).drop 1).dropLast⟩
  | code =>
    if code.hasEquals then
      discard <| mark "="
      return ⟨path, .assigned (← phrases (.expression true))⟩
    else
      return ⟨path, .nothing⟩

/-- An attribute for what follows. -/
def outerAttribute (phrases : Phrases) : ReaderOf Annotation := do
  discard <| mark "#"
  discard <| tokenOf (·.hasBracket '[')
  let a ← annotation phrases
  discard <| tokenOf (·.head? == some (.closing ']'))
  return a

/-- All attributes for what follows. -/
def attributes (phrases : Phrases) : Reader := do
  return (← collect (!·.hasAttribute) (outerAttribute phrases)).flatMap Annotation.attributeCode

/-- All attributes for what they stand in. -/
def innerAttributes (phrases : Phrases) : Reader :=
  many (!·.hasInnerAttribute) <|
    all [mark "#", mark "!", group '[' do return (← annotation phrases).code]

end Reader

end ConsoleMemory.Accessors
