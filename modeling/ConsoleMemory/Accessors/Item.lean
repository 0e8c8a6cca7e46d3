import ConsoleMemory.Accessors.Grammar.Definition

/-!
The parts of a type declaration that decide which accessors are generated for it: its shape, its
fields and the attributes on both.
-/

namespace ConsoleMemory.Accessors

structure Field where
  name : String
  type : Code
  attributes : List Annotation
deriving DecidableEq, Repr

inductive Shape where
  | named (fields : List Field)
  | tuple
  | unit
  | enumeration
  | union
deriving DecidableEq, Repr

structure Item where
  name : String
  attributes : List Annotation
  parameters : List Parameter
  /-- What a structure asks of its parameters behind them; other types are not looked into. -/
  conditions : Code
  shape : Shape
deriving DecidableEq, Repr

namespace Reader

variable (phrases : Phrases)

/-- The attributes of what follows. -/
def itemAttributes : ReaderOf (List Annotation) :=
  collect (!·.hasAttribute) (outerAttribute phrases)

/-- A field with its name, its type and its attributes. -/
def itemField : ReaderOf Field := do
  let attributes ← itemAttributes phrases
  discard visibility
  let name ← anyWord
  discard <| mark ":"
  return ⟨name.text, ← fieldType phrases, attributes⟩

/-- The conditions on a structure and its fields, or what stands in their place. -/
def structShape : ReaderOf (Code × Shape) := do
  if (← get).hasBracket '(' then
    discard <| many (·.isDone) tree
    return ([], .tuple)
  else
    let conditions ← conditions phrases
    if (← get).hasMark ";" then
      discard <| mark ";"
      return (conditions, .unit)
    else
      discard <| tokenOf (·.hasBracket '\x7b')
      let fields ← list "," (·.isDone) (itemField phrases)
      discard <| tokenOf (·.head? == some (.closing '\x7d'))
      return (conditions, .named (fields.map (·.1)))

/-- A declaration of a type. -/
def item : ReaderOf Item := do
  let attributes ← itemAttributes phrases
  discard visibility
  let kind ← anyWord
  let name ← name
  let parameters ← parameters phrases
  let (conditions, shape) ← if kind.hasWord "struct" then structShape phrases
    else do
      discard <| many (·.isDone) tree
      if kind.hasWord "enum" then pure ([], .enumeration)
      else if kind.hasWord "union" then pure ([], .union)
      else failure
  return ⟨name.text, attributes, parameters, conditions, shape⟩

end Reader

/-- The declaration that a text spells. A phrase and the one that holds it differ in their first
token in all but a few cases, so that phrases do not stand in each other deeper than there are
tokens, a few times over. -/
def Item.ofText? (text : String) : Option Item :=
  let code := Code.ofText text
  Reader.run (Reader.item (Reader.phrasesTo (8 * code.length + 16))) code

end ConsoleMemory.Accessors
