import ConsoleMemory.Decimal.Number
import ConsoleMemory.Text.Quoted

/-!
The outline of a declaration: its parts, each as text. A comment at the end of a part ends with its
line, so that it does not reach what follows.
-/

namespace ConsoleMemory.Accessors

namespace Outline

/-- The value given to an option. -/
inductive Value where
  | bool (b : Bool)
  | number (n : Decimal.Number)
  | text (s : String)
deriving DecidableEq, Repr

inductive Attribute where
  | doc (text : String)
  /-- Names in parentheses, some of them with a value. -/
  | list (path : String) (options : List (String × Option Value))
  /-- An attribute without parentheses. -/
  | bare (path : String)
deriving DecidableEq, Repr

structure Field where
  name : String
  type : String
  attributes : List Attribute
deriving DecidableEq, Repr

structure Parameter where
  name : String
  bounds : Option String
deriving DecidableEq, Repr

inductive Shape where
  | named
  | tuple
  | unit
  | enumeration
  | union
deriving DecidableEq, Repr

/-! ### Text -/

/-- Parts with commas between them, each on lines of its own. -/
def lines (parts : List String) : String := "\n, ".intercalate parts

def Value.code : Value → String
  | bool b => toString b
  | number n => n.text
  | text s => Text.quoted s

def optionText (name : String) (value : Option Value) : String :=
  match value with
  | some value => name ++ " = " ++ value.code
  | none => name

def Attribute.text : Attribute → String
  | doc text => "#[doc = " ++ Text.quoted text ++ "]\n"
  | list path options =>
    "#[" ++ path ++ "(" ++ lines (options.map fun (name, value) => optionText name value) ++
      "\n)]\n"
  | bare path => "#[" ++ path ++ "\n]\n"

/-- Attributes, one behind the other. -/
def attributesText (attributes : List Attribute) : String :=
  String.join (attributes.map Attribute.text)

def Field.text (f : Field) : String :=
  attributesText f.attributes ++ f.name ++ "\n: " ++ f.type

/-- A field without its name. -/
def Field.unnamedText (f : Field) : String := attributesText f.attributes ++ f.type

/-- A field that is an alternative. -/
def Field.variantText (f : Field) : String := attributesText f.attributes ++ f.name

def Parameter.text (p : Parameter) : String :=
  match p.bounds with
  | some bounds => p.name ++ "\n: " ++ bounds
  | none => p.name

def parametersText (parameters : List Parameter) : String :=
  if parameters.isEmpty then "" else "<" ++ lines (parameters.map Parameter.text) ++ "\n>"

end Outline

structure Outline where
  name : String
  attributes : List Outline.Attribute
  parameters : List Outline.Parameter
  fields : List Outline.Field
  shape : Outline.Shape
deriving DecidableEq, Repr

namespace Outline

/-- The word in front of the name. -/
def kind (o : Outline) : String :=
  match o.shape with
  | .named | .tuple | .unit => "struct"
  | .enumeration => "enum"
  | .union => "union"

/-- The declaration. -/
def text (o : Outline) : String :=
  let braces (parts : List String) := " \x7b\n" ++ lines parts ++ "\n\x7d"
  attributesText o.attributes ++ o.kind ++ " " ++ o.name ++ parametersText o.parameters ++
    match o.shape with
    | .named | .union => braces (o.fields.map Field.text)
    | .enumeration => braces (o.fields.map Field.variantText)
    | .tuple => "(\n" ++ lines (o.fields.map Field.unnamedText) ++ "\n);"
    | .unit => ";"

example :
    Outline.text ⟨"A", [.doc "b", .bare "c"], [⟨"T", some "Copy"⟩], [⟨"d", "u8", []⟩], .tuple⟩ =
    "#[doc = \"b\"]\n#[c\n]\nstruct A<T\n: Copy\n>(\nu8\n);" := by decide +kernel
example :
    Outline.text ⟨"A", [], [], [⟨"d", "u8", [.list "e" [("f", some (.bool true))]]⟩], .named⟩ =
    "struct A \x7b\n#[e(f = true\n)]\nd\n: u8\n\x7d" := by decide +kernel

end Outline

end ConsoleMemory.Accessors
