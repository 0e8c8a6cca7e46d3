import ConsoleMemory.Accessors.Choice
import ConsoleMemory.Accessors.Item

/-!
The methods generated for an item: for each field that is not left out an optional getter, a setter
that changes the value in place and a setter that gives the changed value. All of them carry the
documentation of their field in front of what they say to the compiler.
-/

namespace ConsoleMemory.Accessors

structure Method where
  /-- What stands in front of the method, in order. -/
  attributes : List Annotation
  /-- Whether the method can be evaluated at compile time. -/
  isConst : Bool
  name : String
  receiver : Code
  /-- The other arguments with their types. -/
  arguments : List (String × Code)
  result : Code
  /-- What the braces of the method hold. -/
  body : Code
deriving DecidableEq, Repr

/-- A block of methods for a type. -/
structure Implementation where
  /-- The parameters with their bounds. -/
  generics : Code
  /-- The type with its parameters. -/
  target : Code
  conditions : Code
  methods : List Method
deriving DecidableEq, Repr

/-- The name without the marker that lets a keyword serve as a name. -/
def plainName (name : String) : String :=
  match name.toList with
  | 'r' :: '#' :: rest => String.ofList rest
  | _ => name

/-! ### Methods of a field -/

/-- An annotation that is a word only. -/
def Annotation.marker (name : String) : Annotation := ⟨[.word name], .nothing⟩

namespace Field

variable (f : Field)

/-- The attributes that document the field, in order. -/
def docs : List Annotation := f.attributes.filter (·.isNamed "doc")

/-- The field of the receiver. -/
def place : Code := [.word "self", .mark '.' false, .word f.name]

/-- Stores the value in the field and gives the receiver. -/
def storeBody : Code :=
  f.place ++ [.mark '=' false, .word "value", .mark ';' false, .word "self"]

def getter : Method where
  attributes := f.docs ++ [.marker "inline", .marker "must_use"]
  isConst := true
  name := f.name
  receiver := [.mark '&' false, .word "self"]
  arguments := []
  result := f.type
  body := f.place

def setter : Method where
  attributes := f.docs ++ [.marker "inline"]
  isConst := false
  name := "set_" ++ plainName f.name
  receiver := [.mark '&' false, .word "mut", .word "self"]
  arguments := [("value", f.type)]
  result := [.mark '&' false, .word "mut", .word "Self"]
  body := f.storeBody

def builder : Method where
  attributes := f.docs ++ [.marker "inline", .marker "must_use"]
  isConst := true
  name := "with_" ++ plainName f.name
  receiver := [.word "mut", .word "self"]
  arguments := [("value", f.type)]
  result := [.word "Self"]
  body := f.storeBody

/-- The methods of a field, given what is chosen for the item as a whole. -/
def methods (whole : Choice) : Except DeriveError (List Method) := do
  let own ← Choice.ofAttributes f.attributes
  if own.skip then
    return []
  let getter := if own.get || whole.get then [f.getter] else []
  return getter ++ [f.setter, f.builder]

end Field

/-! ### Methods of an item -/

/-- The methods for the fields in order; the first error in that order wins. -/
def methodsOf (whole : Choice) : List Field → Except DeriveError (List Method)
  | [] => return []
  | f :: rest => do
    let methods ← f.methods whole
    return methods ++ (← methodsOf whole rest)

/-- The accessors of an item, which must be a structure with named fields. -/
def derive (item : Item) : Except DeriveError Implementation :=
  match item.shape with
  | .tuple => .error .unnamedFields
  | .unit => .error .unitStruct
  | .enumeration | .union => .error .notStruct
  | .named fields => do
    let whole ← Choice.ofAttributes item.attributes
    return {
      generics := Parameter.angled Parameter.declaration item.parameters
      target := .word item.name :: Parameter.angled Parameter.name item.parameters
      conditions := item.conditions
      methods := ← methodsOf whole fields }

/-- The accessors of a declaration given as text. -/
def deriveText (text : String) : Except DeriveError Implementation :=
  match Item.ofText? text with
  | some item => derive item
  | none => .error .unreadable

end ConsoleMemory.Accessors
