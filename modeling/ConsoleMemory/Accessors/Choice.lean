import ConsoleMemory.Accessors.Setting

/-!
The options chosen at one place, an item or a field. Every attribute of the place with the path
`setters` contributes its settings in order and later ones win. A setting is refused first for its
value and then for an unknown name; what is not formed well behind the settings is refused after
them.
-/

namespace ConsoleMemory.Accessors

/-- Whether a place is left out and whether it gets a getter. -/
structure Choice where
  skip : Bool := false
  get : Bool := false
deriving DecidableEq, Repr

namespace Choice

/-- The choice after one more setting. -/
def apply (c : Choice) (s : Setting) : Except DeriveError Choice :=
  match s.flag with
  | none => .error .notBoolean
  | some flag =>
    if s.name = [.word "skip"] then .ok { c with skip := flag }
    else if s.name = [.word "get"] then .ok { c with get := flag }
    else .error .unknownOption

/-- The choice after all settings of an annotation. -/
def applySettings (c : Choice) (a : Annotation) : Except DeriveError Choice := do
  let c ← a.settings.1.foldlM apply c
  match a.settings.2 with
  | some e => throw e
  | none => return c

/-- The choice after one more attribute. -/
def applyAttribute (c : Choice) (a : Annotation) : Except DeriveError Choice :=
  if a.isNamed "setters" then c.applySettings a else return c

/-- What the attributes of one place choose. -/
def ofAttributes (attributes : List Annotation) : Except DeriveError Choice :=
  attributes.foldlM applyAttribute {}

end Choice

end ConsoleMemory.Accessors
