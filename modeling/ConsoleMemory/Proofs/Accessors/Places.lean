import ConsoleMemory.Accessors.Choice
import ConsoleMemory.Proofs.Accessors.Settings

/-!
# Options written at one place

The attributes of a place are read as one sequence: their settings in order, each
attribute followed by what is not formed well in it. Where nothing of it has a flaw
each option has the last value given to it, and otherwise the first flaw is reported.
-/

namespace ConsoleMemory.Accessors

/-- A setting, or what is not formed well behind the settings of an attribute. -/
inductive Written where
  | setting (s : Setting)
  | fault (e : DeriveError)

namespace Written

/-- The value given to an option. -/
def value? (name : String) : Written → Option Bool
  | setting s => if s.name = [.word name] then s.flag else none
  | fault _ => none

end Written

namespace Annotation

variable {a : Annotation} {ws : List Written}

/-- What an attribute adds to the options of its place. -/
def written (a : Annotation) : List Written :=
  if a.path = [.word "setters"] then
    a.settings.1.map .setting ++ a.settings.2.toList.map .fault
  else []

end Annotation

/-- The options of a place in order. -/
def written (attributes : List Annotation) : List Written := attributes.flatMap Annotation.written

/-- The value of an option by its last occurrence; one that does not occur is off. -/
def chosen (name : String) (attributes : List Annotation) : Bool :=
  ((written attributes).filterMap (Written.value? name)).getLast?.getD false

namespace Choice

variable {c : Choice} {ws : List Written} {attributes : List Annotation}

/-- The choice after one more step of what is written. -/
def step (c : Choice) : Written → Except DeriveError Choice
  | .setting s => c.apply s
  | .fault e => .error e

/-- The choice with the values given by what is written. -/
def given (c : Choice) (ws : List Written) : Choice where
  skip := (ws.filterMap (Written.value? "skip")).getLast?.getD c.skip
  get := (ws.filterMap (Written.value? "get")).getLast?.getD c.get

end Choice

end ConsoleMemory.Accessors
