/-!
Severities of log lines, and the thresholds that choose among them. A threshold lets a line pass
when the line is at least as severe. A sink writes one line of text for every record that passes its
threshold.
-/

namespace ConsoleMemory.Log

/-- Severities, the gravest first. -/
inductive Level where
  | error
  | warn
  | info
  | debug
  | trace
deriving DecidableEq, Repr

/-- The least severe level that passes; `off` stops every line. -/
inductive Threshold where
  | off
  | upTo (level : Level)
deriving DecidableEq, Repr

namespace Level

def all : List Level := [error, warn, info, debug, trace]

/-- One for the gravest level, growing as severity falls. -/
def rank : Level → Nat
  | error => 1
  | warn => 2
  | info => 3
  | debug => 4
  | trace => 5

def name : Level → String
  | error => "ERROR"
  | warn => "WARN"
  | info => "INFO"
  | debug => "DEBUG"
  | trace => "TRACE"

end Level

namespace Threshold

def all : List Threshold := off :: Level.all.map upTo

def rank : Threshold → Nat
  | off => 0
  | upTo level => level.rank

def name : Threshold → String
  | off => "OFF"
  | upTo level => level.name

def passes (t : Threshold) (level : Level) : Bool := level.rank ≤ t.rank

/-- The threshold with the given name, in letters of either case and with nothing around it. -/
def ofName? (s : String) : Option Threshold :=
  all.find? fun t => t.name.toList == s.toList.map Char.toUpper

/-- The threshold that a setting asks for, `standard` where it is missing or names none. -/
def ofSetting (setting : Option String) (standard : Threshold) : Threshold :=
  (setting.bind ofName?).getD standard

theorem mem_all (t : Threshold) : t ∈ all := by
  rcases t with _ | level
  · decide
  · cases level <;> decide

example : ofName? "Warn" = some (.upTo .warn) := by decide +kernel
example : ofName? " warn" = none := by decide +kernel

end Threshold

/-- What is logged: how severe it is, where it comes from and what it says. -/
structure Record where
  level : Level
  origin : String
  message : String
deriving DecidableEq, Repr

/-- The text of a record, without the end of its line. -/
def Record.text (r : Record) : String := s!"[{r.level.name}] {r.origin}: {r.message}"

structure Sink where
  threshold : Threshold
deriving DecidableEq, Repr

namespace Sink

def accepts (s : Sink) (level : Level) : Bool := s.threshold.passes level

/-- What the sink writes for a record. -/
def written (s : Sink) (r : Record) : String :=
  if s.accepts r.level then r.text ++ "\n" else ""

end Sink

end ConsoleMemory.Log
