import ConsoleMemory.Text.Basic
import ConsoleMemory.Text.Unprintable

/-!
Text between quotation marks. The marks, backslashes and the characters that end or indent a line
are written by an escape. Other characters stand for themselves in `quoted`; `quotedPrintable` also
writes by its number each character that is not shown as it is.
-/

namespace ConsoleMemory.Text

/-- The escape of a character that never stands for itself between quotation marks. -/
def shortEscape? (c : Char) : Option (List Char) :=
  match c with
  | '"' => some ['\\', '"']
  | '\\' => some ['\\', '\\']
  | '\t' => some ['\\', 't']
  | '\n' => some ['\\', 'n']
  | '\r' => some ['\\', 'r']
  | _ => none

/-- Writes a character by its number. -/
def numberEscape (c : Char) : List Char :=
  ['\\', 'u', '\x7b'] ++ digits 0 c.toNat ++ ['\x7d']

/-- How a character is written in text that shows every character; `later` is what follows it. The
null character keeps a distance from an octal digit behind it. -/
def printableEscape (c : Char) (later : List Char) : List Char :=
  if c.toNat = 0 then
    if later.head?.any fun d => '0' ≤ d && d ≤ '7' then ['\\', 'x', '0', '0'] else ['\\', '0']
  else
    (shortEscape? c).getD (if isUnprintable c then numberEscape c else [c])

def printableEscapes : List Char → List Char
  | [] => []
  | c :: later => printableEscape c later ++ printableEscapes later

def betweenMarks (text : List Char) : String := String.ofList ('"' :: text ++ ['"'])

def quoted (s : String) : String :=
  betweenMarks (s.toList.flatMap fun c => (shortEscape? c).getD [c])

def quotedPrintable (s : String) : String := betweenMarks (printableEscapes s.toList)

example : quoted "a \"b\"\n\u00A0" = "\"a \\\"b\\\"\\n\u00A0\"" := by decide +kernel
example : quotedPrintable "a'\u00A0\x001" = "\"a'\\u\x7ba0\x7d\\x001\"" := by decide +kernel

end ConsoleMemory.Text
