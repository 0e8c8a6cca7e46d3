/-!
Why no accessors are generated for a declaration.
-/

namespace ConsoleMemory.Accessors

inductive DeriveError where
  /-- What is given is no declaration of a type. -/
  | unreadable
  | unnamedFields
  | unitStruct
  | notStruct
  | unknownOption
  | notBoolean
  /-- An attribute for options without parentheses. -/
  | missingArguments
  /-- An attribute for options with a value instead of parentheses. -/
  | missingParentheses
  /-- An option without a name at the end of its attribute. -/
  | missingName
  /-- An option whose name begins with a literal. -/
  | literalName
  /-- An option whose name begins with what is neither a word nor a literal. -/
  | markName
  /-- A path separator without a word behind it, maybe at the end of the attribute. -/
  | missingWord (atEnd : Bool)
  /-- An option with more to its name than a path. -/
  | missingEquals
  /-- A sign of equality without a value behind it, maybe at the end of the attribute. -/
  | missingValue (atEnd : Bool)
  /-- An option that does not end with its value. -/
  | missingComma
deriving DecidableEq, Repr

namespace DeriveError

/-- What was expected at a place that may be the end of an attribute. -/
def expected (what : String) (atEnd : Bool) : String :=
  (if atEnd then "unexpected end of input, " else "") ++ "expected " ++ what

def message : DeriveError → String
  | unreadable => "expected a declaration of a type"
  | unnamedFields => "Setters only supports named fields"
  | unitStruct => "Setters does not apply to unit structs"
  | notStruct => "Setters can only be derived for structs"
  | unknownOption => "expected `skip` or `get`"
  | notBoolean => "expected boolean literal"
  | missingArguments => "expected attribute arguments in parentheses: #[setters(...)]"
  | missingParentheses => "expected parentheses: #[setters(...)]"
  | missingName => expected "nested attribute" true
  | literalName => "unexpected literal in nested attribute, expected ident"
  | markName => "unexpected token in nested attribute, expected ident"
  | missingWord atEnd => expected "ident" atEnd
  | missingEquals => "expected `=`"
  | missingValue atEnd => expected "literal" atEnd
  | missingComma => "expected `,`"

end DeriveError

end ConsoleMemory.Accessors
