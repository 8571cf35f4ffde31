import LutFixture.Binary64.Shortest
import LutFixture.Text.Quoted

/-!
# What can be wrong with a JSON text

A fault is a cause, in the words of JSON and of the wanted types; `Fault.message` is its wording.
A failure adds the place in the text at which the cause was noticed: a line, counted from one, and
the number of bytes of that line before the place.
-/

namespace LutFixture.Json

/-- A value that stands where a value of another kind is wanted. -/
inductive Found where
  | null
  | boolean (b : Bool)
  | integer (n : Int)
  /-- A number with a fraction or exponent, or one too large for an integer. -/
  | real (minus : Bool) (x : Binary64)
  | string (s : List Char)
  | sequence
  | map

namespace Found

/-- How a message names the value. -/
def text : Found → String
  | .null => "null"
  | .boolean b => "boolean `" ++ toString b ++ "`"
  | .integer n => "integer `" ++ toString n ++ "`"
  | .real minus x => "floating point `" ++ (if minus then "-" else "") ++ x.text ++ "`"
  | .string s => "string " ++ Text.quoted s
  | .sequence => "sequence"
  | .map => "map"

end Found

/-- The cause of a failure to read a JSON text. -/
inductive Fault where
  /-- The text ends where a value is wanted, or inside a word or number. -/
  | endInValue
  | endInString
  | endInList
  | endInObject
  /-- No value begins here. -/
  | expectedValue
  /-- A word begins like `true`, `false` or `null` and goes on differently. -/
  | expectedIdent
  | expectedColon
  /-- Neither comma nor bracket behind an item. -/
  | expectedListEnd
  /-- Neither comma nor brace behind a member. -/
  | expectedObjectEnd
  | keyNotString
  /-- A comma stands before a closing bracket. -/
  | trailingComma
  /-- Something follows where everything has been read. -/
  | trailingCharacters
  | invalidNumber
  /-- A number is past the largest finite one. -/
  | numberOutOfRange
  | invalidEscape
  /-- A control character stands in a string without an escape. -/
  | controlCharacter
  /-- Half of a surrogate pair. -/
  | loneSurrogate
  /-- The second half of a surrogate pair is wanted. -/
  | unfinishedSurrogate
  /-- A value of the wrong kind. -/
  | invalidType (found : Found) (expected : String)
  /-- A value of the right kind that lies outside the wanted range. -/
  | invalidValue (found : Found) (expected : String)
  /-- An array with too few items. -/
  | invalidLength (length : Nat) (expected : String)
  /-- A key occurs twice. -/
  | duplicateField (name : String)
  /-- A key that has to occur does not. -/
  | missingField (name : String)

namespace Fault

/-- The wording of a fault. -/
def message : Fault → String
  | .endInValue => "EOF while parsing a value"
  | .endInString => "EOF while parsing a string"
  | .endInList => "EOF while parsing a list"
  | .endInObject => "EOF while parsing an object"
  | .expectedValue => "expected value"
  | .expectedIdent => "expected ident"
  | .expectedColon => "expected `:`"
  | .expectedListEnd => "expected `,` or `]`"
  | .expectedObjectEnd => "expected `,` or `\x7d`"
  | .keyNotString => "key must be a string"
  | .trailingComma => "trailing comma"
  | .trailingCharacters => "trailing characters"
  | .invalidNumber => "invalid number"
  | .numberOutOfRange => "number out of range"
  | .invalidEscape => "invalid escape"
  | .controlCharacter => "control character (\\u0000-\\u001F) found while parsing a string"
  | .loneSurrogate => "lone leading surrogate in hex escape"
  | .unfinishedSurrogate => "unexpected end of hex escape"
  | .invalidType found expected => "invalid type: " ++ found.text ++ ", expected " ++ expected
  | .invalidValue found expected => "invalid value: " ++ found.text ++ ", expected " ++ expected
  | .invalidLength length expected =>
    "invalid length " ++ toString length ++ ", expected " ++ expected
  | .duplicateField name => "duplicate field `" ++ name ++ "`"
  | .missingField name => "missing field `" ++ name ++ "`"

end Fault

/-- A place in a text. -/
structure Place where
  /-- One more than the number of line feeds before the place. -/
  line : Nat := 1
  /-- The number of bytes between the start of the line and the place. -/
  column : Nat := 0
deriving DecidableEq, Repr

namespace Place

/-- The place behind a character. -/
def after (p : Place) (c : Char) : Place :=
  if c = '\n' then ⟨p.line + 1, 0⟩ else ⟨p.line, p.column + c.utf8Size⟩

/-- The place so many bytes further on in a text. It may lie inside a character. -/
def advance (p : Place) : Nat → List Char → Place
  | _, [] => p
  | bytes, c :: s =>
    if c.utf8Size ≤ bytes then (p.after c).advance (bytes - c.utf8Size) s
    else ⟨p.line, p.column + bytes⟩

end Place

/-- A fault and the place at which it was noticed. -/
structure Failure where
  /-- The cause. -/
  fault : Fault
  /-- Where reading stopped. -/
  place : Place

namespace Failure

/-- The wording of a failure, with its place. -/
def message (f : Failure) : String :=
  f.fault.message ++ " at line " ++ toString f.place.line ++ " column " ++ toString f.place.column

end Failure

end LutFixture.Json
