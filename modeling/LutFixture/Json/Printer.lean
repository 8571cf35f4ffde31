import LutFixture.Json.Value

/-!
# Writing JSON

`Value.compact` writes a value without any space. `Value.pretty` writes every item of an array and
every member of an object on a line of its own, two spaces deeper than its bracket; an empty array
or object stays on one line.
-/

namespace LutFixture.Json

/-- The digit that a number below ten is written with. -/
def digitChar (d : Fin 10) : Char := Nat.digitChar d

namespace Exponent

/-- The exponent as it is written. -/
def chars (e : Exponent) : List Char :=
  let sign := match e.sign with
    | some true => ['-']
    | some false => ['+']
    | none => []
  (if e.capital then 'E' else 'e') :: sign ++ digitChar e.first :: e.more.map digitChar

end Exponent

namespace Fraction

/-- The fraction as it is written, with its point. -/
def chars (f : Fraction) : List Char := '.' :: digitChar f.first :: f.more.map digitChar

end Fraction

namespace Number

/-- The number as it is written. -/
def chars (n : Number) : List Char :=
  (if n.negative then ['-'] else []) ++ Nat.toDigits 10 n.whole
    ++ (n.fraction.map Fraction.chars).getD [] ++ (n.exponent.map Exponent.chars).getD []

end Number

/-- A control character's escape by code point, with four hexadecimal digits. -/
def controlEscape (c : Char) : List Char :=
  let digits := Nat.toDigits 16 c.toNat
  '\\' :: 'u' :: List.replicate (4 - digits.length) '0' ++ digits

/-- One character inside a string: only the quotation mark, the backslash and the controls are
escaped. -/
def escapedChar (c : Char) : List Char :=
  if c = '"' ∨ c = '\\' then ['\\', c]
  else if c = '\x08' then ['\\', 'b']
  else if c = '\x0c' then ['\\', 'f']
  else if c = '\n' then ['\\', 'n']
  else if c = '\r' then ['\\', 'r']
  else if c = '\t' then ['\\', 't']
  else if c.toNat < 0x20 then controlEscape c
  else [c]

/-- A string with its quotation marks. -/
def stringChars (s : String) : List Char := '"' :: s.toList.flatMap escapedChar ++ ['"']

/-- A Boolean by its name. -/
def booleanChars (b : Bool) : List Char := if b then "true".toList else "false".toList

/-- Pieces with a comma between any two. -/
def commaSeparated : List (List Char) → List Char
  | [] => []
  | [p] => p
  | p :: ps => p ++ ',' :: commaSeparated ps

mutual

/-- A value without any space, as characters. -/
def compactChars : Value → List Char
  | .null => "null".toList
  | .boolean b => booleanChars b
  | .number n => n.chars
  | .string s => stringChars s
  | .array items => '[' :: commaSeparated (compactItems items) ++ [']']
  | .object members => '\x7b' :: commaSeparated (compactMembers members) ++ ['\x7d']

/-- The items of an array, each without any space. -/
def compactItems : List Value → List (List Char)
  | [] => []
  | v :: vs => compactChars v :: compactItems vs

/-- The members of an object, each without any space. -/
def compactMembers : List (String × Value) → List (List Char)
  | [] => []
  | (k, v) :: ms => (stringChars k ++ ':' :: compactChars v) :: compactMembers ms

end

/-- Pieces between brackets, each on a line of its own behind the given indentation, with the
closing bracket behind the shorter one. -/
def bracketed (opening closing : Char) (depth : Nat) (pieces : List (List Char)) : List Char :=
  if pieces.isEmpty then [opening, closing]
  else
    let indented := pieces.map fun p => '\n' :: List.replicate (2 * (depth + 1)) ' ' ++ p
    opening :: commaSeparated indented ++ '\n' :: List.replicate (2 * depth) ' ' ++ [closing]

mutual

/-- A value over several lines, as characters; its brackets stand at the given depth. -/
def prettyChars (depth : Nat) : Value → List Char
  | .null => "null".toList
  | .boolean b => booleanChars b
  | .number n => n.chars
  | .string s => stringChars s
  | .array items => bracketed '[' ']' depth (prettyItems (depth + 1) items)
  | .object members => bracketed '\x7b' '\x7d' depth (prettyMembers (depth + 1) members)

/-- The items of an array, each over several lines. -/
def prettyItems (depth : Nat) : List Value → List (List Char)
  | [] => []
  | v :: vs => prettyChars depth v :: prettyItems depth vs

/-- The members of an object, each over several lines, with a space behind the colon. -/
def prettyMembers (depth : Nat) : List (String × Value) → List (List Char)
  | [] => []
  | (k, v) :: ms =>
    (stringChars k ++ ':' :: ' ' :: prettyChars depth v) :: prettyMembers depth ms

end

/-- A value without any space. -/
def Value.compact (v : Value) : String := String.ofList (compactChars v)

/-- A value over several lines. -/
def Value.pretty (v : Value) : String := String.ofList (prettyChars 0 v)

end LutFixture.Json
