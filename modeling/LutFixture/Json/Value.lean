/-!
# JSON values

A JSON value as a tree. The members of an object are kept in the order in which they are written,
and a key may occur twice: what a repeated key means is for the reader of a format to say. A
number is kept as it is written, for the same reason.
-/

namespace LutFixture.Json

/-- The exponent of a number: its marker, its sign if it has one, and at least one digit. -/
structure Exponent where
  /-- The marker is a capital letter. -/
  capital : Bool := false
  /-- `some true` is a minus, `some false` a plus, `none` no sign. -/
  sign : Option Bool := none
  /-- The first digit. -/
  first : Fin 10
  /-- The digits after it. -/
  more : List (Fin 10) := []
deriving DecidableEq, Repr

/-- The fraction of a number: at least one digit. -/
structure Fraction where
  /-- The first digit. -/
  first : Fin 10
  /-- The digits after it. -/
  more : List (Fin 10) := []
deriving DecidableEq, Repr

/-- A number as it is written. The integer part has no needless leading zero, so a natural number
says all about it. -/
structure Number where
  /-- A minus stands before the number. -/
  negative : Bool := false
  /-- The integer part. -/
  whole : Nat
  /-- What follows a point, if there is one. -/
  fraction : Option Fraction := none
  /-- The exponent, if there is one. -/
  exponent : Option Exponent := none
deriving DecidableEq, Repr

/-- A JSON value. -/
inductive Value where
  | null
  | boolean (b : Bool)
  | number (n : Number)
  | string (s : String)
  | array (items : List Value)
  | object (members : List (String × Value))

namespace Value

/-- A natural number in plain decimal digits. -/
def natural (n : Nat) : Value := .number { whole := n }

end Value

end LutFixture.Json
