import LutFixture.Binary64

/-!
# The fewest digits that read back

A magnitude is written with the fewest decimal digits that round to it again, and among those with
the digits nearest to it. `shortest` looks at one decimal grid after the other, from one digit to
seventeen, and on each grid only at the two neighbours of the magnitude: if any point of a grid
reads back, one of these two does.

`text` gives the digits their form: positional with at least one decimal from a hundred-thousandth
up to ten to the sixteenth, and with an exponent outside that range.
-/

namespace LutFixture.Binary64

/-- The decimal number `digits * 10 ^ exponent`. -/
structure Decimal where
  /-- The digits, read as one number. -/
  digits : Nat
  /-- The power of ten. -/
  exponent : Int
deriving DecidableEq, Repr

/-- The magnitude that the decimal number rounds to. -/
def ofDecimal (d : Decimal) : Binary64 :=
  nearest (d.digits * Nat.pow 10 d.exponent.toNat) (Nat.pow 10 (-d.exponent).toNat)

/-- The exponent of the leading decimal digit of a positive quotient. -/
def leadingTen (num den : Nat) : Int :=
  if den ≤ num then ((Nat.toDigits 10 (num / den)).length : Int) - 1
  else
    match (List.range 400).find? fun k => den ≤ num * Nat.pow 10 k with
    | some k => -(k : Int)
    | none => -400

/-- The number of steps of the grid `10 ^ j` below the magnitude, and whether the upper neighbour
is the nearer one, or as near and even. -/
def gridBelow (x : Binary64) (j : Int) : Nat × Bool :=
  let num := x.numerator * Nat.pow 10 (-j).toNat
  let den := x.denominator * Nat.pow 10 j.toNat
  (num / den, roundHalfEven num den != num / den)

/-- The point of the grid `10 ^ j` that reads back as the magnitude, the nearer one of two. -/
def onGrid? (x : Binary64) (j : Int) : Option Decimal :=
  let (below, upperFirst) := x.gridBelow j
  let lower : Decimal := ⟨below, j⟩
  let upper : Decimal := ⟨below + 1, j⟩
  let candidates := if upperFirst then [upper, lower] else [lower, upper]
  candidates.find? fun d => ofDecimal d = x

/-- The shortest decimal number that reads back as the magnitude. -/
def shortest (x : Binary64) : Decimal :=
  let top := leadingTen x.numerator x.denominator
  ((List.range 17).findSome? fun (k : Nat) => x.onGrid? (top - k)).getD ⟨x.mantissa, 0⟩

/-- The digits without the zeros at their end. -/
def significant (d : Decimal) : List Char :=
  ((Nat.toDigits 10 d.digits).reverse.dropWhile (· = '0')).reverse

/-- The digits with a point after the first one, if any follow it. -/
def scientific : List Char → List Char
  | [] => ['0']
  | [d] => [d]
  | d :: ds => d :: '.' :: ds

/-- A positive decimal number in its form: `digits` are its significant digits and `point` is the
number of them (or of zeros to be added) before the decimal point. -/
def layout (digits : List Char) (point : Int) : List Char :=
  if -5 < point ∧ point ≤ 16 then
    if point ≤ 0 then '0' :: '.' :: List.replicate (-point).toNat '0' ++ digits
    else if digits.length ≤ point.toNat then
      digits ++ List.replicate (point.toNat - digits.length) '0' ++ ['.', '0']
    else digits.take point.toNat ++ '.' :: digits.drop point.toNat
  else
    let sign := if 0 < point then '+' else '-'
    scientific digits ++ 'e' :: sign :: Nat.toDigits 10 (point - 1).natAbs

/-- The magnitude in its shortest form. -/
def text (x : Binary64) : String :=
  if x.mantissa = 0 then "0.0"
  else
    let d := x.shortest
    let point := ((Nat.toDigits 10 d.digits).length : Int) + d.exponent
    String.ofList (layout (significant d) point)

end LutFixture.Binary64
