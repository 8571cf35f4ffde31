/-!
# Binary floating point with 53 bits

Magnitudes of the 64-bit binary floating-point format, and their operations as exact arithmetic on
natural numbers followed by one rounding to nearest, ties to even. A sign is carried by whoever
has one; the operations here are on magnitudes.

The exponent is bounded below, as in the format, so small results lose digits in the same way. It
is not bounded above: a result past the largest finite magnitude keeps its value here and is
recognised by `IsFinite`.
-/

namespace LutFixture

/-- The nearest natural number to a quotient; a half goes to the even neighbour. -/
def roundHalfEven (num den : Nat) : Nat :=
  let q := num / den
  let r := num % den
  if 2 * r < den ∨ (2 * r = den ∧ q % 2 = 0) then q else q + 1

/-- The magnitude `mantissa * 2 ^ exponent`. -/
structure Binary64 where
  /-- At most 53 bits; all 53 of them are used unless the exponent is the least one. -/
  mantissa : Nat
  /-- The power of two. -/
  exponent : Int
deriving DecidableEq, Repr

namespace Binary64

/-- The exponent of the smallest magnitude that is not zero. -/
def leastExponent : Int := -1074

/-- The largest exponent of a finite magnitude. -/
def greatestExponent : Int := 971

/-- The magnitude lies within the range of the format. -/
def IsFinite (x : Binary64) : Prop := x.exponent ≤ greatestExponent

instance (x : Binary64) : Decidable x.IsFinite := inferInstanceAs (Decidable (_ ≤ _))

/-- The numerator of `m * 2 ^ e` as a quotient of natural numbers. -/
def numerator (x : Binary64) : Nat := x.mantissa <<< x.exponent.toNat

/-- The denominator of `m * 2 ^ e` as a quotient of natural numbers. -/
def denominator (x : Binary64) : Nat := 1 <<< (-x.exponent).toNat

/-- The exponent of the leading bit of a positive quotient. -/
def leadingExponent (num den : Nat) : Int :=
  let d : Int := (Nat.log2 num : Int) - Nat.log2 den
  if den <<< d.toNat ≤ num <<< (-d).toNat then d else d - 1

/-- The magnitude nearest to a quotient; of two that are equally near, the one with an even
mantissa. -/
def nearest (num den : Nat) : Binary64 :=
  if num = 0 then ⟨0, leastExponent⟩
  else
    let e := max (leadingExponent num den - 52) leastExponent
    let m := roundHalfEven (num <<< (-e).toNat) (den <<< e.toNat)
    if m = 1 <<< 53 then ⟨1 <<< 52, e + 1⟩ else ⟨m, e⟩

/-- The magnitude nearest to a natural number. -/
def ofNat (n : Nat) : Binary64 := nearest n 1

/-- The rounded sum. -/
def add (x y : Binary64) : Binary64 :=
  nearest (x.numerator * y.denominator + y.numerator * x.denominator)
    (x.denominator * y.denominator)

/-- The rounded product. -/
def mul (x y : Binary64) : Binary64 :=
  nearest (x.numerator * y.numerator) (x.denominator * y.denominator)

/-- The rounded quotient. -/
def div (x y : Binary64) : Binary64 :=
  nearest (x.numerator * y.denominator) (x.denominator * y.numerator)

/-- The magnitude nearest to a power of ten. -/
def tenPow (k : Nat) : Binary64 := nearest (Nat.pow 10 k) 1

@[simp] theorem nearest_zero (den : Nat) : nearest 0 den = ⟨0, leastExponent⟩ := rfl

/-- The magnitude written with so many decimals: rounded once more, a tie to even. -/
def decimals (places : Nat) (x : Binary64) : String :=
  let unit := Nat.pow 10 places
  let parts := roundHalfEven (x.numerator * unit) x.denominator
  let digits := toString (parts % unit)
  let zeros := String.join (List.replicate (places - digits.length) "0")
  toString (parts / unit) ++ "." ++ zeros ++ digits

end Binary64

end LutFixture
