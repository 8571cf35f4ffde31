import LutFixture.Json.Reader

/-!
# Numerals

A number is an integer if it has neither fraction nor exponent and fits 64 bits, unsigned or,
behind a minus, signed; any other number is a real number of the binary format.

The digits of a real number are collected into a significand as long as it fits 64 bits. From the
first integer digit on that does not fit, integer digits only scale the number by ten; from the
first fraction digit on that does not fit, fraction digits are ignored. The significand is then
rounded to the binary format and multiplied or divided by the rounded power of ten.
-/

namespace LutFixture.Json

/-- A number as it was read. -/
inductive Numeral where
  /-- A natural number below two to the sixty-fourth. -/
  | natural (n : Nat)
  /-- A negative integer of at most two to the sixty-third. -/
  | negative (magnitude : Nat)
  /-- Any other number. -/
  | real (minus : Bool) (x : Binary64)

namespace Numeral

/-- How a message names the number. -/
def found : Numeral → Found
  | .natural n => .integer n
  | .negative n => .integer (-(n : Int))
  | .real minus x => .real minus x

/-- The largest significand. -/
def greatestSignificand : Nat := UInt64.size - 1

/-- The largest exponent that is worked out. -/
def greatestExponent : Nat := 0x7fffffff

/-- A decimal digit. -/
def isDigit (c : Char) : Bool := '0' ≤ c && c ≤ '9'

/-- The value of a decimal digit. -/
def digitValue (c : Char) : Nat := c.toNat - '0'.toNat

/-- Digits appended to a number for as long as it does not exceed a limit, and the number of
digits left over. -/
def collect (limit : Nat) : Nat → List Char → Nat × Nat
  | n, [] => (n, 0)
  | n, d :: ds =>
    let larger := 10 * n + digitValue d
    if larger ≤ limit then collect limit larger ds else (n, (d :: ds).length)

/-- A magnitude divided by a power of ten, in steps of at most ten to the 308th. -/
def divideByTen (x : Binary64) (k : Nat) : Binary64 :=
  if k ≤ 308 then x.div (.tenPow k)
  else if x.mantissa = 0 then x
  else divideByTen (x.div (.tenPow 308)) (k - 308)
termination_by k

/-- The magnitude of a significand with a power of ten, if it is finite. -/
def magnitude? (significand : Nat) (exponent : Int) : Option Binary64 :=
  let x := Binary64.ofNat significand
  if exponent < 0 then some (divideByTen x exponent.natAbs)
  else if 308 < exponent then if significand = 0 then some x else none
  else
    let y := x.mul (.tenPow exponent.toNat)
    if y.IsFinite then some y else none

/-- A real number whose last character has been read. -/
def finish (minus : Bool) (significand : Nat) (exponent : Int) (rest : List Char) :
    Reading Numeral :=
  match magnitude? significand exponent with
  | some x => .ok (.real minus x, rest)
  | none => .error (.before .numberOutOfRange rest)

/-- The exponent of a number, behind its sign. An exponent past the greatest one makes a number
that is not zero infinite or zero; if infinite, reading stops at the digit that is too much. -/
def exponentDigits (minus : Bool) (significand : Nat) (start : Int) (down : Bool)
    (s : List Char) : Reading Numeral :=
  match s with
  | [] => .error (.before .endInValue [])
  | c :: _ =>
    if isDigit c then
      let rest := s.dropWhile isDigit
      match collect greatestExponent 0 (s.takeWhile isDigit) with
      | (n, 0) => finish minus significand (if down then start - n else start + n) rest
      | (_, k + 1) =>
        if significand ≠ 0 ∧ !down then
          .error (.before .numberOutOfRange (s.drop ((s.takeWhile isDigit).length - k)))
        else .ok (.real minus ⟨0, Binary64.leastExponent⟩, rest)
    else .error (.on .invalidNumber s)

/-- The exponent of a number, behind its marker. -/
def exponentPart (minus : Bool) (significand : Nat) (start : Int) : List Char → Reading Numeral
  | '+' :: s => exponentDigits minus significand start false s
  | '-' :: s => exponentDigits minus significand start true s
  | s => exponentDigits minus significand start false s

/-- A real number up to its exponent: the exponent, if a marker follows. -/
def scaled (minus : Bool) (significand : Nat) (start : Int) : List Char → Reading Numeral
  | [] => finish minus significand start []
  | c :: s =>
    if c = 'e' ∨ c = 'E' then exponentPart minus significand start s
    else finish minus significand start (c :: s)

/-- The fraction of a number and what follows, behind the point. -/
def fractionPart (minus : Bool) (significand : Nat) (start : Int) (s : List Char) :
    Reading Numeral :=
  match s.takeWhile isDigit with
  | [] => .error (.on (if s.isEmpty then .endInValue else .invalidNumber) s)
  | ds =>
    let (n, excess) := collect greatestSignificand significand ds
    scaled minus n (start - (ds.length - excess : Nat)) (s.dropWhile isDigit)

/-- A number without fraction or exponent. -/
def whole (minus : Bool) (significand : Nat) (excess : Nat) (rest : List Char) : Reading Numeral :=
  if excess ≠ 0 then finish minus significand excess rest
  else if !minus then .ok (.natural significand, rest)
  else if significand = 0 ∨ UInt64.size / 2 < significand then finish true significand 0 rest
  else .ok (.negative significand, rest)

/-- What follows the integer part of a number. -/
def afterWhole (minus : Bool) (significand : Nat) (excess : Nat) : List Char → Reading Numeral
  | [] => whole minus significand excess []
  | c :: s =>
    if c = '.' then fractionPart minus significand excess s
    else if c = 'e' ∨ c = 'E' then exponentPart minus significand excess s
    else whole minus significand excess (c :: s)

/-- A number behind its sign. -/
def magnitude (minus : Bool) (s : List Char) : Reading Numeral :=
  match s with
  | [] => .error (.before .endInValue [])
  | c :: r =>
    if c = '0' then
      if (r.takeWhile isDigit).isEmpty then afterWhole minus 0 0 r
      else .error (.on .invalidNumber r)
    else if isDigit c then
      let (n, excess) := collect greatestSignificand 0 (s.takeWhile isDigit)
      afterWhole minus n excess (s.dropWhile isDigit)
    else .error (.on .invalidNumber s)

/-- A number, from its minus or first digit on. -/
def read : List Char → Reading Numeral
  | '-' :: s => magnitude true s
  | s => magnitude false s

theorem rest_of_finish {minus : Bool} {significand : Nat} {exponent : Int}
    {s rest : List Char} {a : Numeral} (h : finish minus significand exponent s = .ok (a, rest)) :
    rest = s := by
  unfold finish at h
  split at h
  · obtain ⟨-, rfl⟩ := by simpa using h
    rfl
  · simp at h

theorem length_of_exponentDigits {minus down : Bool} {significand : Nat} {start : Int}
    {s rest : List Char} {a : Numeral}
    (h : exponentDigits minus significand start down s = .ok (a, rest)) :
    rest.length ≤ s.length := by
  have hd := length_dropWhile_le isDigit s
  unfold exponentDigits at h
  split at h
  · simp at h
  · split at h
    · simp only at h
      split at h
      · have := rest_of_finish h
        simp_all
      · split at h
        · simp at h
        · obtain ⟨-, rfl⟩ := by simpa using h
          exact hd
    · simp at h

theorem length_of_exponentPart {minus : Bool} {significand : Nat} {start : Int}
    {s rest : List Char} {a : Numeral}
    (h : exponentPart minus significand start s = .ok (a, rest)) : rest.length ≤ s.length := by
  unfold exponentPart at h
  split at h
  · have := length_of_exponentDigits h
    simp only [List.length_cons]
    omega
  · have := length_of_exponentDigits h
    simp only [List.length_cons]
    omega
  · exact length_of_exponentDigits h

theorem length_of_scaled {minus : Bool} {significand : Nat} {start : Int}
    {s rest : List Char} {a : Numeral} (h : scaled minus significand start s = .ok (a, rest)) :
    rest.length ≤ s.length := by
  unfold scaled at h
  split at h
  · simp [rest_of_finish h]
  · split at h
    · have := length_of_exponentPart h
      simp only [List.length_cons]
      omega
    · simp [rest_of_finish h]

theorem length_of_fractionPart {minus : Bool} {significand : Nat} {start : Int}
    {s rest : List Char} {a : Numeral}
    (h : fractionPart minus significand start s = .ok (a, rest)) : rest.length ≤ s.length := by
  have hd := length_dropWhile_le isDigit s
  unfold fractionPart at h
  split at h
  · simp at h
  · have := length_of_scaled h
    omega

theorem rest_of_whole {minus : Bool} {significand excess : Nat} {s rest : List Char}
    {a : Numeral} (h : whole minus significand excess s = .ok (a, rest)) : rest = s := by
  unfold whole at h
  split at h
  · exact rest_of_finish h
  · split at h
    · obtain ⟨-, rfl⟩ := by simpa using h
      rfl
    · split at h
      · exact rest_of_finish h
      · obtain ⟨-, rfl⟩ := by simpa using h
        rfl

theorem length_of_afterWhole {minus : Bool} {significand excess : Nat} {s rest : List Char}
    {a : Numeral} (h : afterWhole minus significand excess s = .ok (a, rest)) :
    rest.length ≤ s.length := by
  unfold afterWhole at h
  split at h
  · simp [rest_of_whole h]
  · split at h
    · have := length_of_fractionPart h
      simp only [List.length_cons]
      omega
    · split at h
      · have := length_of_exponentPart h
        simp only [List.length_cons]
        omega
      · simp [rest_of_whole h]

theorem length_of_magnitude {minus : Bool} {s rest : List Char} {a : Numeral}
    (h : magnitude minus s = .ok (a, rest)) : rest.length < s.length := by
  cases s with
  | nil => simp [magnitude] at h
  | cons c s =>
    simp only [magnitude] at h
    split at h
    · split at h
      · have := length_of_afterWhole h
        simp only [List.length_cons]
        omega
      · simp at h
    · split at h
      · rename_i hc
        have := length_of_afterWhole h
        have hd := length_dropWhile_le isDigit s
        simp only [List.dropWhile_cons, hc, if_true] at this
        simp only [List.length_cons]
        omega
      · simp at h

theorem length_of_read {s rest : List Char} {a : Numeral} (h : read s = .ok (a, rest)) :
    rest.length < s.length := by
  unfold read at h
  split at h
  · have := length_of_magnitude h
    simp only [List.length_cons]
    omega
  · exact length_of_magnitude h

end Numeral

end LutFixture.Json
