/-!
# Natural numbers of 64 bits

How a natural number is read from its digits: from left to right, in a given radix, and not past
64 bits. The first thing that is wrong wins: a character that is no digit, or a digit that makes
the number too large.
-/

namespace LutFixture.Text

/-- The value of a hexadecimal digit of either case. -/
def hexDigit? (c : Char) : Option Nat :=
  if '0' ≤ c ∧ c ≤ '9' then some (c.toNat - '0'.toNat)
  else if 'a' ≤ c ∧ c ≤ 'f' then some (c.toNat - 'a'.toNat + 10)
  else if 'A' ≤ c ∧ c ≤ 'F' then some (c.toNat - 'A'.toNat + 10)
  else none

/-- The value of a digit in a radix of at most sixteen. -/
def digit? (radix : Nat) (c : Char) : Option Nat := (hexDigit? c).filter (· < radix)

/-- Why a text is not a natural number of 64 bits. -/
inductive NaturalFault where
  /-- There is no digit. -/
  | empty
  /-- A character is not a digit of the radix. -/
  | invalidDigit
  /-- The number does not fit. -/
  | tooLarge
deriving DecidableEq, Repr

namespace NaturalFault

/-- The wording of the fault. -/
def message : NaturalFault → String
  | .empty => "cannot parse integer from empty string"
  | .invalidDigit => "invalid digit found in string"
  | .tooLarge => "number too large to fit in target type"

end NaturalFault

/-- The number that digits write behind a number that has been read. -/
def naturalOnto (radix n : Nat) : List Char → Except NaturalFault Nat
  | [] => .ok n
  | c :: s =>
    match digit? radix c with
    | none => .error .invalidDigit
    | some d =>
      if radix * n + d < UInt64.size then naturalOnto radix (radix * n + d) s else .error .tooLarge

/-- The number that a text writes in a radix. A plus may stand before the digits, but not alone.
-/
def natural (radix : Nat) : List Char → Except NaturalFault Nat
  | [] => .error .empty
  | ['+'] => .error .invalidDigit
  | '+' :: s => naturalOnto radix 0 s
  | s => naturalOnto radix 0 s

@[simp] theorem natural_nil (radix : Nat) : natural radix [] = .error .empty := rfl

theorem naturalOnto_lt {radix n m : Nat} {s : List Char} (hn : n < UInt64.size)
    (h : naturalOnto radix n s = .ok m) : m < UInt64.size := by
  induction s generalizing n with
  | nil => simp_all [naturalOnto]
  | cons c s ih =>
    simp only [naturalOnto] at h
    split at h
    · simp at h
    · split at h
      · exact ih ‹_› h
      · simp at h

end LutFixture.Text
