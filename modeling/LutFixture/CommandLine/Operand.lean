import LutFixture.Fault
import LutFixture.Text.Blank
import LutFixture.Text.Natural

/-!
# Operands of the command line

A command takes a file name or a pattern. A file name is anything but the empty text. A pattern is
a natural number below 64, in hexadecimal digits behind `0x`, in binary digits behind `0b`, and
else in decimal digits, with blanks around it.
-/

namespace LutFixture.CommandLine

/-- Why a text is not a pattern. -/
inductive PatternFault where
  /-- It is not a natural number of 64 bits. -/
  | number (f : Text.NaturalFault)
  /-- It is a number, but too large for a pattern. -/
  | range (n : Nat)
deriving DecidableEq, Repr

namespace PatternFault

/-- The wording of the fault. -/
def message : PatternFault → String
  | .number f => f.message
  | .range n => (Fault.vectorOutOfRange n inputWidth).message

end PatternFault

/-- The number that a text without blanks around it writes, in the radix that its beginning names.
-/
def numberOf : List Char → Except Text.NaturalFault Nat
  | '0' :: 'x' :: s => Text.natural 16 s
  | '0' :: 'b' :: s => Text.natural 2 s
  | s => Text.natural 10 s

/-- The pattern that an argument stands for. -/
def patternOf (arg : String) : Except PatternFault Pattern :=
  match numberOf (Text.trim arg.toList) with
  | .error f => .error (.number f)
  | .ok n =>
    match Pattern.ofNat? n with
    | some p => .ok p
    | none => .error (.range n)

/-- Why the arguments are not those of an invocation. -/
inductive ArgumentFault where
  /-- A text does not stand for a pattern. -/
  | invalidPattern (arg : String) (f : PatternFault)
  /-- An argument that nothing takes. -/
  | unexpected (arg : String)
  /-- An option without the value that belongs to it, or with one that does not. -/
  | badValue (option : String)
  /-- An option that is given again. -/
  | repeated (option : String)
  /-- A command without its operand. -/
  | missingOperand
  /-- No command. -/
  | missingCommand
deriving DecidableEq, Repr

namespace ArgumentFault

/-- The wording of the fault. -/
def message : ArgumentFault → String
  | .invalidPattern arg f =>
    "error: invalid value '" ++ arg ++ "' for '<VECTOR>': " ++ f.message
  | .unexpected arg => "error: unexpected argument '" ++ arg ++ "' found"
  | .badValue option => "error: a wrong value for '" ++ option ++ "' was supplied"
  | .repeated option => "error: the argument '" ++ option ++ "' cannot be used multiple times"
  | .missingOperand => "error: a required argument was not provided"
  | .missingCommand => "error: a subcommand was not provided"

end ArgumentFault

/-- What kind of operand a command takes. -/
inductive OperandKind where
  | file
  | pattern
deriving DecidableEq, Repr

/-- The operand of a command. -/
inductive Operand where
  | file (path : String)
  | pattern (p : Pattern)
deriving DecidableEq, Repr

namespace Operand

/-- The operand that an argument stands for. -/
def ofArgument : OperandKind → String → Except ArgumentFault Operand
  | .file, arg => if arg.isEmpty then .error (.badValue "<STIMULUS>") else .ok (.file arg)
  | .pattern, arg =>
    match patternOf arg with
    | .ok p => .ok (.pattern p)
    | .error f => .error (.invalidPattern arg f)

end Operand

end LutFixture.CommandLine
