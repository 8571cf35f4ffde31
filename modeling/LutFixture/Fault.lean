import LutFixture.Json.Fault
import LutFixture.SweepReport

/-!
# Faults

Everything that an operation of the library can refuse to do, by cause, with one wording for each.
-/

namespace LutFixture

/-- Why a file has no text. -/
inductive FileFault where
  /-- There is no such file. -/
  | absent
  /-- The name is that of a directory. -/
  | directory
  /-- The name leads through something that is no directory. -/
  | notDirectory
  /-- The name is longer than names may be. -/
  | nameTooLong
  /-- The contents are not UTF-8. -/
  | notText
  /-- The system does not hand the file out, for a reason of its own. -/
  | unreadable (reason : String)
deriving DecidableEq, Repr

namespace FileFault

/-- The wording of a file fault. -/
def message : FileFault → String
  | .absent => "No such file or directory (os error 2)"
  | .directory => "Is a directory (os error 21)"
  | .notDirectory => "Not a directory (os error 20)"
  | .nameTooLong => "File name too long (os error 36)"
  | .notText => "stream did not contain valid UTF-8"
  | .unreadable reason => reason

end FileFault

/-- Why an operation was refused. -/
inductive Fault where
  /-- A number is too large for a pattern of the given width. -/
  | vectorOutOfRange (value width : Nat)
  /-- A character other than zero and one in a bit string. -/
  | invalidBit (c : Char)
  /-- A line of a stimulus text is not an edge. -/
  | malformedStimulus (line : Nat) (reason : String)
  /-- A stimulus has more edges than the limit. -/
  | tickLimitExceeded (limit : Nat)
  /-- A response is not the one of the reference table. -/
  | mismatch (m : Mismatch)
  /-- A JSON text cannot be read. -/
  | json (f : Json.Failure)
  /-- A file cannot be read. -/
  | file (f : FileFault)

namespace Fault

/-- The wording of a fault. -/
def message : Fault → String
  | .vectorOutOfRange value width =>
    "value 0x" ++ String.ofList (Nat.toDigits 16 value) ++ " does not fit in a "
      ++ toString width ++ "-bit input vector"
  | .invalidBit c => "invalid bit character " ++ Text.quotedChar c ++ " (expected '0' or '1')"
  | .malformedStimulus line reason =>
    "malformed stimulus at line " ++ toString line ++ ": " ++ reason
  | .tickLimitExceeded limit => "stimulus exceeds the tick limit of " ++ toString limit
  | .mismatch m =>
    "vector " ++ m.pattern.text ++ ": expected serial_out=" ++ toString m.expected
      ++ ", observed " ++ toString m.observed
  | .json f => "invalid JSON: " ++ f.message
  | .file f => f.message

end Fault

namespace Pattern

/-- The pattern with this number. -/
def ofNat (n : Nat) : Except Fault Pattern :=
  match ofNat? n with
  | some p => .ok p
  | none => .error (.vectorOutOfRange n inputWidth)

theorem ofNat_eq_ok_iff {n : Nat} {p : Pattern} : ofNat n = .ok p ↔ ofNat? n = some p := by
  unfold ofNat; split <;> simp_all

end Pattern

end LutFixture
