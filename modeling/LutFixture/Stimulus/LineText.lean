import LutFixture.Fault
import LutFixture.Stimulus
import LutFixture.Text.Blank

/-!
# Stimuli as lines of text

One edge a line: a field for the serial bit, and a second one for the strobe if there is to be
one. Fields are words, each exactly `0` or `1`. A number sign starts a comment that reaches to the
end of the line, and a line of which nothing but blanks is left stands for nothing. Reading stops
at the first line that is not of this form; `LineFault` says what is wrong with it.
-/

namespace LutFixture

/-- What is wrong with a line of a stimulus text. -/
inductive LineFault where
  /-- There is no field of this name. -/
  | missing (name : String)
  /-- The field of this name is neither `0` nor `1`. -/
  | notBit (name : String) (field : List Char)
  /-- There is a third field. -/
  | trailing (field : List Char)
deriving DecidableEq, Repr

namespace LineFault

/-- The wording of a line fault. -/
def reason : LineFault → String
  | .missing name => "missing " ++ name
  | .notBit name field => name ++ " must be 0 or 1, got " ++ Text.quoted field
  | .trailing field => "unexpected trailing field " ++ Text.quoted field

end LineFault

namespace Stimulus

/-- The bit that the field of a given name stands for. -/
def bitField (name : String) : Option (List Char) → Except LineFault Bool
  | some ['0'] => .ok false
  | some ['1'] => .ok true
  | some field => .error (.notBit name field)
  | none => .error (.missing name)

/-- A line up to its comment. -/
def uncommented (line : List Char) : List Char := line.takeWhile (· != '#')

/-- What a line says: what stands in front of its comment, without the blanks at both ends. -/
def content (line : List Char) : List Char := Text.trim (uncommented line)

/-- The edge that the fields of a line stand for. The fields are looked at from left to right. -/
def edgeOfFields (fields : List (List Char)) : Except LineFault Edge := do
  let serialIn ← bitField "serial_in" fields[0]?
  let strobe ← match fields[1]? with
    | some field => bitField "strobe" (some field)
    | none => .ok false
  match fields[2]? with
  | some field => .error (.trailing field)
  | none => .ok ⟨serialIn, strobe⟩

/-- The edge that a line stands for, if it says anything. -/
def edgeOfLine (line : List Char) : Except LineFault (Option Edge) :=
  if (content line).isEmpty then .ok none
  else (edgeOfFields (Text.words (content line))).map some

/-- The edge that the line with the given number stands for. -/
def edgeOfNumbered (numbered : List Char × Nat) : Except Fault (Option Edge) :=
  (edgeOfLine numbered.1).mapError fun f => .malformedStimulus numbered.2 f.reason

/-- The edges that lines stand for, the first of them having the given number. -/
def ofLines (number : Nat) (lines : List (List Char)) : Except Fault Stimulus :=
  ((lines.zipIdx number).mapM edgeOfNumbered).map (List.filterMap id)

/-- The stimulus that a text stands for. -/
def ofText (text : String) : Except Fault Stimulus :=
  ofLines 1 (Text.ended (Text.lines text.toList))

@[simp] theorem ofLines_nil (number : Nat) : ofLines number [] = .ok [] := rfl

end Stimulus

end LutFixture
