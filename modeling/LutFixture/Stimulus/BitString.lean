import LutFixture.Fault
import LutFixture.Stimulus
import LutFixture.Text.Blank

/-!
# Stimuli as bit strings

A bit string is a stimulus without strobes: one edge for every zero and one. Blanks and low lines
may stand anywhere, to group the digits.
-/

namespace LutFixture.Stimulus

/-- The character may stand between the digits of a bit string. -/
def isFiller (c : Char) : Bool := c == '_' || Text.isBlank c

/-- The edge that a digit stands for. -/
def edgeOfDigit (c : Char) : Except Fault Edge :=
  if c = '0' then .ok (Edge.shift false)
  else if c = '1' then .ok (Edge.shift true)
  else .error (.invalidBit c)

/-- The stimulus that a bit string stands for. -/
def ofBits (text : String) : Except Fault Stimulus :=
  (text.toList.filter (!isFiller ·)).mapM edgeOfDigit

@[simp] theorem ofBits_empty : ofBits "" = .ok [] := rfl

end LutFixture.Stimulus
