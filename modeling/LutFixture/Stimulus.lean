import LutFixture.Json.Printer
import LutFixture.Registers

/-!
# Stimuli

A stimulus is a sequence of edges to be applied to the fixture. `Stimulus.load` is the sequence
that brings a pattern to the inputs of the block: its six bits, most significant first, with a
strobe on the last one.
-/

namespace LutFixture

namespace Edge

/-- An edge that only shifts. -/
def shift (serialIn : Bool) : Edge := ⟨serialIn, false⟩

/-- An edge that also latches what has been shifted in. -/
def latch (serialIn : Bool) : Edge := ⟨serialIn, true⟩

/-- The edge as a JSON object. -/
def json (e : Edge) : Json.Value :=
  .object [("serial_in", .boolean e.serialIn), ("strobe", .boolean e.strobe)]

end Edge

/-- A sequence of edges, in the order in which they are applied. -/
abbrev Stimulus := List Edge

namespace Stimulus

/-- Bits in the order in which they are sent, with a strobe on the last one. -/
def strobingLast : List Bool → Stimulus
  | [] => []
  | [b] => [Edge.latch b]
  | b :: bs => Edge.shift b :: strobingLast bs

/-- The edges that latch a pattern, whatever the registers held. -/
def load (p : Pattern) : Stimulus := strobingLast (Bits.msbFirst p)

/-- The stimulus as a JSON array. -/
def json (s : Stimulus) : Json.Value := .array (s.map Edge.json)

@[simp] theorem length_strobingLast (bits : List Bool) :
    (strobingLast bits).length = bits.length := by
  induction bits with
  | nil => rfl
  | cons b bs ih => cases bs <;> simp_all [strobingLast]

@[simp] theorem length_load (p : Pattern) : (load p).length = inputWidth := by
  simp [load]

end Stimulus

end LutFixture
