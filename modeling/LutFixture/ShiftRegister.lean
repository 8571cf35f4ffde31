import LutFixture.Bits

/-!
# Shift registers

A register of a fixed width takes one bit at its low end on each shift and loses the bit at its
high end; a parallel load replaces all its bits by the low bits of a word. The bit at the high end
is the one that a serial line reads.
-/

namespace LutFixture

/-- A shift register of the given width. -/
structure ShiftRegister (width : Nat) where
  /-- What the register holds. -/
  bits : BitVec width := 0
deriving DecidableEq, Repr

namespace ShiftRegister

variable {width : Nat}

/-- The register that holds the low bits of a word. -/
def ofWord (w : Word) : ShiftRegister width := ⟨w.setWidth width⟩

/-- A shift: the bit enters at the low end and the oldest bit leaves at the high end. -/
def shift (r : ShiftRegister width) (b : Bool) : ShiftRegister width := ⟨r.bits.shiftConcat b⟩

/-- A parallel load: whatever the register held gives way to the low bits of the word. -/
def load (_ : ShiftRegister width) (w : Word) : ShiftRegister width := ofWord w

/-- The number that the register holds. -/
def value (r : ShiftRegister width) : Nat := r.bits.toNat

/-- The bit at the high end, the oldest one after a run of shifts. -/
def msb (r : ShiftRegister width) : Bool := r.bits.msb

/-- A register as its width and its bits, the most significant one first. -/
def text (r : ShiftRegister width) : String :=
  "ShiftRegister<" ++ toString width ++ ">(" ++ Bits.text (Bits.msbFirst r.bits) ++ ")"

@[simp] theorem load_eq_ofWord (r : ShiftRegister width) (w : Word) : r.load w = ofWord w := rfl

end ShiftRegister

end LutFixture
