import LutFixture.ShiftRegister
import LutFixture.TruthTable

/-!
# The registers of the fixture

The fixture drives a block with six inputs over one serial line in and one serial line out. An
input register collects serial bits. A strobe edge latches what the input register then holds as
the pattern at the block's inputs, and on the same edge the output register takes the block's
response to the pattern that was latched before. An edge without a strobe passes the oldest bit of
the input register on to the output register, so a stream without strobes comes back six edges
later.

`Registers.next` is one edge and `Registers.run` a sequence of them.
-/

namespace LutFixture

/-- What the lines carry into one clock edge. -/
structure Edge where
  /-- The serial bit. -/
  serialIn : Bool
  /-- The edge is a strobe. -/
  strobe : Bool := false
deriving DecidableEq, Repr

/-- What the registers hold between two edges. -/
structure Registers where
  /-- The register that serial bits shift into. -/
  input : ShiftRegister inputWidth := {}
  /-- The register that the serial output reads. -/
  output : ShiftRegister outputWidth := {}
  /-- The pattern at the inputs of the block. -/
  latched : Pattern := 0
deriving DecidableEq, Repr

namespace Registers

/-- All registers hold zero. -/
def reset : Registers := {}

/-- The pattern that a strobe would latch if the input register stood still. -/
def pending (r : Registers) : Pattern := r.input.bits

/-- The bit on the serial output. -/
def serialOut (r : Registers) : Bool := r.output.msb

/-- The registers after one edge. All of them change at once, from what they held before. -/
def next (f : Block) (r : Registers) (e : Edge) : Registers :=
  let input := r.input.shift e.serialIn
  if e.strobe then
    { input, output := r.output.load (BitVec.ofBool (f r.latched) |>.setWidth 64),
      latched := input.bits }
  else
    { input, output := r.output.shift r.input.msb, latched := r.latched }

/-- The registers after a sequence of edges. -/
def run (f : Block) (r : Registers) (edges : List Edge) : Registers := edges.foldl (next f) r

/-- The bits on the serial output after each edge of a sequence. -/
def outputs (f : Block) : Registers → List Edge → List Bool
  | _, [] => []
  | r, e :: es => (r.next f e).serialOut :: outputs f (r.next f e) es

/-- The patterns that the block is asked for on one edge: the latched one on a strobe, and none
without. -/
def asked (r : Registers) (e : Edge) : List Pattern := if e.strobe then [r.latched] else []

@[simp] theorem run_nil (f : Block) (r : Registers) : r.run f [] = r := rfl

@[simp] theorem run_cons (f : Block) (r : Registers) (e : Edge) (es : List Edge) :
    r.run f (e :: es) = (r.next f e).run f es := rfl

theorem run_append (f : Block) (r : Registers) (a b : List Edge) :
    r.run f (a ++ b) = (r.run f a).run f b := by
  simp [run, List.foldl_append]

@[simp] theorem length_outputs (f : Block) (r : Registers) (edges : List Edge) :
    (r.outputs f edges).length = edges.length := by
  induction edges generalizing r with
  | nil => rfl
  | cons e es ih => simp [outputs, ih]

theorem outputs_append (f : Block) (r : Registers) (a b : List Edge) :
    r.outputs f (a ++ b) = r.outputs f a ++ (r.run f a).outputs f b := by
  induction a generalizing r with
  | nil => rfl
  | cons e es ih => simp [outputs, ih]

theorem input_next (f : Block) (r : Registers) (e : Edge) :
    (r.next f e).input = r.input.shift e.serialIn := by
  unfold next; split <;> rfl

/-- The serial output after an edge: the block's response on a strobe, and else the oldest bit of
the input register. What the output register held before makes no difference. -/
theorem serialOut_next (f : Block) (r : Registers) (e : Edge) :
    (r.next f e).serialOut = if e.strobe then f r.latched else r.input.msb := by
  unfold next serialOut
  split
  · cases f r.latched <;>
      simp [ShiftRegister.ofWord, ShiftRegister.msb, BitVec.msb_eq_getLsbD_last]
  · simp [ShiftRegister.shift, ShiftRegister.msb, BitVec.msb_eq_getLsbD_last]

theorem latched_next (f : Block) (r : Registers) (e : Edge) :
    (r.next f e).latched = if e.strobe then (r.next f e).input.bits else r.latched := by
  unfold next; split <;> simp_all

end Registers

end LutFixture
