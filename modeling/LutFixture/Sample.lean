import LutFixture.Registers

/-!
# Samples

A sample is one edge as it happened: its number, what the lines carried and the registers on both
its sides. Counters, trace records, the latch events of the log and the list of patterns that the
block was asked for are all read off samples, so none of them can disagree about what happened.
-/

namespace LutFixture

/-- One edge as it happened. -/
structure Sample where
  /-- The number of edges before this one, since power-on or the last reset. -/
  tick : Nat
  /-- What the lines carried into the edge. -/
  edge : Edge
  before : Registers
  after : Registers
deriving DecidableEq, Repr

/-- A change of the latched pattern. -/
structure LatchChange where
  /-- The number of edges before the one that makes the change. -/
  tick : Nat
  /-- The pattern before the edge. -/
  old : Pattern
  /-- The pattern after it. -/
  new : Pattern
deriving DecidableEq, Repr

namespace Sample

/-- The edge that a block's fixture takes from the given registers. -/
def take (f : Block) (tick : Nat) (r : Registers) (e : Edge) : Sample := ⟨tick, e, r, r.next f e⟩

/-- The bit on the serial output after the edge. -/
def out (x : Sample) : Bool := x.after.serialOut

/-- The edge changed the bit on the serial output. -/
def toggles (x : Sample) : Bool := x.before.serialOut != x.after.serialOut

/-- The edge is a strobe that latched a pattern other than the one before. -/
def relatches (x : Sample) : Bool := x.edge.strobe && x.before.latched != x.after.latched

/-- The change of the latched pattern, if the edge makes one. -/
def latchChange? (x : Sample) : Option LatchChange :=
  if x.relatches then some ⟨x.tick, x.before.latched, x.after.latched⟩ else none

/-- The patterns that the block was asked for. -/
def asked (x : Sample) : List Pattern := x.before.asked x.edge

end Sample

end LutFixture
