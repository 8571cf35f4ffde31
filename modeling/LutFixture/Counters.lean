import LutFixture.Sample

/-!
# Counters

What a run amounts to, in numbers: edges, strobes, changes of the latched pattern, ones on both
serial lines and toggles of the serial output. Each counter counts the samples with one property,
and `Counters.record` adds one sample.
-/

namespace LutFixture

/-- Counts over the samples since power-on or the last reset. -/
structure Counters where
  /-- All edges. -/
  ticks : Nat := 0
  /-- Strobe edges. -/
  strobes : Nat := 0
  /-- Strobe edges that latched another pattern than the one before. -/
  latchChanges : Nat := 0
  /-- Edges with a one on the serial input. -/
  serialInOnes : Nat := 0
  /-- Edges after which the serial output carries a one. -/
  serialOutOnes : Nat := 0
  /-- Edges that changed the serial output. -/
  serialOutToggles : Nat := 0
deriving DecidableEq, Repr

namespace Counters

/-- The counters with one more sample. -/
def record (c : Counters) (x : Sample) : Counters where
  ticks := c.ticks + 1
  strobes := c.strobes + x.edge.strobe.toNat
  latchChanges := c.latchChanges + x.relatches.toNat
  serialInOnes := c.serialInOnes + x.edge.serialIn.toNat
  serialOutOnes := c.serialOutOnes + x.out.toNat
  serialOutToggles := c.serialOutToggles + x.toggles.toNat

@[simp] theorem ticks_record (c : Counters) (x : Sample) : (c.record x).ticks = c.ticks + 1 := rfl

end Counters

end LutFixture
