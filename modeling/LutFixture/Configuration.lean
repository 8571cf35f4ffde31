/-!
# Configuration

What a user may choose about a session, with the choices that hold where nothing is said.
-/

namespace LutFixture

/-- The tick limit where none is given. -/
def defaultMaxTicks : UInt64 := 1000000

/-- Choices about sessions in general. -/
structure GeneralOptions where
  traceTicks : Bool := false
  /-- The most edges that one stimulus may have. -/
  maxTicks : UInt64 := defaultMaxTicks
deriving DecidableEq, Repr

/-- Choices about how patterns are driven. -/
structure DriverOptions where
  /-- What the serial input carries while a response is read. -/
  idleSerialIn : Bool := false
deriving DecidableEq, Repr

/-- Choices about the statistics report. -/
structure StatisticsOptions where
  /-- The names of the wanted sections; no name means all sections. -/
  sections : List String := []
deriving DecidableEq, Repr

/-- Everything that a user may choose. -/
structure Configuration where
  general : GeneralOptions := {}
  driver : DriverOptions := {}
  statistics : StatisticsOptions := {}
deriving DecidableEq, Repr

namespace Configuration

/-- The configuration with a trace, whatever it said before; or as it was. -/
def tracing (c : Configuration) (also : Bool) : Configuration :=
  { c with general := { c.general with traceTicks := c.general.traceTicks || also } }

@[simp] theorem maxTicks_tracing (c : Configuration) (also : Bool) :
    (c.tracing also).general.maxTicks = c.general.maxTicks := rfl

@[simp] theorem tracing_false (c : Configuration) : c.tracing false = c := by
  simp [tracing]

end Configuration

end LutFixture
