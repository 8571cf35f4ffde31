import LutFixture.Event
import LutFixture.TraceRecord

/-!
# The log

What happened during an operation is told in log lines, each with a level and the name of the part
of the fixture that tells it. Lines less urgent than the threshold of the log are left out.
-/

namespace LutFixture

/-- How urgent a log line is, the most urgent first. -/
inductive LogLevel where
  | error
  | warn
  | info
  | debug
  | trace
deriving DecidableEq, Repr

namespace LogLevel

/-- The name of a level in a log line. -/
def name : LogLevel → String
  | .error => "ERROR"
  | .warn => "WARN"
  | .info => "INFO"
  | .debug => "DEBUG"
  | .trace => "TRACE"

/-- Greater for less urgent levels, and positive. -/
def rank : LogLevel → Nat
  | .error => 1
  | .warn => 2
  | .info => 3
  | .debug => 4
  | .trace => 5

end LogLevel

/-- The least urgent level that a log takes, if it takes any. -/
abbrev LogThreshold := Option LogLevel

namespace LogThreshold

/-- The log takes lines of this level. -/
def takes (t : LogThreshold) (level : LogLevel) : Bool :=
  match t with
  | none => false
  | some least => level.rank ≤ least.rank

/-- The threshold with a name, in any case. -/
def named? (name : String) : Option LogThreshold :=
  match String.ofList (name.toList.map Char.toLower) with
  | "off" => some none
  | "error" => some (some .error)
  | "warn" => some (some .warn)
  | "info" => some (some .info)
  | "debug" => some (some .debug)
  | "trace" => some (some .trace)
  | _ => none

end LogThreshold

/-- A line of the log. -/
structure LogLine where
  /-- How urgent the line is. -/
  level : LogLevel
  /-- Which part tells it. -/
  target : String
  /-- What it tells. -/
  message : String
  /-- The values that belong to it, each behind its name. -/
  fields : List (String × String) := []
deriving DecidableEq, Repr

namespace LogLine

/-- A named value in a log line. -/
def shownField (x : String × String) : String := " " ++ x.1 ++ "=" ++ x.2

/-- The line as it is written. -/
def text (l : LogLine) : String :=
  l.level.name ++ " " ++ l.target ++ ": " ++ l.message ++ String.join (l.fields.map shownField)

/-- The line about an edge. -/
def ofEdge (x : Sample) : LogLine where
  level := .trace
  target := "roi_harness_core::harness::serial"
  message := "harness edge"
  fields := [
    ("serial_in", toString x.edge.serialIn),
    ("strobe", toString x.edge.strobe),
    ("din", toString x.after.input.value),
    ("dout", toString x.after.output.value),
    ("latched", toString x.after.latched.toNat)]

/-- The line about a change of the latched pattern. -/
def ofLatchChange (x : LatchChange) : LogLine where
  level := .debug
  target := "roi_harness_core::sim::simulator"
  message := "latched new vector"
  fields := [("tick", toString x.tick), ("from", x.old.text), ("to", x.new.text)]

/-- The line about a record that went into the trace. -/
def ofRecord (x : TraceRecord) : LogLine where
  level := .trace
  target := "roi_harness_core::sim::simulator"
  message := "tick"
  fields := [("record", x.shown)]

/-- The line about a stimulus of so many edges. -/
def ofStimulus (edges : Nat) : LogLine where
  level := .debug
  target := "roi_harness_core::sim::simulator"
  message := "running stimulus"
  fields := [("ticks", toString edges)]

/-- The line about a response that is not the expected one. -/
def ofMismatch (m : Mismatch) : LogLine where
  level := .warn
  target := "roi_harness_core::sim::driver"
  message := "serial response mismatch"
  fields := [
    ("vector", m.pattern.text),
    ("expected", toString m.expected),
    ("observed", toString m.observed)]

/-- The line about a sweep that went through. -/
def ofSweep (ticks ones : Nat) : LogLine where
  level := .debug
  target := "roi_harness_core::sim::driver"
  message := "sweep complete"
  fields := [("ticks", toString ticks), ("ones", toString ones)]

end LogLine

namespace Event

/-- The log lines about an event, in order. -/
def logLines : Event → List LogLine
  | .edge x traced =>
    .ofEdge x :: (x.latchChange?.map LogLine.ofLatchChange).toList
      ++ if traced then [.ofRecord (.ofSample x)] else []
  | .accepted edges => [.ofStimulus edges]
  | .mismatch m => [.ofMismatch m]
  | .swept ticks ones => [.ofSweep ticks ones]

end Event

end LutFixture
