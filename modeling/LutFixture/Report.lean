import LutFixture.Binary64
import LutFixture.Counters

/-!
# The statistics report

A report shows counters in up to three sections. A list of names says which sections are wanted:
an empty list wants all of them, and otherwise a section is shown if its name is in the list, so
order, repetition and unknown names make no difference. The sections always come in the same
order, between a heading and a rule.

Two figures of the first section come from a wall clock. They are no function of the counters, so
a report takes their texts as an argument.
-/

namespace LutFixture

/-- The texts of the two figures that a wall clock gives. -/
structure WallClock where
  /-- The time that has passed, in seconds. -/
  seconds : String
  /-- The number of edges per millisecond, where so many edges were applied in all. -/
  kilohertz : Nat → String

namespace WallClock

/-- Nobody looked at the clock. -/
def hidden : WallClock := ⟨"*", fun _ => "*"⟩

/-- The clock after so many nanoseconds. Whole seconds and the rest are turned into floating point
apart. Where no time has passed, there is no frequency. -/
def measured (nanoseconds : Nat) : WallClock :=
  let billion := 1000000000
  let rest := (Binary64.ofNat (nanoseconds % billion)).div (.ofNat billion)
  let seconds := (Binary64.ofNat (nanoseconds / billion)).add rest
  let kilohertz (ticks : Nat) : Binary64 :=
    if seconds.mantissa = 0 then .ofNat 0
    else ((Binary64.ofNat ticks).div seconds).div (.ofNat 1000)
  { seconds := seconds.decimals 4
    kilohertz := fun ticks => (kilohertz ticks).decimals 2 }

end WallClock

/-- A section of the report. -/
inductive Section where
  | summary
  | protocol
  | lines
deriving DecidableEq, Repr

namespace Section

/-- The name by which a section is wanted. -/
def name : Section → String
  | .summary => "summary"
  | .protocol => "protocol"
  | .lines => "lines"

/-- All sections in the order of the report. -/
def all : List Section := [.summary, .protocol, .lines]

/-- The sections that a list of names wants. -/
def wanted (names : List String) : List Section :=
  if names.isEmpty then all else all.filter fun s => names.contains s.name

@[simp] theorem wanted_nil : wanted [] = all := rfl

theorem mem_wanted_iff {names : List String} {s : Section} :
    s ∈ wanted names ↔ names = [] ∨ s.name ∈ names := by
  have hs : s ∈ all := by cases s <;> simp [all]
  unfold wanted
  split <;> simp_all

end Section

namespace Counters

/-- The heavy rule at the ends of the report and under its heading. -/
def heavyRule : String := String.ofList (List.replicate 58 '=')

/-- The light rule behind a section. -/
def lightRule : String := String.ofList (List.replicate 58 '-')

/-- A count with its share of all edges in per cent. -/
def share (c : Counters) (count : Nat) : String :=
  let ratio := (Binary64.ofNat count).div (.ofNat (max c.ticks 1))
  toString count ++ " (" ++ (ratio.mul (.ofNat 100)).decimals 2 ++ "%)"

/-- The lines of one section. -/
def sectionLines (c : Counters) (clock : WallClock) : Section → List String
  | .summary => [
      "host_seconds             " ++ clock.seconds ++ " s",
      "sim_ticks                " ++ toString c.ticks,
      "sim_freq                 " ++ clock.kilohertz c.ticks ++ " kHz",
      lightRule]
  | .protocol => [
      "PROTOCOL",
      "  strobe.edges           " ++ c.share c.strobes,
      "  latch.changes          " ++ toString c.latchChanges,
      lightRule]
  | .lines => [
      "LINES",
      "  serial_in.ones         " ++ c.share c.serialInOnes,
      "  serial_out.ones        " ++ c.share c.serialOutOnes,
      "  serial_out.toggles     " ++ c.share c.serialOutToggles]

/-- The lines of the report. -/
def reportLines (c : Counters) (clock : WallClock) (sections : List Section) : List String :=
  [heavyRule, "ROI SERIAL HARNESS STATISTICS", heavyRule]
    ++ sections.flatMap (c.sectionLines clock) ++ [heavyRule]

/-- The report with the sections that a list of names wants. Every line has its line feed. -/
def report (c : Counters) (clock : WallClock) (names : List String) : String :=
  String.join ((c.reportLines clock (Section.wanted names)).map (· ++ "\n"))

end Counters

end LutFixture
