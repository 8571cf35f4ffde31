import LutFixture.Counters
import LutFixture.TraceRecord

/-!
# Sessions

A session is what changes while a fixture is used: the registers, the counters and, if one is
kept, the trace. One more sample moves all three on together. Clearing a session empties all three,
but whether a trace is kept stays as it is.
-/

namespace LutFixture

/-- What changes while a bench is used. -/
structure Session where
  registers : Registers := {}
  /-- The counts since power-on or the last reset. -/
  counters : Counters := {}
  /-- The records since power-on or the last reset, if a trace is kept. -/
  trace : Option (Array TraceRecord) := none
deriving DecidableEq, Repr

namespace Session

/-- The session with one more sample. -/
def record (s : Session) (x : Sample) : Session where
  registers := x.after
  counters := s.counters.record x
  trace := s.trace.map fun records => records.push (.ofSample x)

/-- The session with everything in it cleared. A trace that is kept goes on without a record. -/
def cleared (s : Session) : Session where
  registers := .reset
  counters := {}
  trace := s.trace.map fun _ => #[]

@[simp] theorem registers_record (s : Session) (x : Sample) :
    (s.record x).registers = x.after := rfl

@[simp] theorem counters_record (s : Session) (x : Sample) :
    (s.record x).counters = s.counters.record x := rfl

@[simp] theorem isSome_trace_record (s : Session) (x : Sample) :
    (s.record x).trace.isSome = s.trace.isSome := by
  simp [record]

@[simp] theorem cleared_record (s : Session) (x : Sample) : (s.record x).cleared = s.cleared := by
  rw [cleared, cleared, record, Option.map_map]
  rfl

@[simp] theorem cleared_cleared (s : Session) : s.cleared.cleared = s.cleared := by
  rw [cleared, cleared, Option.map_map]
  rfl

end Session

end LutFixture
