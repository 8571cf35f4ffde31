import LutFixture.Sample
import LutFixture.SweepReport

/-!
# Events

What happens during an operation, in order. An operation answers with its events beside its
result; what the block was asked for, and what the log says, are read off them.
-/

namespace LutFixture

/-- Something that happened during an operation. -/
inductive Event where
  /-- An edge was applied, and was entered in a trace or not. -/
  | edge (sample : Sample) (traced : Bool)
  /-- A stimulus of so many edges was accepted. -/
  | accepted (edges : Nat)
  /-- A response was not the one of the reference table. -/
  | mismatch (m : Mismatch)
  /-- A sweep went through. -/
  | swept (ticks ones : Nat)
deriving DecidableEq, Repr

namespace Event

/-- The sample of an event that is an edge. -/
def sample? : Event → Option Sample
  | .edge x _ => some x
  | _ => none

/-- The samples among the events, in order. -/
def samples (events : List Event) : List Sample := events.filterMap sample?

/-- The patterns that the block was asked for during the events, in order. -/
def asked (events : List Event) : List Pattern := (samples events).flatMap Sample.asked

@[simp] theorem samples_nil : samples [] = [] := rfl

theorem samples_append (a b : List Event) : samples (a ++ b) = samples a ++ samples b := by
  simp [samples]

theorem asked_append (a b : List Event) : asked (a ++ b) = asked a ++ asked b := by
  simp [asked, samples_append]

end Event

end LutFixture
