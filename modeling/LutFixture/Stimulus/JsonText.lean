import LutFixture.Fault
import LutFixture.Json.Collection
import LutFixture.Stimulus

/-!
# Stimuli as JSON

A stimulus is an array of edges. An edge has the fields `serial_in`, which has to be given, and
`strobe`, which is off where it is not given.
-/

namespace LutFixture

/-- An edge of which some fields may not have been read yet. -/
structure EdgeDraft where
  serialIn : Option Bool := none
  strobe : Option Bool := none
deriving DecidableEq, Repr

namespace EdgeDraft

/-- The field of the serial bit. -/
def serialInField : Json.Field EdgeDraft where
  name := "serial_in"
  given d := d.serialIn.isSome
  update := Json.Reader.boolean.map fun b d => { d with serialIn := some b }

/-- The field of the strobe. -/
def strobeField : Json.Field EdgeDraft where
  name := "strobe"
  given d := d.strobe.isSome
  update := Json.Reader.boolean.map fun b d => { d with strobe := some b }

/-- The edge that a draft amounts to. -/
def complete (form : Json.Form) (d : EdgeDraft) : Except Json.Fault Edge :=
  match d.serialIn with
  | some serialIn => .ok ⟨serialIn, d.strobe.getD false⟩
  | none =>
    .error (match form with
      | .object => .missingField "serial_in"
      | .array => .invalidLength 0 "struct TickInput with 2 elements")

end EdgeDraft

namespace Edge

/-- Edges as records. -/
def jsonRecord : Json.Record EdgeDraft Edge where
  title := "struct TickInput"
  fields := [EdgeDraft.serialInField, EdgeDraft.strobeField]
  blank := {}
  complete := EdgeDraft.complete

end Edge

namespace Stimulus

/-- The stimulus that a JSON text stands for. -/
def ofJson (text : String) : Except Fault Stimulus :=
  (Edge.jsonRecord.reader.list.whole text.toList).mapError .json

end Stimulus

end LutFixture
