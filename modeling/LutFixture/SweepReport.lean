import LutFixture.Json.Printer
import LutFixture.TruthTable

/-!
# Sweep reports

A sweep asks the block for all patterns, one after the other. Its report holds every pattern with
the response to it, and `SweepReport.initWord` packs the responses into the word of a lookup table
that would give the same ones.
-/

namespace LutFixture

/-- A pattern whose response is not the one that the reference table has for it. -/
structure Mismatch where
  pattern : Pattern
  expected : Bool
  observed : Bool
deriving DecidableEq, Repr

namespace Mismatch

/-- What the reference table holds against a response. -/
def find? (p : Pattern) (observed : Bool) : Option Mismatch :=
  let expected := TruthTable.reference.lookup p
  if expected = observed then none else some ⟨p, expected, observed⟩

theorem find?_eq_none_iff {p : Pattern} {observed : Bool} :
    find? p observed = none ↔ TruthTable.reference.lookup p = observed := by
  simp [find?]

end Mismatch

/-- Patterns, each with the response that was read for it. -/
abbrev Responses := List (Pattern × Bool)

/-- What a sweep found. -/
structure SweepReport where
  /-- The patterns in the order in which they were asked for, with the responses. -/
  responses : Responses
  /-- The number of edges that the sweep applied. -/
  ticks : Nat
  /-- The number of patterns answered with one. -/
  ones : Nat
deriving DecidableEq, Repr

namespace SweepReport

/-- The word with the bit of one pattern set if the response is one. -/
def responseWord (r : Pattern × Bool) : Word := if r.2 then 1#64 <<< r.1.toNat else 0

/-- The responses as the word of a lookup table. A pattern counts as answered with one as soon as
one of its responses is. -/
def initWord (r : SweepReport) : Word := r.responses.foldl (fun w x => w ||| responseWord x) 0

/-- The report as a JSON object. -/
def json (r : SweepReport) : Json.Value :=
  .object [
    ("responses", .array (r.responses.map fun x =>
      .array [.natural x.1.toNat, .boolean x.2])),
    ("ticks", .natural r.ticks),
    ("ones", .natural r.ones)]

end SweepReport

end LutFixture
