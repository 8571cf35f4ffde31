import LutFixture.Pattern

/-!
# Truth tables

A lookup table with six inputs is a 64-bit word: its response to a pattern is the bit that the
pattern numbers. `TruthTable.reference` is the table of the region under test, against which a
sweep checks every response.
-/

namespace LutFixture

/-- A combinational block: its output depends on nothing but the pattern at its inputs. -/
abbrev Block := Pattern → Bool

/-- The contents of a lookup table with six inputs. -/
structure TruthTable where
  /-- The word whose bit `n` is the response to pattern `n`. -/
  init : Word
deriving DecidableEq, Repr

namespace TruthTable

/-- The table of the region under test. -/
def reference : TruthTable := ⟨0x8000dead00000001#64⟩

/-- The response of the table to a pattern. -/
def lookup (t : TruthTable) (p : Pattern) : Bool := t.init.getLsbD p.toNat

/-- Every pattern with the response to it, in ascending order. -/
def rows (t : TruthTable) : List (Pattern × Bool) := Pattern.all.map fun p => (p, t.lookup p)

/-- The number of patterns that the table answers with one. -/
def ones (t : TruthTable) : Nat := t.init.ones

@[simp] theorem length_rows (t : TruthTable) : t.rows.length = Pattern.count := by simp [rows]

end TruthTable

end LutFixture
