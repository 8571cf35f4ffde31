import LutFixture.Bits

/-!
# Input patterns

The lookup table has six inputs, so it is addressed by a six-bit pattern. A pattern is sent over
the serial line most significant bit first (`Bits.msbFirst`) and is written in base two with all
its six digits. `Pattern.all` lists the 64 patterns in ascending order, the order of a sweep.
-/

namespace LutFixture

/-- The number of inputs of the lookup table. -/
abbrev inputWidth : Nat := 6

/-- The number of outputs of the lookup table. -/
abbrev outputWidth : Nat := 1

/-- What stands at the six inputs of the lookup table. -/
abbrev Pattern := BitVec inputWidth

namespace Pattern

/-- The number of patterns. -/
abbrev count : Nat := 1 <<< inputWidth

/-- The pattern with this number, if there is one. -/
def ofNat? (n : Nat) : Option Pattern :=
  if h : n < count then some (BitVec.ofNatLT n h) else none

/-- All patterns in ascending order. -/
def all : List Pattern := (List.finRange count).map BitVec.ofFin

/-- A pattern as `0b` and its six binary digits. -/
def text (p : Pattern) : String := "0b" ++ Bits.text (Bits.msbFirst p)

theorem ofNat?_toNat (p : Pattern) : ofNat? p.toNat = some p := by
  simp [ofNat?, Nat.one_shiftLeft, p.isLt]

theorem ofNat?_eq_none_iff {n : Nat} : ofNat? n = none ↔ count ≤ n := by
  simp [ofNat?]

theorem mem_all (p : Pattern) : p ∈ all :=
  List.mem_map.2 ⟨p.toFin, List.mem_finRange _, rfl⟩

@[simp] theorem length_all : all.length = count := by simp [all]

end Pattern

end LutFixture
