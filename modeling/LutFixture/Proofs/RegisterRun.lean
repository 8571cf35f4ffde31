import LutFixture.Proofs.PackedRegister
import Mathlib.Data.List.DropRight

/-!
# Runs of a register

A load makes a register forget, so of any sequence of shifts and loads two things remain: the word
that was loaded last (`ShiftRegister.lastWord`) and the bits that were shifted in since
(`ShiftRegister.bitsSince`). The register then holds this word with these bits written behind it in
base two, cut down to its width.
-/

namespace LutFixture

namespace ShiftRegister

variable {width : ℕ}

/-- What can be done to a register. -/
inductive Operation where
  | shift (b : Bool)
  | load (w : Word)
deriving DecidableEq, Repr

namespace Operation

def bit? : Operation → Option Bool
  | shift b => some b
  | load _ => none

def word? : Operation → Option Word
  | shift _ => none
  | load w => some w

end Operation

def execute (r : ShiftRegister width) : Operation → ShiftRegister width
  | .shift b => r.shift b
  | .load w => r.load w

def run (r : ShiftRegister width) (ops : List Operation) : ShiftRegister width :=
  ops.foldl execute r

/-- The word that was loaded last, or the initial one if there is no load. -/
def lastWord (init : Word) (ops : List Operation) : Word :=
  ((ops.filterMap Operation.word?).getLast?).getD init

/-- The bits of the shifts behind the last load, in order. -/
def bitsSince (ops : List Operation) : List Bool :=
  (ops.rtakeWhile fun op => op.bit?.isSome).filterMap Operation.bit?

theorem run_append_singleton (r : ShiftRegister width) (ops : List Operation) (op : Operation) :
    r.run (ops ++ [op]) = (r.run ops).execute op := by
  rw [run, List.foldl_append]
  rfl

theorem lastWord_append_shift (init : Word) (ops : List Operation) (b : Bool) :
    lastWord init (ops ++ [.shift b]) = lastWord init ops := by
  simp [lastWord, Operation.word?]

theorem lastWord_append_load (init : Word) (ops : List Operation) (w : Word) :
    lastWord init (ops ++ [.load w]) = w := by
  simp [lastWord, Operation.word?]

theorem bitsSince_append_shift (ops : List Operation) (b : Bool) :
    bitsSince (ops ++ [.shift b]) = bitsSince ops ++ [b] := by
  rw [bitsSince, List.rtakeWhile_concat_pos _ _ _ rfl, List.filterMap_append]
  rfl

theorem bitsSince_append_load (ops : List Operation) (w : Word) :
    bitsSince (ops ++ [.load w]) = [] := by
  rw [bitsSince, List.rtakeWhile_concat_neg _ _ _ Bool.false_ne_true]
  rfl

/-- Of a run nothing is left but the last load and the shifts behind it. -/
theorem run_ofWord (init : Word) (ops : List Operation) :
    (ofWord init : ShiftRegister width).run ops =
      (ofWord (lastWord init ops)).shiftAll (bitsSince ops) := by
  -- From the end: a shift leaves the last load where it is, a load leaves nothing before it.
  induction ops using List.reverseRecOn with
  | nil => rfl
  | append_singleton ops op ih =>
      rw [run_append_singleton, ih]
      cases op with
      | shift b =>
          rw [lastWord_append_shift, bitsSince_append_shift, shiftAll_append]
          rfl
      | load w =>
          rw [lastWord_append_load, bitsSince_append_load]
          rfl

theorem value_run_ofWord (init : Word) (ops : List Operation) :
    ((ofWord init : ShiftRegister width).run ops).value =
      ((lastWord init ops).toNat * 2 ^ (bitsSince ops).length + Bits.value (bitsSince ops)) %
        2 ^ width := by
  rw [run_ofWord, value_shiftAll, value_ofWord, Nat.add_mod, Nat.mod_mul_mod, ← Nat.add_mod]

theorem msbFirst_run_ofWord (init : Word) {ops : List Operation}
    (h : width ≤ (bitsSince ops).length) :
    Bits.msbFirst ((ofWord init : ShiftRegister width).run ops).bits =
      (bitsSince ops).drop ((bitsSince ops).length - width) := by
  rw [run_ofWord, msbFirst_shiftAll_of_width_le _ h]

end ShiftRegister

namespace PackedRegister

open ShiftRegister (Operation)

variable {width : ℕ}

def execute (x : PackedRegister width) : Operation → PackedRegister width
  | .shift b => x.shift b
  | .load w => x.load w

def run (x : PackedRegister width) (ops : List Operation) : PackedRegister width :=
  ops.foldl execute x

end PackedRegister

namespace ShiftRegister

variable {width : ℕ}

theorem pack_execute (h : width ≤ 64) (r : ShiftRegister width) (op : Operation) :
    (r.execute op).pack = r.pack.execute op := by
  cases op with
  | shift b => exact pack_shift h r b
  | load w => exact pack_load h r w

theorem pack_run (h : width ≤ 64) (r : ShiftRegister width) (ops : List Operation) :
    (r.run ops).pack = r.pack.run ops := by
  induction ops generalizing r with
  | nil => rfl
  | cons op ops ih => exact (ih (r.execute op)).trans (congrArg (·.run ops) (pack_execute h r op))

/-- After any operations on a register of a width that fits a word, its number is the last word with
the bits since written behind it, cut down to the width, and its high end is the highest place of
this number. Once as many bits have come in as the register is wide, nothing of the word is left.
A register in a machine word holds the same. -/
theorem run_appends_bits_to_word (hpos : 0 < width) (hle : width ≤ 64) (init : Word)
    (ops : List Operation) :
    let r : ShiftRegister width := (ofWord init).run ops
    let x : PackedRegister width := (PackedRegister.ofWord init).run ops
    let w := lastWord init ops
    let bits := bitsSince ops
    (x.value = r.value ∧ x.msb = r.msb) ∧
    r.value < 2 ^ width ∧
    r.value = (w.toNat * 2 ^ bits.length + Bits.value bits) % 2 ^ width ∧
    r.msb = r.value.testBit (width - 1) ∧
    (width ≤ bits.length →
      r.value = Bits.value (bits.drop (bits.length - width)) ∧
      bits[bits.length - 1 - (width - 1)]? = some r.msb) := by
  intro r x w bits
  have hpack : r.pack = x := by rw [pack_run hle, pack_ofWord hle]
  refine ⟨⟨?_, ?_⟩, r.value_lt, value_run_ofWord init ops, r.msb_eq_testBit, ?_⟩
  · rw [← hpack, value_pack hle]
  · rw [← hpack, msb_pack hle]
  · intro hlong
    have hwindow : Bits.msbFirst r.bits = bits.drop (bits.length - width) :=
      msbFirst_run_ofWord init hlong
    constructor
    · rw [← hwindow, Bits.value_msbFirst, value]
    · -- The window begins with the bit that came in `width - 1` shifts before the latest one.
      have hfirst : bits.length - 1 - (width - 1) = bits.length - width := by omega
      rw [← head?_msbFirst hpos r, hwindow, List.head?_drop, hfirst]

/-- A register of three places, of the load in the middle and the four bits behind it. -/
theorem run_appends_bits_to_word_three_places :
    let ops : List Operation :=
      [.shift true, .load 0b101, .shift true, .shift false, .shift false, .shift true]
    let r : ShiftRegister 3 := (ofWord 0xff).run ops
    (0 < 3 ∧ 3 ≤ 64 ∧ 3 ≤ (bitsSince ops).length) ∧
    r.value = (0b101 * 2 ^ 4 + 0b1001) % 2 ^ 3 ∧
    r.value = Bits.value [false, false, true] ∧ r.msb = false := by
  intro ops r
  have hpos : 0 < 3 := by decide
  have hle : 3 ≤ 64 := by decide
  have hlong : 3 ≤ (bitsSince ops).length := by decide
  obtain ⟨-, -, hvalue, -, hlast⟩ := run_appends_bits_to_word hpos hle 0xff ops
  obtain ⟨hwindow, hfirst⟩ := hlast hlong
  have hmsb : some false = some r.msb := hfirst
  exact ⟨⟨hpos, hle, hlong⟩, hvalue, hwindow, (Option.some.inj hmsb).symm⟩

/-- A word that is all register has no place for the bit that a shift pushes out. -/
example : ((PackedRegister.ofWord (BitVec.allOnes 64) : PackedRegister 64).run
    [.shift false]).value = 2 ^ 64 - 2 := by decide

end ShiftRegister

end LutFixture
