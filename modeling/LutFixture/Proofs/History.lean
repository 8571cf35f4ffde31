import LutFixture.Proofs.ShiftRegister
import LutFixture.Registers
import Mathlib.Order.Bounds.Defs

/-!
# The registers as functions of the serial history

Number the bits on the serial input from one, edge by edge, and continue the numbering downwards
into the past: bits `0` to `-5` are what the input register held at the start, from its low end.
`Registers.serialBit` is that line of bits and `Registers.window` the number that its last six
bits write. All three registers are read off this line and the strobes: the input register is the
current window, the latched pattern the window at the last strobe, and the output register holds
the bit sent six edges before, or the block's response where the edge was a strobe.
-/

open Finset

namespace LutFixture

namespace Registers

/-- Bit number `t` of the serial line: the first edge carries bit `1`, and the bits up to `0` are
those of the input register before it, bit `0` at the low end. -/
def serialBit (r : Registers) (edges : List Edge) (t : ℤ) : Bool :=
  if 0 < t then ((edges[t.toNat - 1]?).map Edge.serialIn).getD false
  else r.input.bits.getLsbD (-t).toNat

/-- The number that the last six bits up to bit `t` write, bit `t` being the least one. -/
def window (r : Registers) (edges : List Edge) (t : ℕ) : ℕ :=
  ∑ j ∈ range 6, (r.serialBit edges (t - j)).toNat * 2 ^ j

/-- The numbers of the strobe edges, the first edge having number one. -/
def strobeTimes (edges : List Edge) : Set ℕ :=
  {t | 0 < t ∧ ∃ e, edges[t - 1]? = some e ∧ e.strobe = true}

variable {f : Block} {r : Registers} {edges : List Edge}

theorem serialBit_take {t : ℤ} {k : ℕ} (h : t ≤ k) :
    r.serialBit (edges.take k) t = r.serialBit edges t := by
  unfold serialBit
  by_cases ht : 0 < t
  · rw [if_pos ht, if_pos ht, List.getElem?_take_of_lt (by omega)]
  · rw [if_neg ht, if_neg ht]

theorem window_take {t k : ℕ} (h : t ≤ k) :
    r.window (edges.take k) t = r.window edges t := by
  apply sum_congr rfl
  intro j _
  rw [serialBit_take (by omega)]

/-! ### The input register -/

theorem input_run (f : Block) (r : Registers) (edges : List Edge) :
    (r.run f edges).input = r.input.shiftAll (edges.map Edge.serialIn) := by
  induction edges generalizing r with
  | nil => rfl
  | cons e es ih => rw [run_cons, ih, input_next, List.map_cons, ShiftRegister.shiftAll_cons]

/-- The bits of the serial line in order, from the oldest one that the registers know. -/
theorem getElem_serialLine (r : Registers) (edges : List Edge) {i : ℕ}
    (h : i < (Bits.msbFirst r.input.bits ++ edges.map Edge.serialIn).length) :
    (Bits.msbFirst r.input.bits ++ edges.map Edge.serialIn)[i] = r.serialBit edges (i - 5) := by
  have hlen : (Bits.msbFirst r.input.bits).length = 6 := Bits.length_msbFirst _
  rw [List.length_append, hlen, List.length_map] at h
  rw [List.getElem_append, serialBit]
  by_cases hi : i < 6
  · rw [dif_pos (by rwa [hlen]), if_neg (by omega), Bits.getElem_msbFirst,
      BitVec.getMsbD_eq_getLsbD, show (-((i : ℤ) - 5)).toNat = 6 - 1 - i by omega]
    simp [hi]
  · have hget : edges[((i : ℤ) - 5).toNat - 1]? = some edges[i - 6] := by
      rw [show ((i : ℤ) - 5).toNat - 1 = i - 6 by omega]
      exact List.getElem?_eq_getElem (by omega)
    rw [dif_neg (by rwa [hlen]), if_pos (by omega), hget, List.getElem_map]
    simp

theorem getLsbD_input_run (f : Block) (r : Registers) (edges : List Edge) {j : ℕ} (hj : j < 6) :
    (r.run f edges).input.bits.getLsbD j = r.serialBit edges (edges.length - j) := by
  have hlen : 5 - j < (Bits.msbFirst (r.run f edges).input.bits).length := by
    rw [Bits.length_msbFirst]
    exact Nat.lt_succ_of_le (Nat.sub_le 5 j)
  -- Bit `j` from the low end is the place `5 - j` of the window, which begins at the high end.
  have hmsb : (r.run f edges).input.bits.getLsbD j =
      (Bits.msbFirst (r.run f edges).input.bits)[5 - j] := by
    rw [Bits.getElem_msbFirst, BitVec.getLsbD_eq_getMsbD, show 6 - 1 - j = 5 - j by omega,
      decide_eq_true hj, Bool.true_and]
  rw [hmsb]
  simp only [input_run, ShiftRegister.msbFirst_shiftAll, List.getElem_drop,
    getElem_serialLine, List.length_map]
  congr 1
  omega

theorem value_input_run (f : Block) (r : Registers) (edges : List Edge) :
    (r.run f edges).input.value = r.window edges edges.length := by
  rw [ShiftRegister.value, Bits.toNat_eq_sum]
  apply sum_congr rfl
  intro j hj
  rw [getLsbD_input_run f r edges (mem_range.1 hj)]

theorem msb_input_run (f : Block) (r : Registers) (edges : List Edge) :
    (r.run f edges).input.msb = r.serialBit edges (edges.length - 5) := by
  rw [ShiftRegister.msb, BitVec.msb_eq_getLsbD_last]
  have hfive : 5 < 6 := by decide
  exact getLsbD_input_run f r edges hfive

/-! ### The latched pattern -/

theorem latched_run_of_noStrobe (h : ∀ e ∈ edges, e.strobe = false) :
    (r.run f edges).latched = r.latched := by
  induction edges generalizing r with
  | nil => rfl
  | cons e es ih =>
      rw [run_cons, ih fun x hx => h x (List.mem_cons_of_mem e hx), latched_next,
        h e List.mem_cons_self]
      simp

theorem strobeTimes_eq_empty_iff :
    strobeTimes edges = ∅ ↔ ∀ e ∈ edges, e.strobe = false := by
  rw [Set.eq_empty_iff_forall_notMem]
  constructor
  · intro h e he
    obtain ⟨i, hi, rfl⟩ := List.mem_iff_getElem.1 he
    have hi' : edges[i + 1 - 1]? = some edges[i] := List.getElem?_eq_getElem hi
    by_contra hne
    exact h (i + 1) ⟨Nat.succ_pos i, edges[i], hi', by simpa using hne⟩
  · rintro h t ⟨-, e, he, hs⟩
    rw [h e (List.mem_of_getElem? he)] at hs
    exact Bool.false_ne_true hs

/-- The edges behind the last strobe leave alone what it latched. -/
theorem latched_run_of_isGreatest {m : ℕ} (hm : IsGreatest (strobeTimes edges) m) :
    (r.run f edges).latched = (r.run f (edges.take m)).input.bits := by
  obtain ⟨⟨hpos, e, he, hs⟩, hlast⟩ := hm
  have htake : edges.take m = edges.take (m - 1) ++ [e] := by
    rw [show m = m - 1 + 1 by omega, List.take_add_one, he]
    simp
  have hrest : ∀ x ∈ edges.drop m, x.strobe = false := by
    intro x hx
    obtain ⟨i, hi, rfl⟩ := List.mem_iff_getElem.1 hx
    rw [List.length_drop] at hi
    rw [List.getElem_drop]
    by_contra hne
    have hget : edges[m + i + 1 - 1]? = some edges[m + i] := List.getElem?_eq_getElem (by omega)
    have hle := hlast ⟨Nat.succ_pos (m + i), edges[m + i], hget, by simpa using hne⟩
    omega
  calc
    (r.run f edges).latched = ((r.run f (edges.take m)).run f (edges.drop m)).latched := by
      rw [← run_append, List.take_append_drop]
    _ = (r.run f (edges.take m)).latched := latched_run_of_noStrobe hrest
    _ = (r.run f (edges.take m)).input.bits := by
      rw [htake, run_append, run_cons, run_nil, latched_next, if_pos hs]

/-- A strobe latches the window that ends with its own bit. -/
theorem latched_run_append_of_strobe (f : Block) (r : Registers) (edges : List Edge) {e : Edge}
    (h : e.strobe = true) :
    (r.run f (edges ++ [e])).latched.toNat = r.window (edges ++ [e]) (edges.length + 1) := by
  have hlength : (edges ++ [e]).length = edges.length + 1 := by
    rw [List.length_append, List.length_singleton]
  rw [← hlength, ← value_input_run f, run_append, run_cons, run_nil, latched_next, if_pos h]
  rfl

theorem latched_run_append_of_not_strobe (f : Block) (r : Registers) (edges : List Edge)
    {e : Edge} (h : ¬ e.strobe = true) :
    (r.run f (edges ++ [e])).latched = (r.run f edges).latched := by
  rw [run_append, run_cons, run_nil, latched_next, if_neg h]

/-! ### The output register -/

theorem getElem_outputs (f : Block) (r : Registers) (edges : List Edge) {t : ℕ}
    (h : t < (r.outputs f edges).length) :
    (r.outputs f edges)[t] = (r.run f (edges.take (t + 1))).serialOut := by
  induction edges generalizing r t with
  | nil => simp [outputs] at h
  | cons e es ih =>
      cases t with
      | zero => simp [outputs]
      | succ t => simp [outputs, ih]

/-- The output register has one place, so it is its own oldest bit. -/
theorem bits_output (r : Registers) : r.output.bits = BitVec.ofBool r.serialOut := by
  apply BitVec.eq_of_getLsbD_eq
  intro i hi
  obtain rfl : i = 0 := Nat.lt_one_iff.1 hi
  simp [serialOut, ShiftRegister.msb, BitVec.msb_eq_getLsbD_last]

theorem serialOut_run_take (f : Block) (r : Registers) (edges : List Edge) {t : ℕ}
    (h : t < edges.length) :
    (r.run f (edges.take (t + 1))).serialOut =
      if edges[t].strobe then f (r.run f (edges.take t)).latched
      else r.serialBit edges (t + 1 - 6) := by
  have hlen : (edges.take t).length = t := by rw [List.length_take]; omega
  rw [List.take_add_one, List.getElem?_eq_getElem h, Option.toList_some, run_append, run_cons,
    run_nil, serialOut_next, msb_input_run, hlen, serialBit_take (by omega)]
  congr 2
  omega

/-- Without a strobe the fixture is a delay line: it hands out what the input register held and
then what came in. -/
theorem outputs_of_noStrobe (f : Block) (r : Registers)
    (h : ∀ e ∈ edges, e.strobe = false) :
    r.outputs f edges =
      (Bits.msbFirst r.input.bits ++ edges.map Edge.serialIn).take edges.length := by
  apply List.ext_getElem
  · simp
  · intro t ht _
    have ht' : t < edges.length := by rwa [length_outputs] at ht
    rw [getElem_outputs, serialOut_run_take f r edges ht', h _ (List.getElem_mem ht'),
      List.getElem_take, getElem_serialLine, if_neg Bool.false_ne_true]
    congr 1
    omega

/-- The registers after a run, the bit on the serial output after each of its edges, and the echo
from power-on, all read off the serial history. -/
theorem run_follows_history (f : Block) (r : Registers) (edges : List Edge) :
    (r.run f edges).input.value = r.window edges edges.length ∧
    (∀ m, IsGreatest (strobeTimes edges) m →
      (r.run f edges).latched.toNat = r.window edges m) ∧
    (strobeTimes edges = ∅ → (r.run f edges).latched = r.latched) ∧
    (∀ (t : ℕ) (h : t < edges.length),
      let bit := if edges[t].strobe then f (r.run f (edges.take t)).latched
        else r.serialBit edges (t + 1 - 6)
      (r.outputs f edges)[t]? = some bit ∧
        (r.run f (edges.take (t + 1))).output.bits = BitVec.ofBool bit) ∧
    (∀ t ≤ 0, reset.serialBit edges t = false) ∧
    (strobeTimes edges = ∅ → reset.outputs f edges =
      (List.replicate 6 false ++ edges.map Edge.serialIn).take edges.length) := by
  refine ⟨value_input_run f r edges, ?_, ?_, ?_, ?_, ?_⟩
  · intro m hm
    obtain ⟨-, e, he, -⟩ := hm.1
    have hle : m ≤ edges.length := by
      have hlt := (List.getElem?_eq_some_iff.1 he).1
      omega
    have hlen : (edges.take m).length = m := by rw [List.length_take]; omega
    have hvalue := value_input_run f r (edges.take m)
    rw [hlen, window_take le_rfl] at hvalue
    rw [latched_run_of_isGreatest hm]
    exact hvalue
  · intro h
    exact latched_run_of_noStrobe (strobeTimes_eq_empty_iff.1 h)
  · intro t h
    have hbit := serialOut_run_take f r edges h
    have hlt : t < (r.outputs f edges).length := by rwa [length_outputs]
    constructor
    · rw [List.getElem?_eq_getElem hlt, getElem_outputs, hbit]
    · rw [bits_output, hbit]
  · intro t ht
    rw [serialBit, if_neg (by omega)]
    exact BitVec.getLsbD_zero
  · intro h
    exact outputs_of_noStrobe f reset (strobeTimes_eq_empty_iff.1 h)

/-- A one is latched by the first of two edges, of which only this one is a strobe. -/
theorem run_follows_history_single_strobe :
    IsGreatest (strobeTimes [⟨true, true⟩, ⟨false, false⟩]) 1 ∧
    (reset.run (fun _ => true) [⟨true, true⟩, ⟨false, false⟩]).latched.toNat =
      reset.window [⟨true, true⟩, ⟨false, false⟩] 1 := by
  have hgreatest : IsGreatest (strobeTimes [⟨true, true⟩, ⟨false, false⟩]) 1 := by
    constructor
    · exact ⟨Nat.one_pos, ⟨true, true⟩, rfl, rfl⟩
    · rintro t ⟨-, e, he, hs⟩
      match t, he with
      | 0, _ => exact Nat.zero_le 1
      | 1, _ => exact le_rfl
      | 2, he =>
          obtain rfl : (⟨false, false⟩ : Edge) = e := Option.some.inj he
          exact absurd hs Bool.false_ne_true
      | t + 3, he => cases he
  exact ⟨hgreatest, (run_follows_history (fun _ => true) reset _).2.1 1 hgreatest⟩

end Registers

end LutFixture
