import LutFixture.ShiftRegister
import Mathlib.Algebra.BigOperators.Group.Finset.Basic
import Mathlib.Tactic.Ring

/-!
# A shift register as a window

Read most significant bit first, a register of width `w` is a window on the bits that have been
sent through it: the last `w` of what it held at the start followed by all bits since. One shift
moves the window on by one place, `ShiftRegister.shiftAll` by as many places as there are bits.
So a register that has taken as many bits as it is wide holds exactly these, whatever it held.

As a number, the register holds what the whole line writes in base two, as far as the width goes
(`ShiftRegister.value_shiftAll`).
-/

open Finset

namespace LutFixture

namespace Bits

variable {width : Nat}

@[simp] theorem getElem_msbFirst (x : BitVec width) {i : Nat}
    (h : i < (msbFirst x).length) : (msbFirst x)[i] = x.getMsbD i := by
  simp [msbFirst]

theorem msbFirst_injective :
    Function.Injective (msbFirst : BitVec width → List Bool) := by
  intro x y h
  apply BitVec.eq_of_getMsbD_eq
  intro i hi
  have hx : i < (msbFirst x).length := by rwa [length_msbFirst]
  have hy : i < (msbFirst y).length := by rwa [length_msbFirst]
  rw [← getElem_msbFirst x hx, ← getElem_msbFirst y hy]
  simp only [h]

/-- A word is the sum of the powers of two at which it has a one. -/
theorem toNat_eq_sum (x : BitVec width) :
    x.toNat = ∑ j ∈ range width, (x.getLsbD j).toNat * 2 ^ j := by
  -- The partial sums are the remainders modulo the powers of two.
  have hmod : ∀ k, ∑ j ∈ range k, (x.getLsbD j).toNat * 2 ^ j = x.toNat % 2 ^ k := by
    intro k
    induction k with
    | zero => simp [Nat.mod_one]
    | succ k ih =>
        rw [sum_range_succ, ih, pow_succ, Nat.mod_mul, BitVec.getLsbD,
          Nat.toNat_testBit]
        ring
  rw [hmod, Nat.mod_eq_of_lt x.isLt]

@[simp] theorem value_nil : value [] = 0 := rfl

theorem value_append_singleton (bits : List Bool) (b : Bool) :
    value (bits ++ [b]) = 2 * value bits + b.toNat := by
  rw [value, List.foldl_append]
  rfl

theorem value_lt (bits : List Bool) : value bits < 2 ^ bits.length := by
  induction bits using List.reverseRecOn with
  | nil => exact Nat.one_pos
  | append_singleton bits b ih =>
      have hb := b.toNat_lt
      rw [value_append_singleton, List.length_append, List.length_singleton, pow_succ]
      omega

end Bits

namespace ShiftRegister

variable {width : Nat}

@[simp] theorem value_ofWord (w : Word) :
    (ofWord w : ShiftRegister width).value = w.toNat % 2 ^ width := by
  simp [ofWord, value]

theorem value_lt (r : ShiftRegister width) : r.value < 2 ^ width := r.bits.isLt

theorem eq_of_value_eq {r s : ShiftRegister width} (h : r.value = s.value) : r = s :=
  congrArg ShiftRegister.mk (BitVec.eq_of_toNat_eq h)

theorem msb_eq_testBit (r : ShiftRegister width) : r.msb = r.value.testBit (width - 1) := by
  rw [msb, BitVec.msb_eq_getLsbD_last, BitVec.getLsbD, value]

/-- The bit at the high end is the first one in serial order. -/
theorem head?_msbFirst (h : 0 < width) (r : ShiftRegister width) :
    (Bits.msbFirst r.bits).head? = some r.msb := by
  have hlt : 0 < (Bits.msbFirst r.bits).length := by rwa [Bits.length_msbFirst]
  rw [List.head?_eq_getElem?, List.getElem?_eq_getElem hlt, Bits.getElem_msbFirst]
  rfl

theorem value_shift (r : ShiftRegister width) (b : Bool) :
    (r.shift b).value = (2 * r.value + b.toNat) % 2 ^ width := by
  simp [shift, value, BitVec.toNat_shiftConcat, Nat.shiftLeft_eq, Nat.mul_comm]

/-- One shift after another. -/
def shiftAll (r : ShiftRegister width) (bits : List Bool) : ShiftRegister width :=
  bits.foldl shift r

@[simp] theorem shiftAll_nil (r : ShiftRegister width) : r.shiftAll [] = r := rfl

@[simp] theorem shiftAll_cons (r : ShiftRegister width) (b : Bool) (bits : List Bool) :
    r.shiftAll (b :: bits) = (r.shift b).shiftAll bits := rfl

theorem getMsbD_shift (r : ShiftRegister width) (b : Bool) {i : Nat} (hi : i < width) :
    (r.shift b).bits.getMsbD i = if i + 1 < width then r.bits.getMsbD (i + 1) else b := by
  rw [shift, BitVec.getMsbD_eq_getLsbD, BitVec.getLsbD_shiftConcat]
  by_cases hlast : i + 1 < width
  · rw [if_pos hlast, if_neg (by omega), BitVec.getMsbD_eq_getLsbD,
      show width - 1 - i - 1 = width - 1 - (i + 1) by omega]
    simp [hi, hlast, show width - 1 - i < width by omega]
  · rw [if_neg hlast, if_pos (by omega)]
    simp [hi, show width - 1 - i < width by omega]

theorem shiftAll_append (r : ShiftRegister width) (a c : List Bool) :
    r.shiftAll (a ++ c) = (r.shiftAll a).shiftAll c := by
  rw [shiftAll, List.foldl_append]
  rfl

/-- One shift moves the window on by one place. -/
theorem msbFirst_shift (r : ShiftRegister width) (b : Bool) :
    Bits.msbFirst (r.shift b).bits = (Bits.msbFirst r.bits ++ [b]).drop 1 := by
  apply List.ext_getElem
  · simp
  · intro i hi _
    rw [Bits.length_msbFirst] at hi
    rw [Bits.getElem_msbFirst, getMsbD_shift r b hi, List.getElem_drop, List.getElem_append]
    simp [Nat.add_comm 1 i]

/-- The register is the window of the last `width` bits of what it held and what came after. -/
theorem msbFirst_shiftAll (r : ShiftRegister width) (bits : List Bool) :
    Bits.msbFirst (r.shiftAll bits).bits = (Bits.msbFirst r.bits ++ bits).drop bits.length := by
  induction bits generalizing r with
  | nil => simp
  | cons b bits ih =>
      rw [shiftAll_cons, ih, msbFirst_shift, ← List.drop_append_of_le_length (by simp),
        List.drop_drop, List.append_assoc, List.singleton_append, List.length_cons,
        Nat.add_comm]

/-- A register that takes the bits of a word, as many as it is wide, holds that word. -/
theorem bits_shiftAll_msbFirst (r : ShiftRegister width) (x : BitVec width) :
    (r.shiftAll (Bits.msbFirst x)).bits = x := by
  apply Bits.msbFirst_injective
  rw [msbFirst_shiftAll, Bits.length_msbFirst]
  exact List.drop_left' (Bits.length_msbFirst r.bits)

/-- Nothing is left of the old contents once as many bits have come in as the register is wide. -/
theorem msbFirst_shiftAll_of_width_le (r : ShiftRegister width) {bits : List Bool}
    (h : width ≤ bits.length) :
    Bits.msbFirst (r.shiftAll bits).bits = bits.drop (bits.length - width) := by
  have hgone : (Bits.msbFirst r.bits).drop bits.length = [] := by
    apply List.drop_eq_nil_of_le
    rwa [Bits.length_msbFirst]
  rw [msbFirst_shiftAll, List.drop_append, hgone, Bits.length_msbFirst, List.nil_append]

/-- The old contents move up by the number of new bits, which write the places below. -/
theorem value_shiftAll (r : ShiftRegister width) (bits : List Bool) :
    (r.shiftAll bits).value = (r.value * 2 ^ bits.length + Bits.value bits) % 2 ^ width := by
  induction bits using List.reverseRecOn with
  | nil => simp [Nat.mod_eq_of_lt r.value_lt]
  | append_singleton bits b ih =>
      rw [shiftAll_append, shiftAll_cons, shiftAll_nil, value_shift, ih,
        Bits.value_append_singleton, List.length_append, List.length_singleton, pow_succ]
      calc
        (2 * ((r.value * 2 ^ bits.length + Bits.value bits) % 2 ^ width) + b.toNat) % 2 ^ width =
            (2 * (r.value * 2 ^ bits.length + Bits.value bits) + b.toNat) % 2 ^ width := by
          rw [Nat.add_mod, Nat.mul_mod_mod, ← Nat.add_mod]
        _ = (r.value * (2 ^ bits.length * 2) + (2 * Bits.value bits + b.toNat)) % 2 ^ width := by
          congr 1
          ring

theorem value_shiftAll_of_length_eq (r : ShiftRegister width) {bits : List Bool}
    (h : bits.length = width) : (r.shiftAll bits).value = Bits.value bits := by
  have hlt := Bits.value_lt bits
  rw [h] at hlt
  rw [value_shiftAll, h, Nat.mul_add_mod_of_lt hlt]

end ShiftRegister

/-! ### Base two -/

namespace Bits

variable {width : Nat}

theorem value_msbFirst (x : BitVec width) : value (msbFirst x) = x.toNat := by
  let r : ShiftRegister width := {}
  rw [← r.value_shiftAll_of_length_eq (length_msbFirst x), ShiftRegister.value,
    ShiftRegister.bits_shiftAll_msbFirst]

/-- There is one way to write a number in base two with a given number of digits. -/
theorem eq_msbFirst_of_value_eq {bits : List Bool} {x : BitVec width}
    (hlength : bits.length = width) (hvalue : value bits = x.toNat) : bits = msbFirst x := by
  let r : ShiftRegister width := {}
  have hheld : (r.shiftAll bits).bits = x :=
    BitVec.eq_of_toNat_eq ((r.value_shiftAll_of_length_eq hlength).trans hvalue)
  have hwindow := r.msbFirst_shiftAll_of_width_le hlength.ge
  rw [hheld, hlength, Nat.sub_self, List.drop_zero] at hwindow
  exact hwindow.symm

end Bits

end LutFixture

