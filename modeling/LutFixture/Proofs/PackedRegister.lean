import LutFixture.Proofs.ShiftRegister

/-!
# Shift registers in a machine word

A register of at most 64 places fits into the low places of a word. `PackedRegister` keeps it
there: an operation works on the whole word, and a mask then clears what lies above the register.
The type itself does not say that these places are clear. It is a fact about the words that the
operations lead to, and they lead to all such words (`PackedRegister.obtained_iff_value_lt`).

`ShiftRegister.pack` puts a register into a word. Its number and its highest bit stay the same, and
a load or a shift may be done before or after.
-/

namespace LutFixture

/-- A register of the given width in the low places of a word. -/
structure PackedRegister (width : ℕ) where
  /-- The whole word. -/
  word : Word := 0
deriving DecidableEq, Repr

namespace PackedRegister

variable {width : ℕ}

/-- The word with ones at the places of the register. If the register is all of the word, the power
of two above it does not fit. -/
def mask (width : ℕ) : Word := if 64 ≤ width then BitVec.allOnes 64 else (1#64 <<< width) - 1#64

/-- The register that holds the low bits of a word. -/
def ofWord (w : Word) : PackedRegister width := ⟨w &&& mask width⟩

/-- A shift: all of the word moves up and the bit enters at the low end. -/
def shift (x : PackedRegister width) (b : Bool) : PackedRegister width :=
  ⟨((x.word <<< 1) ||| (BitVec.ofBool b).setWidth 64) &&& mask width⟩

def load (_ : PackedRegister width) (w : Word) : PackedRegister width := ofWord w

def value (x : PackedRegister width) : ℕ := x.word.toNat

/-- The bit at the high end of the register, brought down to the low end of the word. -/
def msb (x : PackedRegister width) : Bool := (x.word >>> (width - 1)) &&& 1#64 != 0#64

/-- The number in base two. Zeros in front bring it up to the width of the register; a number that
has more digits keeps them all. -/
def digits (x : PackedRegister width) : List Char :=
  let significant := Nat.toDigits 2 x.value
  List.replicate (width - significant.length) '0' ++ significant

/-- A register as its width and its digits. -/
def text (x : PackedRegister width) : String :=
  "ShiftRegister<" ++ toString width ++ ">(" ++ String.ofList x.digits ++ ")"

/-- The registers that the operations lead to. -/
inductive Obtained : PackedRegister width → Prop where
  | empty : Obtained {}
  | ofWord (w : Word) : Obtained (PackedRegister.ofWord w)
  | shift {x : PackedRegister width} (h : Obtained x) (b : Bool) : Obtained (x.shift b)
  | load {x : PackedRegister width} (h : Obtained x) (w : Word) : Obtained (x.load w)

@[simp] theorem load_eq_ofWord (x : PackedRegister width) (w : Word) : x.load w = ofWord w := rfl

theorem eq_of_value_eq {x y : PackedRegister width} (h : x.value = y.value) : x = y :=
  congrArg PackedRegister.mk (BitVec.eq_of_toNat_eq h)

/-! ### The mask -/

theorem toNat_mask (h : width ≤ 64) : (mask width).toNat = 2 ^ width - 1 := by
  rw [mask]
  rcases h.eq_or_lt with rfl | hlt
  · rw [if_pos le_rfl, BitVec.toNat_allOnes]
  · have hone : (1#64 <<< width).toNat = 2 ^ width := by
      have hfits : 2 ^ width < 2 ^ 64 := Nat.pow_lt_pow_right one_lt_two hlt
      rw [BitVec.toNat_shiftLeft, Nat.shiftLeft_eq, show (1#64).toNat = 1 from rfl, one_mul,
        Nat.mod_eq_of_lt hfits]
    rw [if_neg hlt.not_ge, BitVec.toNat_sub_of_le, hone]
    · rfl
    · rw [BitVec.le_def, hone]
      exact Nat.one_le_two_pow

/-- The mask cuts a word down to its low bits. -/
theorem toNat_and_mask (h : width ≤ 64) (w : Word) :
    (w &&& mask width).toNat = w.toNat % 2 ^ width := by
  rw [BitVec.toNat_and, toNat_mask h, Nat.and_two_pow_sub_one_eq_mod]

theorem value_ofWord (h : width ≤ 64) (w : Word) :
    (ofWord w : PackedRegister width).value = w.toNat % 2 ^ width :=
  toNat_and_mask h w

/-- The bit that falls out of the word at its high end is above the register. -/
theorem value_shift (h : width ≤ 64) (x : PackedRegister width) (b : Bool) :
    (x.shift b).value = (2 * x.value + b.toNat) % 2 ^ width := by
  have hbit : ((BitVec.ofBool b).setWidth 64).toNat = b.toNat := by cases b <;> rfl
  have hfree : b.toNat < 2 ^ 1 := b.toNat_lt
  calc
    (x.shift b).value = (x.value <<< 1 % 2 ^ 64 ||| b.toNat) % 2 ^ width := by
      rw [value, shift, toNat_and_mask h, BitVec.toNat_or, BitVec.toNat_shiftLeft, hbit, value]
    _ = (x.value <<< 1 ||| b.toNat) % 2 ^ width := by
      rw [Nat.or_mod_two_pow, Nat.mod_mod_of_dvd _ (pow_dvd_pow 2 h), ← Nat.or_mod_two_pow]
    _ = (2 * x.value + b.toNat) % 2 ^ width := by
      rw [← Nat.shiftLeft_add_eq_or_of_lt hfree, Nat.shiftLeft_eq, pow_one, Nat.mul_comm]

theorem msb_eq_testBit (x : PackedRegister width) : x.msb = x.value.testBit (width - 1) := by
  rw [msb, value, Nat.testBit, Bool.eq_iff_iff, bne_iff_ne, bne_iff_ne, ← BitVec.toNat_ne_iff_ne,
    BitVec.toNat_and, BitVec.toNat_ushiftRight, Nat.and_comm]
  rfl

/-! ### The words that are obtained -/

theorem Obtained.value_lt (h : width ≤ 64) {x : PackedRegister width} (hx : x.Obtained) :
    x.value < 2 ^ width := by
  have hpos : 0 < 2 ^ width := Nat.two_pow_pos width
  -- The mask comes last in every operation, so it does not matter what was obtained before.
  cases hx with
  | empty => exact hpos
  | ofWord w =>
      rw [value_ofWord h]
      exact Nat.mod_lt _ hpos
  | shift hx b =>
      rw [value_shift h]
      exact Nat.mod_lt _ hpos
  | load hx w =>
      rw [load_eq_ofWord, value_ofWord h]
      exact Nat.mod_lt _ hpos

theorem obtained_iff_value_lt (h : width ≤ 64) {x : PackedRegister width} :
    x.Obtained ↔ x.value < 2 ^ width := by
  constructor
  · exact Obtained.value_lt h
  · intro hlt
    have hload : ofWord x.word = x := by
      apply eq_of_value_eq
      rw [value_ofWord h]
      exact Nat.mod_eq_of_lt hlt
    rw [← hload]
    exact Obtained.ofWord x.word

end PackedRegister

namespace ShiftRegister

variable {width : ℕ}

/-- The register in the low places of a word, with zeros above it. -/
def pack (r : ShiftRegister width) : PackedRegister width := ⟨r.bits.setWidth 64⟩

theorem value_pack (h : width ≤ 64) (r : ShiftRegister width) : r.pack.value = r.value := by
  rw [pack, PackedRegister.value, BitVec.toNat_setWidth_of_le h, value]

theorem msb_pack (h : width ≤ 64) (r : ShiftRegister width) : r.pack.msb = r.msb := by
  rw [PackedRegister.msb_eq_testBit, value_pack h, msb_eq_testBit]

theorem pack_ofWord (h : width ≤ 64) (w : Word) :
    (ofWord w : ShiftRegister width).pack = PackedRegister.ofWord w := by
  apply PackedRegister.eq_of_value_eq
  rw [value_pack h, PackedRegister.value_ofWord h, value_ofWord]

theorem pack_shift (h : width ≤ 64) (r : ShiftRegister width) (b : Bool) :
    (r.shift b).pack = r.pack.shift b := by
  apply PackedRegister.eq_of_value_eq
  rw [value_pack h, PackedRegister.value_shift h, value_pack h, value_shift]

theorem pack_load (h : width ≤ 64) (r : ShiftRegister width) (w : Word) :
    (r.load w).pack = r.pack.load w := by
  rw [load_eq_ofWord, pack_ofWord h, PackedRegister.load_eq_ofWord]

/-- The words that are obtained are those into which a register is packed. -/
theorem exists_pack_eq_iff (h : width ≤ 64) {x : PackedRegister width} :
    (∃ r : ShiftRegister width, r.pack = x) ↔ x.Obtained := by
  rw [PackedRegister.obtained_iff_value_lt h]
  constructor
  · rintro ⟨r, rfl⟩
    rw [value_pack h]
    exact r.value_lt
  · intro hlt
    refine ⟨⟨BitVec.ofNatLT x.value hlt⟩, PackedRegister.eq_of_value_eq ?_⟩
    rw [value_pack h, value, BitVec.toNat_ofNatLT]

end ShiftRegister

end LutFixture
