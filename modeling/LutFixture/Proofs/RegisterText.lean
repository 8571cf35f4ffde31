import LutFixture.Proofs.RegisterRun

/-!
# The text of a register

Zeros in front of a number bring its digits up to the width of the register, but nothing cuts them
down to it. That there are never more digits than places is a fact about the words that can be
obtained, and with it the digits are the bits of the register in serial order
(`ShiftRegister.digits_pack`). So the text tells the register (`ShowsBits.value_unique`).
-/

namespace LutFixture

namespace Bits

theorem ofDigitChars_map_digit (bits : List Bool) :
    Nat.ofDigitChars 2 (bits.map digit) 0 = value bits := by
  have hdigit : (fun n b => 2 * n + ((digit b).toNat - '0'.toNat)) =
      fun n b => 2 * n + b.toNat := by
    funext n b
    cases b <;> rfl
  rw [Nat.ofDigitChars_eq_foldl, List.foldl_map, value, hdigit]

/-- In base two a number has no digits but zeros and ones. -/
theorem exists_toDigits_eq (n : ℕ) : ∃ bits : List Bool, Nat.toDigits 2 n = bits.map digit := by
  have hlast : ∀ m < 2, Nat.digitChar m = digit (m == 1) := by decide
  induction n using Nat.strong_induction_on with
  | _ n ih =>
      rcases Nat.lt_or_ge n 2 with hn | hn
      · exact ⟨[n == 1], by rw [Nat.toDigits_of_lt_base hn, hlast n hn, List.map_singleton]⟩
      · obtain ⟨bits, hbits⟩ := ih (n / 2) (Nat.div_lt_self (by omega) one_lt_two)
        refine ⟨bits ++ [n % 2 == 1], ?_⟩
        rw [Nat.toDigits_of_base_le one_lt_two hn, hbits, hlast _ (Nat.mod_lt n two_pos),
          List.map_append, List.map_singleton]

end Bits

namespace PackedRegister

variable {width : ℕ}

theorem exists_digits_eq (x : PackedRegister width) :
    ∃ bits : List Bool, x.digits = bits.map Bits.digit := by
  obtain ⟨bits, hbits⟩ := Bits.exists_toDigits_eq x.value
  refine ⟨List.replicate (width - bits.length) false ++ bits, ?_⟩
  rw [digits, hbits, List.length_map, List.map_append, List.map_replicate]
  rfl

theorem ofDigitChars_digits (x : PackedRegister width) :
    Nat.ofDigitChars 2 x.digits 0 = x.value := by
  rw [digits, Nat.ofDigitChars_append, Nat.ofDigitChars_replicate_zero, mul_zero,
    Nat.ofDigitChars_toDigits one_lt_two (by decide)]

theorem length_digits (hpos : 0 < width) {x : PackedRegister width} (h : x.value < 2 ^ width) :
    x.digits.length = width := by
  have hfew := (Nat.length_toDigits_le_iff one_lt_two hpos).2 h
  rw [digits, List.length_append, List.length_replicate, Nat.sub_add_cancel hfew]

end PackedRegister

/-- A text shows the bits of a register by as many digits as the register is wide, the first one at
the high end. -/
structure ShowsBits (width : ℕ) (text : String) (value : ℕ) (msb : Bool) (digits : List Char) :
    Prop where
  text_eq : text = "ShiftRegister<" ++ toString width ++ ">(" ++ String.ofList digits ++ ")"
  length_eq : digits.length = width
  eq_zero_or_one : ∀ c ∈ digits, c = '0' ∨ c = '1'
  value_eq : Nat.ofDigitChars 2 digits 0 = value
  head?_eq : digits.head? = some (if msb then '1' else '0')

/-- The digits are read off the text, so the text leaves no choice of the number. -/
theorem ShowsBits.value_unique {width : ℕ} {text : String} {n m : ℕ} {b c : Bool}
    {ds es : List Char} (h : ShowsBits width text n b ds) (h' : ShowsBits width text m c es) :
    n = m := by
  have htext := congrArg String.toList (h.text_eq.symm.trans h'.text_eq)
  simp only [String.toList_append, String.toList_ofList] at htext
  have hdigits : ds = es := List.append_cancel_left (List.append_cancel_right htext)
  rw [← h.value_eq, hdigits, h'.value_eq]

namespace ShiftRegister

variable {width : ℕ}

theorem digits_pack (hpos : 0 < width) (hle : width ≤ 64) (r : ShiftRegister width) :
    r.pack.digits = (Bits.msbFirst r.bits).map Bits.digit := by
  have hvalue : r.pack.value = r.value := value_pack hle r
  obtain ⟨bits, hbits⟩ := r.pack.exists_digits_eq
  have hlength : bits.length = width := by
    rw [← List.length_map (f := Bits.digit), ← hbits]
    exact PackedRegister.length_digits hpos (hvalue ▸ r.value_lt)
  have hnumber : Bits.value bits = r.bits.toNat := by
    rw [← Bits.ofDigitChars_map_digit, ← hbits, PackedRegister.ofDigitChars_digits, hvalue, value]
  rw [hbits, Bits.eq_msbFirst_of_value_eq hlength hnumber]

theorem text_pack (hpos : 0 < width) (hle : width ≤ 64) (r : ShiftRegister width) :
    r.pack.text = r.text := by
  calc
    r.pack.text = "ShiftRegister<" ++ toString width ++ ">(" ++ String.ofList r.pack.digits ++ ")" :=
      rfl
    _ = r.text := by
      rw [digits_pack hpos hle]
      rfl

theorem showsBits_text (hpos : 0 < width) (r : ShiftRegister width) :
    ShowsBits width r.text r.value r.msb ((Bits.msbFirst r.bits).map Bits.digit) where
  text_eq := rfl
  length_eq := by rw [List.length_map, Bits.length_msbFirst]
  eq_zero_or_one := by
    intro c hc
    obtain ⟨b, -, rfl⟩ := List.mem_map.1 hc
    cases b
    · exact .inl rfl
    · exact .inr rfl
  value_eq := by rw [Bits.ofDigitChars_map_digit, Bits.value_msbFirst, value]
  head?_eq := by
    rw [List.head?_map, head?_msbFirst hpos]
    rfl

/-- The text of a register of any width that fits a word has exactly as many digits as the register
has places, and they write its number; so the text tells the register. The same holds of a register
in a machine word, however it was obtained. -/
theorem text_shows_bits (hpos : 0 < width) (hle : width ≤ 64) :
    (∀ r : ShiftRegister width, ∃ digits, ShowsBits width r.text r.value r.msb digits) ∧
    (∀ r s : ShiftRegister width, r.text = s.text → r = s) ∧
    (∀ x : PackedRegister width, x.Obtained →
      (∃ digits, ShowsBits width x.text x.value x.msb digits) ∧
      ∃ r : ShiftRegister width, r.pack = x ∧ r.text = x.text) ∧
    ∀ x y : PackedRegister width, x.Obtained → y.Obtained → x.text = y.text → x = y := by
  have hinjective : ∀ r s : ShiftRegister width, r.text = s.text → r = s := by
    intro r s heq
    have hr := r.showsBits_text hpos
    rw [heq] at hr
    exact eq_of_value_eq (hr.value_unique (s.showsBits_text hpos))
  refine ⟨fun r => ⟨_, r.showsBits_text hpos⟩, hinjective, ?_, ?_⟩
  · intro x hx
    obtain ⟨r, rfl⟩ := (exists_pack_eq_iff hle).2 hx
    rw [text_pack hpos hle, value_pack hle, msb_pack hle]
    exact ⟨⟨_, r.showsBits_text hpos⟩, r, rfl, rfl⟩
  · intro x y hx hy heq
    obtain ⟨r, rfl⟩ := (exists_pack_eq_iff hle).2 hx
    obtain ⟨s, rfl⟩ := (exists_pack_eq_iff hle).2 hy
    rw [text_pack hpos hle, text_pack hpos hle] at heq
    rw [hinjective r s heq]

/-- Five in six places, loaded at once and in two steps. -/
theorem text_shows_bits_leading_zeros :
    let r : ShiftRegister 6 := ofWord 0b101
    let x : PackedRegister 6 := PackedRegister.ofWord 0b101
    let y : PackedRegister 6 := (({} : PackedRegister 6).load 0b10).shift true
    (0 < 6 ∧ 6 ≤ 64 ∧ x.Obtained ∧ y.Obtained ∧ x.text = y.text) ∧
    (r.text = "ShiftRegister<6>(000101)" ∧ r.value = 5 ∧ r.msb = false ∧
      ∃ digits, ShowsBits 6 r.text r.value r.msb digits) ∧
    x = y := by
  intro r x y
  have hpos : 0 < 6 := by decide
  have hle : 6 ≤ 64 := by decide
  have hx : x.Obtained := .ofWord _
  have hy : y.Obtained := .shift (.load .empty _) _
  have hsame : x.text = y.text := by decide
  obtain ⟨hshows, -, -, hinjective⟩ := text_shows_bits hpos hle
  exact ⟨⟨hpos, hle, hx, hy, hsame⟩, ⟨by decide, by decide, by decide, hshows r⟩,
    hinjective x y hx hy hsame⟩

end ShiftRegister

end LutFixture
