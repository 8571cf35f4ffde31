import LutFixture.Json.Skip
import LutFixture.Proofs.Json.Spelling

/-!
# Reading a string back

Whatever spelling a string has, it is read as that string, and passing over it ends at the same
place (`string_of_spelling`, `skip_string_of_spelling`). Both go through the text character by
character, so the work is in one character: an escape by letter, an escape of the only unit, and
the two escapes of a surrogate pair.
-/

namespace LutFixture.Json

variable {c : Char} {d n : Nat} {cs body w rest done : List Char}

/-! ### Hexadecimal digits -/

theorem hexDigit?_digitChar : ∀ d < 16, Text.hexDigit? (Nat.digitChar d) = some d := by decide

theorem hexDigit?_toUpper_digitChar :
    ∀ d < 16, Text.hexDigit? (Nat.digitChar d).toUpper = some d := by decide

theorem HexDigit.hexDigit?_eq (h : HexDigit d c) : Text.hexDigit? c = some d := by
  cases h with
  | lower hd => exact hexDigit?_digitChar d hd
  | upper hd => exact hexDigit?_toUpper_digitChar d hd

theorem utf8Size_digitChar : ∀ d < 16, (Nat.digitChar d).utf8Size = 1 := by decide

theorem utf8Size_toUpper_digitChar : ∀ d < 16, (Nat.digitChar d).toUpper.utf8Size = 1 := by decide

theorem HexDigit.utf8Size_eq (h : HexDigit d c) : c.utf8Size = 1 := by
  cases h with
  | lower hd => exact utf8Size_digitChar d hd
  | upper hd => exact utf8Size_toUpper_digitChar d hd

/-- An escaped unit is read behind its backslash and its letter. -/
theorem UnitEscape.exists_hexQuad_eq (h : UnitEscape n w) :
    ∃ quad, w = '\\' :: 'u' :: quad ∧ ∀ s, hexQuad (quad ++ s) = .ok (n, s) := by
  obtain @⟨a, b, c, d, w, x, y, z, ha, hb, hc, hd⟩ := h
  refine ⟨[w, x, y, z], rfl, ?_⟩
  intro s
  have hcount : byteCount [w, x, y, z] = 4 := by
    simp [byteCount, ha.utf8Size_eq, hb.utf8Size_eq, hc.utf8Size_eq, hd.utf8Size_eq]
  have hvalue : hexValue? [w, x, y, z] = some (0x1000 * a + 0x100 * b + 0x10 * c + d) := by
    simp only [hexValue?, List.foldl_cons, List.foldl_nil, ha.hexDigit?_eq, hb.hexDigit?_eq,
      hc.hexDigit?_eq, hd.hexDigit?_eq, Option.bind_some, Option.map_some]
    congr 1
    omega
  have htake : ([w, x, y, z] ++ s).take 4 = [w, x, y, z] := rfl
  rw [hexQuad, htake, hcount, if_neg (Nat.lt_irrefl 4), hvalue]
  rfl

/-! ### One escape -/

theorem shortEscape?_of_mem : ∀ x ∈ letterEscapes, shortEscape? x.1 = some x.2 := by decide

theorem escape_letter {x : Char} (h : (x, c) ∈ letterEscapes) (s : List Char) :
    escape (x :: s) = .ok (c, s) := by
  rw [escape, shortEscape?_of_mem (x, c) h]

/-- A character outside the surrogates is read from its only unit. -/
theorem codePoint_unit {quad : List Char} (hquad : ∀ s, hexQuad (quad ++ s) = .ok (c.toNat, s))
    (s : List Char) : codePoint (quad ++ s) = .ok (c, s) := by
  have hvalid : c.toNat.isValidChar := c.valid
  have hlow : isLowSurrogate c.toNat = false := by
    rw [isLowSurrogate, Bool.and_eq_false_iff, decide_eq_false_iff_not, decide_eq_false_iff_not]
    rcases hvalid with h | h <;> omega
  have hhigh : isHighSurrogate c.toNat = false := by
    rw [isHighSurrogate, Bool.and_eq_false_iff, decide_eq_false_iff_not, decide_eq_false_iff_not]
    rcases hvalid with h | h <;> omega
  rw [codePoint, hquad]
  simp [hlow, hhigh, Char.ofNat_toNat]

/-- Any other character is read from its two units. -/
theorem codePoint_pair {high low : List Char} (hc : 0x10000 ≤ c.toNat)
    (hhigh : ∀ s, hexQuad (high ++ s) = .ok (0xD800 + (c.toNat - 0x10000) / 0x400, s))
    (hlow : ∀ s, hexQuad (low ++ s) = .ok (0xDC00 + (c.toNat - 0x10000) % 0x400, s))
    (s : List Char) : codePoint (high ++ '\\' :: 'u' :: (low ++ s)) = .ok (c, s) := by
  have hvalid : c.toNat.isValidChar := c.valid
  have hlt : c.toNat < 0x110000 := by
    rcases hvalid with h | h <;> omega
  have hfirst : isLowSurrogate (0xD800 + (c.toNat - 0x10000) / 0x400) = false := by
    rw [isLowSurrogate, Bool.and_eq_false_iff, decide_eq_false_iff_not]
    exact .inl (by omega)
  have hfirst' : isHighSurrogate (0xD800 + (c.toNat - 0x10000) / 0x400) = true := by
    rw [isHighSurrogate, Bool.and_eq_true, decide_eq_true_iff, decide_eq_true_iff]
    omega
  have hsecond : isLowSurrogate (0xDC00 + (c.toNat - 0x10000) % 0x400) = true := by
    rw [isLowSurrogate, Bool.and_eq_true, decide_eq_true_iff, decide_eq_true_iff]
    omega
  have hjoin : ofSurrogates (0xD800 + (c.toNat - 0x10000) / 0x400)
      (0xDC00 + (c.toNat - 0x10000) % 0x400) = c := by
    rw [ofSurrogates, show 0x10000 + (0xD800 + (c.toNat - 0x10000) / 0x400 - 0xD800) * 0x400 +
      (0xDC00 + (c.toNat - 0x10000) % 0x400 - 0xDC00) = c.toNat by omega, Char.ofNat_toNat]
  simp only [codePoint, hhigh, hfirst, hfirst', secondHalf, hlow, hsecond, hjoin, if_true,
    Bool.false_eq_true, if_false]

/-! ### One character -/

theorem stringOnto_quote (done s : List Char) :
    stringOnto done ('"' :: s) = .ok (done.reverse, s) := by
  rw [stringOnto]
  rfl

theorem stringOnto_escape {s : List Char} (h : escape s = .ok (c, rest)) (done : List Char) :
    stringOnto done ('\\' :: s) = stringOnto (c :: done) rest := by
  rw [stringOnto, if_neg (by decide), if_pos rfl]
  split
  · rename_i e he
    rw [h] at he
    cases he
  · rename_i x r hr
    rw [h] at hr
    cases hr
    rfl

theorem stringOnto_plain (hcontrol : 0x20 ≤ c.toNat) (hquote : c ≠ '"') (hback : c ≠ '\\')
    (done s : List Char) : stringOnto done (c :: s) = stringOnto (c :: done) s := by
  rw [stringOnto]
  simp [hquote, hback, isControl, Nat.not_lt.2 hcontrol]

theorem skip_string_quote (s : List Char) : Skip.string ('"' :: s) = .ok s := by
  rw [Skip.string]

theorem skip_string_unit (h : UnitEscape n w) (s : List Char) :
    Skip.string (w ++ s) = Skip.string s := by
  obtain ⟨quad, rfl, hquad⟩ := h.exists_hexQuad_eq
  rw [List.cons_append, List.cons_append, Skip.string]
  split
  · rename_i e he
    rw [hquad] at he
    cases he
  · rename_i m r hr
    rw [hquad] at hr
    cases hr
    rfl

theorem skip_string_units {units : List Nat} {escapes : List (List Char)}
    (h : List.Forall₂ UnitEscape units escapes) (s : List Char) :
    Skip.string (escapes.flatten ++ s) = Skip.string s := by
  induction h with
  | nil => rfl
  | cons hw _ ih => rw [List.flatten_cons, List.append_assoc, skip_string_unit hw, ih]

theorem skip_string_letter {x : Char} (h : (x, c) ∈ letterEscapes) (s : List Char) :
    Skip.string ('\\' :: x :: s) = Skip.string s := by
  have hu : x ≠ 'u' := by
    rintro rfl
    exact absurd (shortEscape?_of_mem _ h) (by simp [shortEscape?])
  rw [Skip.string]
  · simp [shortEscape?_of_mem (x, c) h]
  · exact hu

theorem skip_string_plain (hcontrol : 0x20 ≤ c.toNat) (hquote : c ≠ '"') (hback : c ≠ '\\')
    (s : List Char) : Skip.string (c :: s) = Skip.string s := by
  rw [Skip.string]
  · simp [isControl, Nat.not_lt.2 hcontrol]
  all_goals simp [hquote, hback]

theorem utf16_eq_singleton_or_pair (c : Char) :
    utf16 c = [c.toNat] ∨ 0x10000 ≤ c.toNat ∧
      utf16 c =
        [0xD800 + (c.toNat - 0x10000) / 0x400, 0xDC00 + (c.toNat - 0x10000) % 0x400] := by
  unfold utf16
  split
  · exact .inl rfl
  · exact .inr ⟨by omega, rfl⟩

/-- A character is read from any of its spellings. -/
theorem CharSpelling.stringOnto_eq (h : CharSpelling c w) (done s : List Char) :
    stringOnto done (w ++ s) = stringOnto (c :: done) s := by
  cases h with
  | plain hcontrol hquote hback => exact stringOnto_plain hcontrol hquote hback done s
  | letter h => exact stringOnto_escape (escape_letter h s) done
  | units h =>
      rcases utf16_eq_singleton_or_pair c with hutf | ⟨hc, hutf⟩
      · rw [hutf] at h
        obtain ⟨w, _, hw, ⟨⟩, rfl⟩ := List.forall₂_cons_left_iff.1 h
        obtain ⟨quad, rfl, hquad⟩ := hw.exists_hexQuad_eq
        have hread : escape ('u' :: (quad ++ s)) = .ok (c, s) := codePoint_unit hquad s
        simpa using stringOnto_escape hread done
      · rw [hutf] at h
        obtain ⟨w, _, hw, htail, rfl⟩ := List.forall₂_cons_left_iff.1 h
        obtain ⟨x, _, hx, ⟨⟩, rfl⟩ := List.forall₂_cons_left_iff.1 htail
        obtain ⟨high, rfl, hhigh⟩ := hw.exists_hexQuad_eq
        obtain ⟨low, rfl, hlow⟩ := hx.exists_hexQuad_eq
        have hread : escape ('u' :: (high ++ '\\' :: 'u' :: (low ++ s))) = .ok (c, s) :=
          codePoint_pair hc hhigh hlow s
        simpa using stringOnto_escape hread done

theorem CharSpelling.skip_string_eq (h : CharSpelling c w) (s : List Char) :
    Skip.string (w ++ s) = Skip.string s := by
  cases h with
  | plain hcontrol hquote hback => exact skip_string_plain hcontrol hquote hback s
  | letter h => exact skip_string_letter h s
  | units h => exact skip_string_units h s

/-! ### Whole strings -/

theorem stringOnto_of_spelling (h : StringSpelling cs body) (done s : List Char) :
    stringOnto done (body ++ '"' :: s) = .ok (done.reverse ++ cs, s) := by
  induction h generalizing done with
  | nil => simpa using stringOnto_quote done s
  | cons hc _ ih => rw [List.append_assoc, hc.stringOnto_eq, ih]; simp

theorem string_of_spelling (h : StringSpelling cs body) (s : List Char) :
    string (body ++ '"' :: s) = .ok (cs, s) :=
  stringOnto_of_spelling h [] s

theorem skip_string_of_spelling (h : StringSpelling cs body) (s : List Char) :
    Skip.string (body ++ '"' :: s) = .ok s := by
  induction h with
  | nil => exact skip_string_quote s
  | cons hc _ ih => rw [List.append_assoc, hc.skip_string_eq, ih]

end LutFixture.Json
