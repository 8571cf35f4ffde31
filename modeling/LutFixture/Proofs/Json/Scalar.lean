import LutFixture.Proofs.Json.Meaning
import Mathlib.Algebra.Group.Nat.Defs

/-!
# What readers of single values make of a value

A string means itself, whichever spelling it has (`Reader.reads_text`). A 64-bit word is a number
without sign, fraction and exponent that fits (`Reader.reads_word64`). A number of any other form is
read to its end or to a fault, and whatever is found is no natural number (`Numeral.Unnatural`);
that is all that has to be known about it, since it is refused in either case.
-/

namespace LutFixture.Json

variable {k : List Token} {s rest ds : List Char} {v : Value} {n limit significand excess : Nat}
  {minus down : Bool} {exponent start : Int}

/-! ### Strings -/

/-- A string means itself. -/
def Value.string? : Value → Option String
  | .string x => some x
  | _ => none

theorem Value.string?_eq_some {x : String} : v.string? = some x ↔ v = .string x := by
  cases v <;> simp [string?]

theorem Value.Begins.exists_string (h : v.Begins '"') : ∃ x, v = .string x := by
  cases v with
  | string x => exact ⟨x, rfl⟩
  | boolean b => cases b <;> cases h
  | number n => rcases h with h | h <;> exact absurd h (by decide)
  | null | array | object => cases h

theorem Reader.reads_text : text.Reads Value.string? := by
  intro v k s _ hs
  cases hv : v.string? with
  | some x =>
      obtain rfl := Value.string?_eq_some.1 hv
      obtain ⟨body, rest, hfront, hbody, hrest⟩ := hs.exists_of_string
      have hread : readBeginning "a string" textBody s = .ok (x.toList, rest) :=
        readBeginning_eq hfront (congrArg some (string_of_spelling hbody rest))
      refine ⟨rest, ?_, hrest⟩
      simp only [text, map, beginning, hread, String.ofList_toList]
  | none =>
      have hread : Yields (readBeginning "a string" textBody s) none k := by
        apply yields_none_of_begins hs
        intro c r hc
        rw [textBody, if_neg]
        rintro rfl
        obtain ⟨x, rfl⟩ := hc.exists_string
        cases hv
      obtain ⟨e, he⟩ := hread
      exact ⟨e, by simp only [text, map, beginning, he]⟩

/-! ### Numbers that are not natural -/

/-- A natural number of at most 64 bits, as a word. -/
def Value.word64? : Value → Option UInt64
  | .number ⟨false, n, none, none⟩ => if n < 2 ^ 64 then some (UInt64.ofNat n) else none
  | _ => none

theorem Value.word64?_eq_some {w : UInt64} : v.word64? = some w ↔ v = .natural w.toNat := by
  constructor
  · intro h
    unfold word64? at h
    split at h
    · rename_i n
      split at h
      · rename_i hn
        obtain rfl := Option.some.inj h
        rw [UInt64.toNat_ofNat', Nat.mod_eq_of_lt hn]
        rfl
      · cases h
    · cases h
  · rintro rfl
    exact (if_pos w.toNat_lt).trans (congrArg some UInt64.ofNat_toNat)

namespace Numeral

/-- What is read is not a natural number. -/
def Unnatural (m : Reading Numeral) : Prop := ∀ n rest, m ≠ .ok (.natural n, rest)

theorem unnatural_error (e : Stop) : Unnatural (.error e) := by
  intro n rest h
  cases h

theorem unnatural_real (minus : Bool) (x : Binary64) (rest : List Char) :
    Unnatural (.ok (.real minus x, rest)) := by
  intro n rest h
  cases h

theorem unnatural_finish : Unnatural (finish minus significand exponent rest) := by
  unfold finish
  split
  · exact unnatural_real _ _ _
  · exact unnatural_error _

theorem unnatural_exponentDigits : Unnatural (exponentDigits minus significand start down s) := by
  unfold exponentDigits
  split
  · exact unnatural_error _
  · split
    · dsimp only
      split
      · exact unnatural_finish
      · split
        · exact unnatural_error _
        · exact unnatural_real _ _ _
    · exact unnatural_error _

theorem unnatural_exponentPart : Unnatural (exponentPart minus significand start s) := by
  unfold exponentPart
  split <;> exact unnatural_exponentDigits

theorem unnatural_scaled : Unnatural (scaled minus significand start s) := by
  unfold scaled
  split
  · exact unnatural_finish
  · split
    · exact unnatural_exponentPart
    · exact unnatural_finish

theorem unnatural_fractionPart : Unnatural (fractionPart minus significand start s) := by
  unfold fractionPart
  split
  · exact unnatural_error _
  · exact unnatural_scaled

/-- A minus, or a digit too many, and a number is not natural. -/
theorem unnatural_whole (h : minus = true ∨ excess ≠ 0) :
    Unnatural (whole minus significand excess rest) := by
  unfold whole
  split
  · exact unnatural_finish
  · rename_i hexcess
    obtain rfl := h.resolve_right hexcess
    rw [if_neg (by decide)]
    split
    · exact unnatural_finish
    · intro n rest h
      cases h

theorem unnatural_afterWhole (h : minus = true ∨ excess ≠ 0) :
    Unnatural (afterWhole minus significand excess s) := by
  unfold afterWhole
  split
  · exact unnatural_whole h
  · split
    · exact unnatural_fractionPart
    · split
      · exact unnatural_exponentPart
      · exact unnatural_whole h

theorem unnatural_magnitude (s : List Char) : Unnatural (magnitude true s) := by
  unfold magnitude
  split
  · exact unnatural_error _
  · split
    · split
      · exact unnatural_afterWhole (.inl rfl)
      · exact unnatural_error _
    · split
      · exact unnatural_afterWhole (.inl rfl)
      · exact unnatural_error _

/-! ### The digits of a number -/

theorem le_ofDigitChars (n : Nat) (ds : List Char) : n ≤ Nat.ofDigitChars 10 ds n := by
  induction ds generalizing n with
  | nil => exact Nat.le_refl n
  | cons d ds ih =>
      calc
        n ≤ 10 * n + digitValue d := by omega
        _ ≤ _ := ih _

theorem collect_of_le (h : Nat.ofDigitChars 10 ds n ≤ limit) :
    collect limit n ds = (Nat.ofDigitChars 10 ds n, 0) := by
  induction ds generalizing n with
  | nil => rfl
  | cons d ds ih =>
      have hlarger : 10 * n + digitValue d ≤ limit := Nat.le_trans (le_ofDigitChars _ ds) h
      exact (if_pos hlarger).trans (ih h)

theorem collect_of_lt (hn : n ≤ limit) (h : limit < Nat.ofDigitChars 10 ds n) :
    (collect limit n ds).2 ≠ 0 := by
  induction ds generalizing n with
  | nil => exact absurd h (Nat.not_lt.2 hn)
  | cons d ds ih =>
      by_cases hlarger : 10 * n + digitValue d ≤ limit
      · have hcollect : collect limit n (d :: ds) = collect limit (10 * n + digitValue d) ds :=
          if_pos hlarger
        rw [hcollect]
        exact ih hlarger h
      · have hcollect : collect limit n (d :: ds) = (n, (d :: ds).length) := if_neg hlarger
        rw [hcollect]
        exact Nat.succ_ne_zero _

theorem magnitude_toDigits (minus : Bool) (n : Nat) (hs : ∀ c ∈ s.head?, isDigit c = false) :
    magnitude minus (Nat.toDigits 10 n ++ s) =
      let collected := collect greatestSignificand 0 (Nat.toDigits 10 n)
      afterWhole minus collected.1 collected.2 s := by
  have hall : ∀ c ∈ Nat.toDigits 10 n, isDigit c = true := fun c hc => isDigit_of_mem_toDigits hc
  rcases Nat.eq_zero_or_pos n with rfl | hn
  · have hnone := Skip.takeWhile_isDigit_append (List.forall_mem_nil _) hs
    rw [List.nil_append] at hnone
    rw [Nat.toDigits_zero, List.singleton_append, magnitude, if_pos rfl, hnone]
    rfl
  · have hhead := Skip.head?_toDigits_ne_zero hn
    cases hdigits : Nat.toDigits 10 n with
    | nil => exact absurd hdigits Nat.toDigits_ne_nil
    | cons c ds =>
        rw [hdigits] at hall hhead
        have htake := Skip.takeWhile_isDigit_append hall hs
        have hdrop := Skip.dropWhile_isDigit_append hall hs
        rw [List.cons_append] at htake hdrop ⊢
        have hc : isDigit c = true := hall c List.mem_cons_self
        simp only [magnitude, if_neg (hhead c rfl), if_pos hc, htake, hdrop]

theorem afterWhole_of_stops (hs : Stops s) (minus : Bool) (significand excess : Nat) :
    afterWhole minus significand excess s = whole minus significand excess s := by
  cases s with
  | nil => rfl
  | cons c s =>
      obtain ⟨-, hpoint, he, hE⟩ := hs c rfl
      rw [afterWhole, if_neg hpoint, if_neg (by simp [he, hE])]

theorem unnatural_afterWhole_fraction (f : Fraction) (s : List Char) :
    Unnatural (afterWhole minus significand excess (f.chars ++ s)) := by
  have hpoint : afterWhole minus significand excess (f.chars ++ s) =
      fractionPart minus significand excess (digitChar f.first :: f.more.map digitChar ++ s) := rfl
  rw [hpoint]
  exact unnatural_fractionPart

theorem unnatural_afterWhole_exponent (e : Exponent) (s : List Char) :
    Unnatural (afterWhole minus significand excess (e.chars ++ s)) := by
  have hmarker : ∃ tail, afterWhole minus significand excess (e.chars ++ s) =
      exponentPart minus significand excess tail := by
    unfold Exponent.chars
    cases e.capital <;> exact ⟨_, rfl⟩
  obtain ⟨tail, htail⟩ := hmarker
  rw [htail]
  exact unnatural_exponentPart

/-! ### Whole numbers -/

theorem read_toDigits (n : Nat) (s : List Char) :
    read (Nat.toDigits 10 n ++ s) = magnitude false (Nat.toDigits 10 n ++ s) := by
  cases hdigits : Nat.toDigits 10 n with
  | nil => exact absurd hdigits Nat.toDigits_ne_nil
  | cons c ds =>
      have hc : isDigit c = true :=
        isDigit_of_mem_toDigits (by rw [hdigits]; exact List.mem_cons_self)
      rw [List.cons_append]
      unfold read
      split
      · rename_i hminus
        rw [(List.cons.inj hminus).1] at hc
        exact absurd hc (by decide)
      · rfl

theorem read_natural (hn : n < 2 ^ 64) (hs : Stops s) :
    read (Nat.toDigits 10 n ++ s) = .ok (.natural n, s) := by
  have hfits : Nat.ofDigitChars 10 (Nat.toDigits 10 n) 0 ≤ greatestSignificand := by
    rw [Nat.ofDigitChars_ten_toDigits]
    exact Nat.le_pred_of_lt hn
  rw [read_toDigits, magnitude_toDigits false n fun c hc => (hs c hc).1, collect_of_le hfits,
    Nat.ofDigitChars_ten_toDigits, afterWhole_of_stops hs]
  rfl

theorem unnatural_read (n : Number) (hs : Stops s) (h : (Value.number n).word64? = none) :
    Unnatural (read (n.chars ++ s)) := by
  obtain ⟨negative, digits, fraction, exponent⟩ := n
  cases negative with
  | true => exact unnatural_magnitude _
  | false =>
      have hhead := Skip.head?_fraction? fraction exponent hs
      simp only [Number.chars, Bool.false_eq_true, if_false, List.nil_append, List.append_assoc]
      rw [read_toDigits, magnitude_toDigits false digits hhead]
      cases fraction with
      | some f => exact unnatural_afterWhole_fraction f _
      | none =>
          cases exponent with
          | some e => exact unnatural_afterWhole_exponent e _
          -- Digits alone: they are no word, so they are too many for the significand.
          | none =>
              apply unnatural_afterWhole
              right
              apply collect_of_lt (Nat.zero_le _)
              rw [Nat.ofDigitChars_ten_toDigits]
              have hlarge : ¬digits < 2 ^ 64 := by simpa [Value.word64?] using h
              exact Nat.lt_of_lt_of_le (by decide) (Nat.not_lt.1 hlarge)

end Numeral

/-! ### 64-bit words -/

theorem Value.Begins.exists_number {c : Char} (h : v.Begins c)
    (hc : c = '-' ∨ Numeral.isDigit c = true) : ∃ n, v = .number n := by
  have hother : ∀ x ∈ ['n', 't', 'f', '"', '[', '\x7b'], ¬(x = '-' ∨ Numeral.isDigit x = true) :=
    List.all_iff_forall_prop.1 (by decide)
  cases v with
  | number n => exact ⟨n, rfl⟩
  | boolean b =>
      obtain rfl := h
      cases b <;> exact absurd hc (hother _ (by decide))
  | null | string | array | object =>
      obtain rfl := h
      exact absurd hc (hother _ (by decide))

/-- What is no natural number is no word. -/
theorem Numeral.Unnatural.exists_error {m : Reading Numeral} (h : Unnatural m) :
    ∃ e, (m.bind fun x => Reader.wordOfNumeral x.1 x.2) = .error e := by
  match m with
  | .error e => exact ⟨e, rfl⟩
  | .ok (.natural n, rest) => exact absurd rfl (h n rest)
  | .ok (.negative _, _) => exact ⟨_, rfl⟩
  | .ok (.real _ _, _) => exact ⟨_, rfl⟩

theorem Reader.reads_word64 : word64.Reads Value.word64? := by
  intro v k s hk hs
  by_cases hnumber : ∃ n, v = .number n
  · obtain ⟨n, rfl⟩ := hnumber
    obtain ⟨w, rest, rfl, hrest, hfront⟩ := hs.exists_of_cons
    have hread : word64.read s =
        (Numeral.read (n.chars ++ rest)).bind fun x => wordOfNumeral x.1 x.2 := by
      obtain ⟨c, r, hn, hc⟩ := exists_chars_eq_cons n
      rw [hn, List.cons_append] at hfront ⊢
      exact readBeginning_eq hfront (if_pos hc)
    have hstops := hrest.stops hk
    rw [hread]
    cases hword : (Value.number n).word64? with
    | some w =>
        obtain rfl := Value.number.inj (Value.word64?_eq_some.1 hword)
        have hchars : ({ whole := w.toNat } : Number).chars = Nat.toDigits 10 w.toNat := by
          simp [Number.chars]
        rw [hchars, Numeral.read_natural w.toNat_lt hstops]
        refine ⟨rest, ?_, hrest⟩
        simp [Except.bind, wordOfNumeral]
    | none => exact (Numeral.unnatural_read n hstops hword).exists_error
  · have hnone : v.word64? = none := by
      cases v with
      | number n => exact absurd ⟨n, rfl⟩ hnumber
      | _ => rfl
    rw [hnone]
    apply yields_none_of_begins hs
    intro c r hc
    rw [wordBody, if_neg]
    exact fun hdigit => hnumber (hc.exists_number hdigit)

end LutFixture.Json
