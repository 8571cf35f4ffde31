import LutFixture.CommandLine.Operand
import LutFixture.Proofs.Json.StringReading
import LutFixture.Proofs.Words
import Mathlib.Data.Nat.Digits.Defs

/-!
# How patterns are written on the command line

An argument is a numeral with blanks around it: a prefix that names the radix, perhaps a plus, and
the digits. `CommandLine.ReadsAs` says of the text where the digits should stand which pattern it is
or with which message it is refused, in terms of the number that digits write and of nothing that
reading does on the way. `CommandLine.patternOf_reads_numeral` says that every argument is taken for
just that.

Reading goes from left to right and stops at the first thing that is wrong. Digits that write a
number past 64 bits do so whatever digits follow, so what has been read up to some place depends on
the number up to that place alone (`Text.naturalOnto_append`).
-/

namespace LutFixture

namespace Text

open Json (HexDigit)

/-- The characters are digits of a radix, with these values. -/
def Digits (radix : Nat) (s : List Char) (ds : List Nat) : Prop :=
  List.Forall₂ (fun c d => HexDigit d c ∧ d < radix) s ds

/-- The character is no digit of a radix. -/
def NoDigit (radix : Nat) (c : Char) : Prop := ∀ d < radix, ¬HexDigit d c

variable {radix n d : Nat} {s front back : List Char} {ds : List Nat} {c : Char}

/-! ### Digits -/

theorem hexDigit?_ofNat : ∀ n < 103, ∀ d < 16, hexDigit? (Char.ofNat n) = some d →
    Char.ofNat n = Nat.digitChar d ∨ Char.ofNat n = (Nat.digitChar d).toUpper := by
  decide

theorem lt_of_hexDigit?_eq (h : hexDigit? c = some d) : c.toNat < 103 ∧ d < 16 := by
  have hle : ∀ {x y : Char}, x ≤ y → x.toNat ≤ y.toNat := fun hxy => hxy
  unfold hexDigit? at h
  split at h
  · rename_i hc
    have hlow : 48 ≤ c.toNat := hle hc.1
    have hhigh : c.toNat ≤ 57 := hle hc.2
    obtain rfl := Option.some.inj h
    exact ⟨by omega, Nat.sub_lt_left_of_lt_add hlow (by show c.toNat < 64; omega)⟩
  · split at h
    · rename_i hc
      have hlow : 97 ≤ c.toNat := hle hc.1
      have hhigh : c.toNat ≤ 102 := hle hc.2
      obtain rfl := Option.some.inj h
      exact ⟨by omega, by show c.toNat - 97 + 10 < 16; omega⟩
    · split at h
      · rename_i hc
        have hlow : 65 ≤ c.toNat := hle hc.1
        have hhigh : c.toNat ≤ 70 := hle hc.2
        obtain rfl := Option.some.inj h
        exact ⟨by omega, by show c.toNat - 65 + 10 < 16; omega⟩
      · cases h

theorem hexDigit?_eq_some_iff : hexDigit? c = some d ↔ HexDigit d c := by
  constructor
  · intro h
    obtain ⟨hc, hd⟩ := lt_of_hexDigit?_eq h
    rw [← Char.ofNat_toNat c] at h ⊢
    rcases hexDigit?_ofNat _ hc d hd h with hlower | hupper
    · rw [hlower]
      exact .lower hd
    · rw [hupper]
      exact .upper hd
  · exact HexDigit.hexDigit?_eq

theorem digit?_eq_some_iff : digit? radix c = some d ↔ HexDigit d c ∧ d < radix := by
  rw [digit?, Option.filter_eq_some_iff, hexDigit?_eq_some_iff, decide_eq_true_iff]

theorem digit?_eq_none_iff : digit? radix c = none ↔ NoDigit radix c := by
  rw [Option.eq_none_iff_forall_ne_some]
  simp only [Ne, digit?_eq_some_iff, NoDigit]
  exact forall_congr' fun d => by rw [not_and']

/-- A text consists of digits, or there is a first character that is none. -/
theorem exists_digits (radix : Nat) (s : List Char) :
    (∃ ds, Digits radix s ds) ∨ ∃ front c back ds, s = front ++ c :: back ∧
      Digits radix front ds ∧ NoDigit radix c := by
  induction s with
  | nil => exact .inl ⟨[], .nil⟩
  | cons c s ih =>
      cases hc : digit? radix c with
      | none => exact .inr ⟨[], c, s, [], rfl, .nil, digit?_eq_none_iff.1 hc⟩
      | some d =>
          have hd := digit?_eq_some_iff.1 hc
          rcases ih with ⟨ds, hds⟩ | ⟨front, x, back, ds, rfl, hds, hx⟩
          · exact .inl ⟨d :: ds, .cons hd hds⟩
          · exact .inr ⟨c :: front, x, back, d :: ds, rfl, .cons hd hds, hx⟩

/-! ### Numbers -/

theorem ofDigits_reverse (radix : Nat) (ds : List Nat) :
    Nat.ofDigits radix ds.reverse = ds.foldl (fun n d => radix * n + d) 0 := by
  rw [Nat.ofDigits_eq_foldr, List.foldr_reverse]
  simp only [Nat.cast_id, Nat.add_comm]

theorem le_foldl_digits (hradix : 0 < radix) (n : Nat) (ds : List Nat) :
    n ≤ ds.foldl (fun n d => radix * n + d) n := by
  induction ds generalizing n with
  | nil => exact Nat.le_refl n
  | cons d ds ih =>
      calc
        n ≤ radix * n + d := Nat.le_add_right_of_le (Nat.le_mul_of_pos_left n hradix)
        _ ≤ _ := ih _

theorem Digits.ne_nil_of_pos {ds : List Nat} (h : Digits radix s ds)
    (hpos : 0 < Nat.ofDigits radix ds.reverse) : s ≠ [] := by
  rintro rfl
  cases h
  exact Nat.lt_irrefl 0 hpos

/-- Digits are read as the number that they write, or are too many for 64 bits. -/
theorem naturalOnto_append (hradix : 0 < radix) (h : Digits radix front ds) (n : Nat)
    (hn : n < 2 ^ 64) (back : List Char) :
    naturalOnto radix n (front ++ back) =
      if ds.foldl (fun n d => radix * n + d) n < 2 ^ 64 then
        naturalOnto radix (ds.foldl (fun n d => radix * n + d) n) back
      else .error .tooLarge := by
  induction h generalizing n with
  | nil => exact (if_pos hn).symm
  | @cons c d front ds hd _ ih =>
      have hc := digit?_eq_some_iff.2 hd
      rw [List.cons_append, naturalOnto, hc, List.foldl_cons]
      by_cases hlt : radix * n + d < 2 ^ 64
      · exact (if_pos hlt).trans (ih _ hlt)
      -- Reading stops here, and the digits that follow would not have made the number smaller.
      · have hlarge := le_foldl_digits hradix (radix * n + d) ds
        rw [if_neg fun hfits => hlt (Nat.lt_of_le_of_lt hlarge hfits)]
        exact if_neg hlt

theorem naturalOnto_of_digits (hradix : 0 < radix) (h : Digits radix s ds) :
    naturalOnto radix 0 s =
      if Nat.ofDigits radix ds.reverse < 2 ^ 64 then .ok (Nat.ofDigits radix ds.reverse)
      else .error .tooLarge := by
  have hread := naturalOnto_append hradix h 0 (by decide) []
  rw [List.append_nil, ← ofDigits_reverse] at hread
  exact hread

theorem naturalOnto_of_noDigit (hradix : 0 < radix) (h : Digits radix front ds)
    (hc : NoDigit radix c) (back : List Char) :
    naturalOnto radix 0 (front ++ c :: back) =
      if Nat.ofDigits radix ds.reverse < 2 ^ 64 then .error .invalidDigit
      else .error .tooLarge := by
  have hread := naturalOnto_append hradix h 0 (by decide) (c :: back)
  rw [← ofDigits_reverse, naturalOnto, digit?_eq_none_iff.2 hc] at hread
  exact hread

end Text

namespace CommandLine

open Text

/-- The radix that the beginning of a text names, and what is left of the text. -/
def radixOf (t : List Char) : Nat × List Char :=
  if ['0', 'x'] <+: t then (16, t.drop 2)
  else if ['0', 'b'] <+: t then (2, t.drop 2)
  else (10, t)

/-- The text without a plus at its beginning, if something follows it. -/
def withoutPlus (s : List Char) : List Char :=
  if s.head? = some '+' ∧ 1 < s.length then s.tail else s

/-- What a text in the place of digits stands for: a pattern, or the message with which it is
refused. -/
inductive ReadsAs (radix : Nat) : List Char → Except String Pattern → Prop
  /-- Digits that write the number of a pattern. -/
  | pattern {s : List Char} {ds : List Nat} {p : Pattern} (hne : s ≠ []) (hs : Digits radix s ds)
      (hp : p.toNat = Nat.ofDigits radix ds.reverse) : ReadsAs radix s (.ok p)
  /-- Digits that write a larger number of 64 bits. -/
  | outOfRange {s : List Char} {ds : List Nat} (hs : Digits radix s ds)
      (hlow : 64 ≤ Nat.ofDigits radix ds.reverse) (hhigh : Nat.ofDigits radix ds.reverse < 2 ^ 64) :
      ReadsAs radix s (.error ("value 0x" ++
        String.ofList (Nat.toDigits 16 (Nat.ofDigits radix ds.reverse)) ++
          " does not fit in a 6-bit input vector"))
  /-- Digits that write a number past 64 bits. -/
  | tooLarge {s : List Char} {ds : List Nat} (hs : Digits radix s ds)
      (hhigh : 2 ^ 64 ≤ Nat.ofDigits radix ds.reverse) :
      ReadsAs radix s (.error "number too large to fit in target type")
  /-- A character that is no digit, behind digits that write a number of 64 bits. -/
  | invalidDigit {front back : List Char} {c : Char} {ds : List Nat}
      (hfront : Digits radix front ds) (hc : NoDigit radix c)
      (hlow : Nat.ofDigits radix ds.reverse < 2 ^ 64) :
      ReadsAs radix (front ++ c :: back) (.error "invalid digit found in string")
  /-- A character that is no digit, behind digits that write a number past 64 bits. -/
  | invalidDigitTooLate {front back : List Char} {c : Char} {ds : List Nat}
      (hfront : Digits radix front ds) (hc : NoDigit radix c)
      (hhigh : 2 ^ 64 ≤ Nat.ofDigits radix ds.reverse) :
      ReadsAs radix (front ++ c :: back) (.error "number too large to fit in target type")
  /-- Nothing. -/
  | empty : ReadsAs radix [] (.error "cannot parse integer from empty string")

variable {radix : Nat} {s t : List Char} {outcome : Except String Pattern}

/-! ### In front of the digits -/

theorem radixOf_pos (t : List Char) : 0 < (radixOf t).1 := by
  unfold radixOf
  split
  · exact Nat.succ_pos _
  · split <;> exact Nat.succ_pos _

theorem numberOf_eq (t : List Char) : numberOf t = natural (radixOf t).1 (radixOf t).2 := by
  unfold numberOf
  split
  · rfl
  · rfl
  · rename_i hhex hbinary
    rw [radixOf, if_neg, if_neg]
    · rintro ⟨s, rfl⟩
      exact hbinary s rfl
    · rintro ⟨s, rfl⟩
      exact hhex s rfl

/-- A plus alone is read as it stands, and it is no digit. -/
theorem natural_eq (radix : Nat) (s : List Char) :
    natural radix s =
      if withoutPlus s = [] then .error .empty else naturalOnto radix 0 (withoutPlus s) := by
  unfold natural
  split
  · rfl
  · rfl
  · rename_i s hs
    have hlong : 1 < ('+' :: s).length := by
      cases s with
      | nil => exact absurd rfl hs
      | cons c s => simp
    have hrest : withoutPlus ('+' :: s) = s := if_pos ⟨rfl, hlong⟩
    rw [hrest, if_neg hs]
  · rename_i hnil _ hplus
    have hrest : withoutPlus s = s := by
      rw [withoutPlus, if_neg]
      rintro ⟨hhead, -⟩
      obtain ⟨s, rfl⟩ := List.head?_eq_some_iff.1 hhead
      exact hplus s rfl
    rw [hrest, if_neg hnil]

/-! ### The answer -/

/-- The pattern of a number that has been read, or the message with which it is refused. -/
def patternOrMessage (read : Except NaturalFault Nat) : Except String Pattern :=
  (read.mapError NaturalFault.message).bind fun n => (Pattern.ofNat n).mapError Fault.message

theorem mapError_message_patternOf (arg : String) :
    (patternOf arg).mapError PatternFault.message =
      patternOrMessage (numberOf (trim arg.toList)) := by
  unfold patternOf
  cases numberOf (trim arg.toList) with
  | error f => rfl
  | ok n =>
      simp only [patternOrMessage, Pattern.ofNat]
      cases hp : Pattern.ofNat? n with
      | none => simp [hp, Except.mapError, Except.bind, PatternFault.message]
      | some p => simp [hp, Except.mapError, Except.bind]

theorem patternOrMessage_toNat (p : Pattern) : patternOrMessage (.ok p.toNat) = .ok p := by
  have hp : Pattern.ofNat p.toNat = .ok p := Pattern.ofNat_eq_ok_iff.2 (Pattern.ofNat?_toNat p)
  rw [patternOrMessage, Except.mapError, Except.bind, hp]
  rfl

theorem patternOrMessage_of_le {n : Nat} (h : 64 ≤ n) :
    patternOrMessage (.ok n) =
      .error ("value 0x" ++ String.ofList (Nat.toDigits 16 n) ++
        " does not fit in a 6-bit input vector") := by
  have hn : Pattern.ofNat? n = none := Pattern.ofNat?_eq_none_iff.2 h
  have hmessage : (Fault.vectorOutOfRange n inputWidth).message =
      "value 0x" ++ String.ofList (Nat.toDigits 16 n) ++ " does not fit in a "
        ++ toString inputWidth ++ "-bit input vector" := rfl
  have hwidth : " does not fit in a 6-bit input vector" =
      " does not fit in a " ++ (toString inputWidth ++ "-bit input vector") := rfl
  rw [hwidth, ← String.append_assoc, ← String.append_assoc, ← hmessage, patternOrMessage,
    Except.mapError, Except.bind, Pattern.ofNat, hn]
  rfl

/-- A text in the place of digits is read as what it stands for. -/
theorem ReadsAs.patternOrMessage_eq (hradix : 0 < radix) (h : ReadsAs radix s outcome) :
    patternOrMessage (if s = [] then .error .empty else naturalOnto radix 0 s) = outcome := by
  cases h with
  | @pattern _ ds p hne hs hp =>
      have hfits : Nat.ofDigits radix ds.reverse < 2 ^ 64 := by
        rw [← hp]
        exact Nat.lt_trans p.isLt (by decide)
      rw [if_neg hne, naturalOnto_of_digits hradix hs, if_pos hfits, ← hp, patternOrMessage_toNat]
  | outOfRange hs hlow hhigh =>
      rw [if_neg (hs.ne_nil_of_pos (by omega)), naturalOnto_of_digits hradix hs, if_pos hhigh,
        patternOrMessage_of_le hlow]
  | tooLarge hs hhigh =>
      rw [if_neg (hs.ne_nil_of_pos (by omega)), naturalOnto_of_digits hradix hs,
        if_neg (Nat.not_lt.2 hhigh)]
      rfl
  | invalidDigit hfront hc hlow =>
      rw [if_neg (by simp), naturalOnto_of_noDigit hradix hfront hc, if_pos hlow]
      rfl
  | invalidDigitTooLate hfront hc hhigh =>
      rw [if_neg (by simp), naturalOnto_of_noDigit hradix hfront hc, if_neg (Nat.not_lt.2 hhigh)]
      rfl
  | empty => rfl

/-- Every text in the place of digits stands for something. -/
theorem exists_readsAs (radix : Nat) (s : List Char) : ∃ outcome, ReadsAs radix s outcome := by
  rcases exists_digits radix s with ⟨ds, hs⟩ | ⟨front, c, back, ds, rfl, hfront, hc⟩
  · rcases Nat.lt_or_ge (Nat.ofDigits radix ds.reverse) (2 ^ 64) with hfits | hhigh
    · rcases Nat.lt_or_ge (Nat.ofDigits radix ds.reverse) 64 with hlow | hrange
      · by_cases hne : s = []
        · subst hne
          exact ⟨_, .empty⟩
        · exact ⟨_, .pattern (p := BitVec.ofNatLT _ hlow) hne hs (BitVec.toNat_ofNatLT _ _)⟩
      · exact ⟨_, .outOfRange hs hrange hfits⟩
    · exact ⟨_, .tooLarge hs hhigh⟩
  · rcases Nat.lt_or_ge (Nat.ofDigits radix ds.reverse) (2 ^ 64) with hfits | hhigh
    · exact ⟨_, .invalidDigit hfront hc hfits⟩
    · exact ⟨_, .invalidDigitTooLate hfront hc hhigh⟩

/-- An argument stands for what is behind its radix prefix and its plus, when the blanks at both
ends are left out: for a pattern, or for the message with which it is refused. -/
theorem patternOf_reads_numeral (arg : String) :
    ∃ t, (∀ t', TrimsTo arg.toList t' ↔ t' = t) ∧
      ∀ outcome, (patternOf arg).mapError PatternFault.message = outcome ↔
        ReadsAs (radixOf t).1 (withoutPlus (radixOf t).2) outcome := by
  refine ⟨trim arg.toList, fun t' => trimsTo_iff, ?_⟩
  intro outcome
  rw [mapError_message_patternOf, numberOf_eq, natural_eq]
  obtain ⟨answer, hanswer⟩ := exists_readsAs (radixOf (trim arg.toList)).1
    (withoutPlus (radixOf (trim arg.toList)).2)
  rw [hanswer.patternOrMessage_eq (radixOf_pos _)]
  constructor
  · rintro rfl
    exact hanswer
  · intro houtcome
    rw [← houtcome.patternOrMessage_eq (radixOf_pos _),
      hanswer.patternOrMessage_eq (radixOf_pos _)]

end CommandLine

end LutFixture
