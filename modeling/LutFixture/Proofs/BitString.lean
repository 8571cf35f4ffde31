import LutFixture.Proofs.LineText
import LutFixture.Stimulus.BitString

/-!
# What a bit string stands for

A bit string is read if each of its characters is a digit or may stand between digits
(`Stimulus.FitsBitString`), and then it stands for the same edges as its digits do on a line each
(`Stimulus.ofBits_reads_digits`). Otherwise its first character that does not fit is the fault.

Reading leaves out what stands between digits before it looks at any digit. It comes to the same to
take one character after the other, since a text in two parts is read part by part
(`Stimulus.ofCharacters_append`), whatever stands at the joint.
-/

namespace LutFixture.Stimulus

open Text

/-- The character may stand in a bit string: it is a digit or stands between digits. -/
def FitsBitString (c : Char) : Prop := c = '0' ∨ c = '1' ∨ c = '_' ∨ isBlank c = true

instance : DecidablePred FitsBitString := fun _ => inferInstanceAs (Decidable (_ ∨ _))

/-- The zeros and ones among some characters, in order. -/
def bitDigits (s : List Char) : List Char := s.filter fun c => c = '0' ∨ c = '1'

/-- One edge without a strobe for each digit. -/
def shiftsOf (digits : List Char) : Stimulus := digits.map fun d => Edge.shift (d = '1')

/-- The edges that some characters stand for. -/
def ofCharacters (s : List Char) : Except Fault Stimulus :=
  (s.filter (!isFiller ·)).mapM edgeOfDigit

variable {c : Char} {s front back digits : List Char}

theorem ofBits_eq_ofCharacters (text : String) : ofBits text = ofCharacters text.toList := rfl

/-! ### Character by character -/

theorem ofCharacters_append (a b : List Char) :
    ofCharacters (a ++ b) = (ofCharacters a).bind fun x => (ofCharacters b).map (x ++ ·) := by
  rw [ofCharacters, List.filter_append, List.mapM_append]
  change (ofCharacters a).bind _ = _
  cases ofCharacters a with
  | error f => rfl
  | ok x =>
      change (ofCharacters b).bind _ = (ofCharacters b).map _
      cases ofCharacters b <;> rfl

theorem ofCharacters_digit (h : c = '0' ∨ c = '1') : ofCharacters [c] = .ok (shiftsOf [c]) := by
  rcases h with rfl | rfl <;> rfl

theorem ofCharacters_filler (h : isFiller c = true) : ofCharacters [c] = .ok [] := by
  rw [ofCharacters, List.filter_singleton, h]
  rfl

theorem not_digit_of_isFiller (h : isFiller c = true) : ¬(c = '0' ∨ c = '1') := by
  rintro (rfl | rfl) <;> cases h

theorem fitsBitString_iff : FitsBitString c ↔ (c = '0' ∨ c = '1') ∨ isFiller c = true := by
  rw [FitsBitString, isFiller, Bool.or_eq_true, beq_iff_eq, or_assoc]

theorem ofCharacters_of_fits (h : FitsBitString c) :
    ofCharacters [c] = .ok (shiftsOf (bitDigits [c])) := by
  rcases fitsBitString_iff.1 h with hdigit | hfiller
  · rw [ofCharacters_digit hdigit, bitDigits, List.filter_cons_of_pos (by simpa using hdigit)]
    rfl
  · rw [ofCharacters_filler hfiller, bitDigits,
      List.filter_cons_of_neg (by simpa using not_digit_of_isFiller hfiller)]
    rfl

theorem ofCharacters_of_not_fits (h : ¬FitsBitString c) :
    ofCharacters [c] = .error (.invalidBit c) := by
  rw [fitsBitString_iff, not_or, Bool.not_eq_true] at h
  obtain ⟨hdigit, hfiller⟩ := h
  rw [not_or] at hdigit
  rw [ofCharacters, List.filter_singleton, hfiller]
  simp [edgeOfDigit, hdigit.1, hdigit.2]

/-! ### Whole texts -/

theorem ofCharacters_of_forall_fits (h : ∀ c ∈ s, FitsBitString c) :
    ofCharacters s = .ok (shiftsOf (bitDigits s)) := by
  induction s with
  | nil => rfl
  | cons c s ih =>
      have hc := ofCharacters_of_fits (h c List.mem_cons_self)
      have hs := ih fun x hx => h x (List.mem_cons_of_mem c hx)
      have hdigits : bitDigits (c :: s) = bitDigits [c] ++ bitDigits s := by
        rw [bitDigits, ← List.singleton_append, List.filter_append]
        rfl
      rw [← List.singleton_append, ofCharacters_append, hc, hs, List.singleton_append, hdigits]
      exact congrArg Except.ok List.map_append.symm

theorem ofCharacters_of_first_misfit (hfront : ∀ x ∈ front, FitsBitString x)
    (hc : ¬FitsBitString c) (back : List Char) :
    ofCharacters (front ++ c :: back) = .error (.invalidBit c) := by
  rw [ofCharacters_append, ofCharacters_of_forall_fits hfront, ← List.singleton_append,
    ofCharacters_append, ofCharacters_of_not_fits hc]
  rfl

theorem exists_first_misfit (h : ¬∀ c ∈ s, FitsBitString c) :
    ∃ front c back, s = front ++ c :: back ∧ (∀ x ∈ front, FitsBitString x) ∧
      ¬FitsBitString c := by
  push Not at h
  obtain ⟨c, hfound⟩ := Option.isSome_iff_exists.1
    (List.find?_isSome (p := fun c => !decide (FitsBitString c)) |>.2 (by simpa using h))
  obtain ⟨hc, front, back, hs, hfront⟩ := List.find?_eq_some_iff_append.1 hfound
  exact ⟨front, c, back, hs, by simpa using hfront, by simpa using hc⟩

theorem ofCharacters_eq_ok_iff {edges : Stimulus} :
    ofCharacters s = .ok edges ↔
      (∀ c ∈ s, FitsBitString c) ∧ edges = shiftsOf (bitDigits s) := by
  constructor
  · intro h
    by_cases hfits : ∀ c ∈ s, FitsBitString c
    · rw [ofCharacters_of_forall_fits hfits] at h
      exact ⟨hfits, (Except.ok.inj h).symm⟩
    · obtain ⟨front, c, back, rfl, hfront, hc⟩ := exists_first_misfit hfits
      rw [ofCharacters_of_first_misfit hfront hc] at h
      cases h
  · rintro ⟨hfits, rfl⟩
    exact ofCharacters_of_forall_fits hfits

theorem ofCharacters_eq_error_iff {f : Fault} :
    ofCharacters s = .error f ↔
      ∃ front c back, s = front ++ c :: back ∧ (∀ x ∈ front, FitsBitString x) ∧
        ¬FitsBitString c ∧ f = .invalidBit c := by
  constructor
  · intro h
    by_cases hfits : ∀ c ∈ s, FitsBitString c
    · rw [ofCharacters_of_forall_fits hfits] at h
      cases h
    · obtain ⟨front, c, back, rfl, hfront, hc⟩ := exists_first_misfit hfits
      rw [ofCharacters_of_first_misfit hfront hc] at h
      exact ⟨front, c, back, rfl, hfront, hc, (Except.error.inj h).symm⟩
  · rintro ⟨front, c, back, rfl, hfront, hc, rfl⟩
    exact ofCharacters_of_first_misfit hfront hc back

/-! ### The digits on a line each -/

theorem forall_mem_bitDigits (s : List Char) : ∀ d ∈ bitDigits s, d = '0' ∨ d = '1' := by
  intro d hd
  simpa using (List.mem_filter.1 hd).2

/-- A text with one digit on each line, be the last line ended or not. -/
theorem ofText_of_digit_lines {lined : String} (hdigits : ∀ d ∈ digits, d = '0' ∨ d = '1')
    (hlines : CutIntoLines lined.toList (digits.map fun d => [d])) :
    ofText lined = .ok (shiftsOf digits) := by
  have hfields : ∀ d ∈ digits, fields [d] = [[d]] := by
    intro d hd
    rcases hdigits d hd with rfl | rfl <;> rfl
  have hrows : (ended (Text.lines lined.toList)).map fields = digits.map fun d => [[d]] := by
    rw [map_fields_ended hlines, List.map_map]
    exact List.map_congr_left hfields
  have hlegal : ∀ row ∈ (ended (Text.lines lined.toList)).map fields, LegalRow row := by
    rw [hrows, List.forall_mem_map]
    intro d hd
    exact ⟨by simp, by simpa using hdigits d hd⟩
  rw [ofText, ofLines_of_legal 1 (List.forall_mem_map.1 hlegal), hrows, edgesOfTable,
    List.filter_eq_self.2 (by simp), List.map_map]
  simp [shiftsOf, edgeOfRow, Edge.shift]

/-- A bit string is read exactly if all its characters fit, and then it stands for one edge without a
strobe for each digit, as any text with these digits on a line each does. It is refused exactly for
its first character that does not fit. Behind it another bit string may be put: the edges of both
come one behind the other, or the fault of the first one counts, or else that of the second. -/
theorem ofBits_reads_digits (text : String) :
    let digits := bitDigits text.toList
    (∀ edges, ofBits text = .ok edges ↔
      (∀ c ∈ text.toList, FitsBitString c) ∧ edges = shiftsOf digits) ∧
    (∀ edges, ofBits text = .ok edges → ∀ lined : String,
      CutIntoLines lined.toList (digits.map fun d => [d]) → ofText lined = .ok edges) ∧
    (∀ f, ofBits text = .error f ↔
      ∃ front c back, text.toList = front ++ c :: back ∧ (∀ x ∈ front, FitsBitString x) ∧
        ¬FitsBitString c ∧ f = .invalidBit c) ∧
    ∀ more : String,
      ofBits (text ++ more) =
        (ofBits text).bind fun edges => (ofBits more).map (edges ++ ·) := by
  intro digits
  refine ⟨fun edges => ofCharacters_eq_ok_iff, ?_, fun f => ofCharacters_eq_error_iff, ?_⟩
  · intro edges h lined hlines
    rw [(ofCharacters_eq_ok_iff.1 h).2]
    exact ofText_of_digit_lines (forall_mem_bitDigits _) hlines
  · intro more
    rw [ofBits_eq_ofCharacters, String.toList_append, ofCharacters_append]
    rfl

/-- A low line and a blank stand between three digits, which stand for the same edges on lines of
their own. The first of two characters that do not fit is the fault, and it stays so behind a bit
string. -/
theorem ofBits_reads_digits_grouped :
    let edges : Stimulus := [Edge.shift true, Edge.shift false, Edge.shift true]
    (ofBits "1_0\u30001" = .ok edges ∧
      CutIntoLines "1\n0\n1".toList [['1'], ['0'], ['1']] ∧ ofText "1\n0\n1" = .ok edges) ∧
    ((∀ x ∈ ['0', ' '], FitsBitString x) ∧ ¬FitsBitString '2' ∧
      ofBits "0 2x" = .error (.invalidBit '2')) ∧
    ofBits ("1_0\u30001" ++ "0 2x") = .error (.invalidBit '2') := by
  intro edges
  have hread : ofBits "1_0\u30001" = .ok edges := rfl
  have hlines : CutIntoLines (['1'] ++ '\n' :: (['0'] ++ '\n' :: ['1'])) [['1'], ['0'], ['1']] :=
    .ended (by decide) (.ended (by decide) (.last (by decide) (by decide)))
  have hfront : ∀ x ∈ ['0', ' '], FitsBitString x :=
    List.forall_mem_cons.2 ⟨by decide, List.forall_mem_singleton.2 (by decide)⟩
  have hmisfit : ¬FitsBitString '2' := by decide
  obtain ⟨-, hlined, -, hjoined⟩ := ofBits_reads_digits "1_0\u30001"
  have hfault : ofBits "0 2x" = .error (.invalidBit '2') :=
    ((ofBits_reads_digits "0 2x").2.2.1 _).2 ⟨['0', ' '], '2', ['x'], rfl, hfront, hmisfit, rfl⟩
  refine ⟨⟨hread, hlines, hlined edges hread "1\n0\n1" hlines⟩, ⟨hfront, hmisfit, hfault⟩, ?_⟩
  rw [hjoined "0 2x", hread, hfault]
  rfl

end LutFixture.Stimulus
