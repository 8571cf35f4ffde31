import LutFixture.Proofs.Words
import LutFixture.Stimulus.LineText
import Mathlib.Data.List.Forall2

/-!
# What the line format accepts

`CutIntoLines` says what the lines of a text are, and `FieldTable` what their fields are, line by
line: the maximal runs in front of the first number sign. A text is read exactly if every line has
at most two fields and every field is a bit (`ofText_accepts_fieldTable`), and the edges are the
rows of the table that are not empty.

Reading itself goes about it in smaller steps, none of which shows in the table: a carriage return
is dropped with the line feed behind it, and a line is trimmed before it is cut into words.
-/

namespace LutFixture

namespace Text

/-- The lines of a text: each one is ended by a line feed, except that the last one may also be
ended by the end of the text if it is not empty. -/
inductive CutIntoLines : List Char → List (List Char) → Prop
  | nil : CutIntoLines [] []
  | last {line : List Char} (hne : line ≠ []) (hline : '\n' ∉ line) : CutIntoLines line [line]
  | ended {line rest : List Char} {lines : List (List Char)} (hline : '\n' ∉ line)
      (hrest : CutIntoLines rest lines) : CutIntoLines (line ++ '\n' :: rest) (line :: lines)

theorem exists_cutIntoLines (text : List Char) : ∃ lines, CutIntoLines text lines := by
  induction text with
  | nil => exact ⟨[], .nil⟩
  | cons c text ih =>
      obtain ⟨lines, h⟩ := ih
      by_cases hc : c = '\n'
      · subst hc
        exact ⟨[] :: lines, .ended List.not_mem_nil h⟩
      · cases h with
        | nil => exact ⟨[[c]], .last (by simp) (by simpa using Ne.symm hc)⟩
        | last _ hline =>
            exact ⟨[c :: text],
              .last (by simp) (List.not_mem_cons_of_ne_of_not_mem (Ne.symm hc) hline)⟩
        | @ended line _ lines hline hrest =>
            exact ⟨(c :: line) :: lines,
              .ended (List.not_mem_cons_of_ne_of_not_mem (Ne.symm hc) hline) hrest⟩

theorem ended_cons {piece : List Char} {pieces : List (List Char)} (hne : pieces ≠ []) :
    ended (piece :: pieces) = dropReturn piece :: ended pieces := by
  cases pieces with
  | nil => exact absurd rfl hne
  | cons next more => rfl

theorem lines_ne_nil (text : List Char) : lines text ≠ [] := List.cons_ne_nil _ _

theorem lines_append_of_not_mem {line : List Char} (hline : '\n' ∉ line) (rest : List Char) :
    lines (line ++ '\n' :: rest) = line :: lines rest := by
  rw [lines_append_newline, lines, pieces_of_not_mem hline]
  rfl

end Text

namespace Stimulus

open Text

/-- The fields of a line. -/
def fields (line : List Char) : List (List Char) := words (uncommented line)

/-- The fields of a text, line by line. -/
def FieldTable (text : List Char) (table : List (List (List Char))) : Prop :=
  ∃ lines, CutIntoLines text lines ∧
    List.Forall₂ (fun line row => MaximalRuns (line.takeWhile (· != '#')) row) lines table

/-- There are at most two fields, and each of them is a bit. -/
def LegalRow (row : List (List Char)) : Prop :=
  row.length ≤ 2 ∧ ∀ field ∈ row, field = ['0'] ∨ field = ['1']

/-- The reason for which a row is refused. Its first two fields are looked at from left to right, and
a third one only if both are bits. -/
inductive RowReason : List (List Char) → String → Prop
  | serialIn {first : List Char} {more : List (List Char)} (hfirst : ¬(first = ['0'] ∨ first = ['1'])) :
    RowReason (first :: more) ("serial_in must be 0 or 1, got " ++ quoted first)
  | strobe {first second : List Char} {more : List (List Char)}
    (hfirst : first = ['0'] ∨ first = ['1']) (hsecond : ¬(second = ['0'] ∨ second = ['1'])) :
    RowReason (first :: second :: more) ("strobe must be 0 or 1, got " ++ quoted second)
  | trailing {first second third : List Char} {more : List (List Char)}
    (hfirst : first = ['0'] ∨ first = ['1']) (hsecond : second = ['0'] ∨ second = ['1']) :
    RowReason (first :: second :: third :: more) ("unexpected trailing field " ++ quoted third)

/-- The edge of a row with at least one field: the first one is the serial bit and the second one
the strobe, which is off where it is left out. -/
def edgeOfRow (row : List (List Char)) : Edge :=
  ⟨row[0]? = some ['1'], row[1]? = some ['1']⟩

variable {line : List Char}

/-! ### The fields of a line -/

/-- A carriage return at the end of a line is a blank, or part of a comment. -/
theorem fields_dropReturn (line : List Char) : fields (dropReturn line) = fields line := by
  unfold dropReturn
  split
  · rename_i hlast
    obtain ⟨front, rfl⟩ := List.getLast?_eq_some_iff.1 hlast
    have hreturn : ∀ c ∈ ['\r'], isBlank c = true := List.forall_mem_singleton.2 rfl
    rw [List.dropLast_concat, fields, fields, uncommented, uncommented, List.takeWhile_append]
    split
    · rename_i hall
      have hfront := (List.takeWhile_prefix (· != '#') (l := front)).eq_of_length hall
      rw [hfront]
      exact (words_append_of_blank_back front hreturn).symm
    · rfl
  · rfl

theorem map_fields_ended {text : List Char} {lines : List (List Char)}
    (h : CutIntoLines text lines) : (ended (Text.lines text)).map fields = lines.map fields := by
  induction h with
  | nil => rfl
  | last hne hline =>
      rw [Text.lines, pieces_of_not_mem hline]
      simp [ended, hne]
  | ended hline _ ih =>
      rw [lines_append_of_not_mem hline, ended_cons (lines_ne_nil _), List.map_cons, ih,
        fields_dropReturn, List.map_cons]

theorem fieldTable_iff {text : List Char} {table : List (List (List Char))} :
    FieldTable text table ↔ table = (ended (Text.lines text)).map fields := by
  have hrows : ∀ lines : List (List Char),
      List.Forall₂ (fun line row => MaximalRuns (line.takeWhile (· != '#')) row) lines table ↔
        lines.map fields = table := by
    intro lines
    rw [← List.forall₂_eq_eq_eq, List.forall₂_map_left_iff]
    simp only [maximalRuns_iff]
    rfl
  constructor
  · rintro ⟨lines, hcut, htable⟩
    rw [map_fields_ended hcut, (hrows lines).1 htable]
  · rintro rfl
    obtain ⟨lines, hcut⟩ := exists_cutIntoLines text
    exact ⟨lines, hcut, (hrows lines).2 (map_fields_ended hcut).symm⟩

theorem edgeOfLine_eq (line : List Char) :
    edgeOfLine line =
      if fields line = [] then .ok none else (edgeOfFields (fields line)).map some := by
  have hempty : (content line).isEmpty = true ↔ fields line = [] := by
    rw [List.isEmpty_iff]
    exact trim_eq_nil_iff
  have hwords : words (content line) = fields line := words_trim _
  rw [edgeOfLine, hwords]
  by_cases h : fields line = []
  · rw [if_pos (hempty.2 h), if_pos h]
  · rw [if_neg fun hc => h (hempty.1 hc), if_neg h]

/-! ### The edge of a row -/

theorem legalRow_nil : LegalRow [] := ⟨Nat.zero_le 2, by simp⟩

theorem bitField_of_bit {field : List Char} (h : field = ['0'] ∨ field = ['1']) (name : String) :
    bitField name (some field) = .ok (field = ['1']) := by
  rcases h with rfl | rfl <;> rfl

theorem bitField_of_not_bit {field : List Char} (h : ¬(field = ['0'] ∨ field = ['1']))
    (name : String) : bitField name (some field) = .error (.notBit name field) := by
  unfold bitField
  split <;> simp_all

theorem edgeOfFields_of_legal {row : List (List Char)} (hne : row ≠ []) (h : LegalRow row) :
    edgeOfFields row = .ok (edgeOfRow row) := by
  obtain ⟨hlength, hbits⟩ := h
  match row, hne with
  | [first], _ =>
      have hfirst := bitField_of_bit (hbits first (by simp)) "serial_in"
      simp [edgeOfFields, edgeOfRow, hfirst, bind, Except.bind]
  | [first, second], _ =>
      have hfirst := bitField_of_bit (hbits first (by simp)) "serial_in"
      have hsecond := bitField_of_bit (hbits second (by simp)) "strobe"
      simp [edgeOfFields, edgeOfRow, hfirst, hsecond, bind, Except.bind]
  | first :: second :: third :: others, _ => simp at hlength

/-- Every row that is not legal is refused for a reason. -/
theorem exists_rowReason {row : List (List Char)} (h : ¬LegalRow row) :
    ∃ reason, RowReason row reason := by
  match row with
  | [] => exact absurd legalRow_nil h
  | first :: more =>
      by_cases hfirst : first = ['0'] ∨ first = ['1']
      · match more with
        | [] => exact absurd ⟨by simp, by simpa using hfirst⟩ h
        | second :: others =>
            by_cases hsecond : second = ['0'] ∨ second = ['1']
            · match others with
              | [] => exact absurd ⟨by simp, by simpa using ⟨hfirst, hsecond⟩⟩ h
              | third :: _ => exact ⟨_, .trailing hfirst hsecond⟩
            · exact ⟨_, .strobe hfirst hsecond⟩
      · exact ⟨_, .serialIn hfirst⟩

theorem exists_edgeOfFields_eq_error {row : List (List Char)} {reason : String}
    (h : RowReason row reason) : ∃ f, edgeOfFields row = .error f ∧ f.reason = reason := by
  cases h with
  | @serialIn first more hfirst =>
      refine ⟨.notBit "serial_in" first, ?_, rfl⟩
      simp [edgeOfFields, bitField_of_not_bit hfirst, bind, Except.bind]
  | @strobe first second more hfirst hsecond =>
      refine ⟨.notBit "strobe" second, ?_, rfl⟩
      simp [edgeOfFields, bitField_of_bit hfirst, bitField_of_not_bit hsecond, bind, Except.bind]
  | @trailing first second third more hfirst hsecond =>
      refine ⟨.trailing third, ?_, rfl⟩
      simp [edgeOfFields, bitField_of_bit hfirst, bitField_of_bit hsecond, bind, Except.bind]

theorem RowReason.ne_nil {row : List (List Char)} {reason : String} (h : RowReason row reason) :
    row ≠ [] := by
  cases h <;> exact List.cons_ne_nil _ _

/-! ### All lines -/

theorem ofLines_cons (number : Nat) (line : List Char) (lines : List (List Char)) :
    ofLines number (line :: lines) =
      ((edgeOfLine line).mapError fun f => .malformedStimulus number f.reason).bind fun e =>
        (ofLines (number + 1) lines).map (e.toList ++ ·) := by
  rw [ofLines, List.zipIdx_cons, List.mapM_cons, ofLines]
  change Except.map _ (Except.bind (edgeOfNumbered (line, number)) _) =
    (edgeOfNumbered (line, number)).bind _
  cases edgeOfNumbered (line, number) with
  | error f => rfl
  | ok e =>
      change Except.map _ (Except.bind _ fun es => .ok (e :: es)) = Except.map _ _
      cases (lines.zipIdx (number + 1)).mapM edgeOfNumbered with
      | error f => rfl
      | ok es => cases e <;> simp [Except.map, Except.bind]

/-- The edges of the rows that are not empty. -/
def edgesOfTable (table : List (List (List Char))) : Stimulus :=
  (table.filter (· ≠ [])).map edgeOfRow

theorem ofLines_of_legal {lines : List (List Char)} (number : Nat)
    (h : ∀ line ∈ lines, LegalRow (fields line)) :
    ofLines number lines = .ok (edgesOfTable (lines.map fields)) := by
  induction lines generalizing number with
  | nil => rfl
  | cons line lines ih =>
      rw [ofLines_cons, ih _ fun x hx => h x (List.mem_cons_of_mem line hx), edgeOfLine_eq]
      by_cases hempty : fields line = []
      · simp [hempty, edgesOfTable, Except.mapError, Except.bind, Except.map]
      · rw [if_neg hempty, edgeOfFields_of_legal hempty (h line List.mem_cons_self)]
        simp [hempty, edgesOfTable, Except.mapError, Except.bind, Except.map]

/-- Lines are read one after the other, and the numbers go on. -/
theorem ofLines_append (number : Nat) (front back : List (List Char)) :
    ofLines number (front ++ back) =
      (ofLines number front).bind fun edges =>
        (ofLines (number + front.length) back).map (edges ++ ·) := by
  induction front generalizing number with
  | nil =>
      rw [List.nil_append, ofLines_nil, List.length_nil, Nat.add_zero]
      cases ofLines number back <;> rfl
  | cons line front ih =>
      rw [List.cons_append, ofLines_cons, ofLines_cons, ih, List.length_cons,
        Nat.add_comm front.length, ← Nat.add_assoc]
      cases (edgeOfLine line).mapError fun f => Fault.malformedStimulus number f.reason with
      | error f => rfl
      | ok e =>
          cases ofLines (number + 1) front with
          | error f => rfl
          | ok edges =>
              cases ofLines (number + 1 + front.length) back with
              | error f => rfl
              | ok more => simp [Except.bind, Except.map]

/-- Reading ends with the first line that is not legal. -/
theorem ofLines_of_reason {front back : List (List Char)} {reason : String} (number : Nat)
    (hfront : ∀ x ∈ front, LegalRow (fields x)) (hline : RowReason (fields line) reason) :
    ofLines number (front ++ line :: back) =
      .error (.malformedStimulus (number + front.length) reason) := by
  obtain ⟨f, hf, rfl⟩ := exists_edgeOfFields_eq_error hline
  rw [ofLines_append, ofLines_of_legal number hfront, ofLines_cons, edgeOfLine_eq,
    if_neg hline.ne_nil, hf]
  rfl

theorem exists_first_illegal {lines : List (List Char)}
    (h : ∃ line ∈ lines, ¬LegalRow (fields line)) :
    ∃ front line back reason, lines = front ++ line :: back ∧
      (∀ x ∈ front, LegalRow (fields x)) ∧ RowReason (fields line) reason := by
  induction lines with
  | nil => simp at h
  | cons x lines ih =>
      by_cases hx : LegalRow (fields x)
      · obtain ⟨front, line, back, reason, hlines, hfront, hline⟩ := ih (by simpa [hx] using h)
        exact ⟨x :: front, line, back, reason, by rw [hlines, List.cons_append],
          List.forall_mem_cons.2 ⟨hx, hfront⟩, hline⟩
      · obtain ⟨reason, hreason⟩ := exists_rowReason hx
        exact ⟨[], x, lines, reason, rfl, List.forall_mem_nil _, hreason⟩

theorem exists_ofLines_eq_error {lines : List (List Char)} (number : Nat)
    (h : ∃ line ∈ lines, ¬LegalRow (fields line)) : ∃ f, ofLines number lines = .error f := by
  obtain ⟨front, line, back, reason, rfl, hfront, hline⟩ := exists_first_illegal h
  exact ⟨_, ofLines_of_reason number hfront hline⟩

/-- A text has one table of fields. It is read exactly if every line has at most two fields and
every field is a bit, and then every line with a field is an edge. -/
theorem ofText_accepts_fieldTable (text : String) :
    ∃ table, (∀ t, FieldTable text.toList t ↔ t = table) ∧
      ∀ edges, ofText text = .ok edges ↔
        (∀ row ∈ table, LegalRow row) ∧ edges = edgesOfTable table := by
  refine ⟨(ended (Text.lines text.toList)).map fields, fun t => fieldTable_iff, ?_⟩
  intro edges
  rw [List.forall_mem_map, ofText]
  by_cases h : ∀ line ∈ ended (Text.lines text.toList), LegalRow (fields line)
  · rw [ofLines_of_legal 1 h, Except.ok.injEq, eq_comm]
    exact ⟨fun hedges => ⟨h, hedges⟩, fun hedges => hedges.2⟩
  · obtain ⟨f, hf⟩ := exists_ofLines_eq_error 1 (by simpa using h)
    rw [hf]
    constructor
    · rintro ⟨⟩
    · rintro ⟨hlegal, -⟩
      exact absurd hlegal h

end Stimulus

end LutFixture
