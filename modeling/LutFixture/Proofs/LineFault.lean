import LutFixture.Proofs.LineText

/-!
# Why a stimulus text is refused

A text is refused at its first line that is not legal, and for the first thing that is wrong with its
fields (`Stimulus.ofText_eq_error_iff`). In terms of the field table this is a place that cuts the
table in two: nothing is wrong in front of it, and what stands behind it is not looked at. A line
that says nothing is a row without fields, which is legal, so no field is ever found to be missing.
-/

namespace LutFixture

namespace Stimulus

open Text

theorem fieldTable_of_cut {text : List Char} {lines : List (List Char)}
    (h : CutIntoLines text lines) : FieldTable text (lines.map fields) :=
  fieldTable_iff.2 (map_fields_ended h).symm

theorem RowReason.not_legalRow {row : List (List Char)} {reason : String}
    (h : RowReason row reason) : ¬LegalRow row := by
  rintro ⟨hlength, hbits⟩
  cases h with
  | serialIn hfirst => exact hfirst (hbits _ (.head _))
  | strobe hfirst hsecond => exact hsecond (hbits _ (.tail _ (.head _)))
  | trailing =>
      rw [List.length_cons, List.length_cons, List.length_cons] at hlength
      omega

/-- A text is refused with a fault exactly if that names the first row of its table that is not
legal, by its number, and the reason for which that row is refused. -/
theorem ofText_eq_error_iff {text : String} {table : List (List (List Char))} {f : Fault}
    (h : FieldTable text.toList table) :
    ofText text = .error f ↔
      ∃ front row back reason, table = front ++ row :: back ∧ (∀ x ∈ front, LegalRow x) ∧
        ¬LegalRow row ∧ RowReason row reason ∧
        f = .malformedStimulus (front.length + 1) reason := by
  obtain rfl := fieldTable_iff.1 h
  rw [ofText]
  constructor
  · intro herror
    have hillegal : ∃ line ∈ ended (Text.lines text.toList), ¬LegalRow (fields line) := by
      by_contra hlegal
      push Not at hlegal
      rw [ofLines_of_legal 1 hlegal] at herror
      cases herror
    obtain ⟨front, line, back, reason, hlines, hfront, hline⟩ := exists_first_illegal hillegal
    rw [hlines, ofLines_of_reason 1 hfront hline] at herror
    refine ⟨front.map fields, fields line, back.map fields, reason, ?_,
      List.forall_mem_map.2 hfront, hline.not_legalRow, hline, ?_⟩
    · rw [hlines, List.map_append, List.map_cons]
    · rw [← Except.error.inj herror, List.length_map, Nat.add_comm]
  · rintro ⟨front, row, back, reason, htable, hfront, -, hrow, rfl⟩
    obtain ⟨lines, more, hlines, rfl, hmore⟩ := List.map_eq_append_iff.1 htable
    obtain ⟨line, back', rfl, rfl, rfl⟩ := List.map_eq_cons_iff.1 hmore
    rw [hlines, ofLines_of_reason 1 (List.forall_mem_map.1 hfront) hrow, List.length_map,
      Nat.add_comm]

/-- A missing field is never the reason; already the first letter would be another one. -/
theorem RowReason.ne_missing {row : List (List Char)} {reason : String} (h : RowReason row reason)
    (name : String) : reason ≠ (LineFault.missing name).reason := by
  have hhead : reason.toList.head? ≠ some 'm' := by
    cases h with
    | serialIn =>
        rw [String.toList_append]
        nofun
    | strobe =>
        rw [String.toList_append]
        nofun
    | trailing =>
        rw [String.toList_append]
        nofun
  have hmissing : (LineFault.missing name).reason = "missing " ++ name := rfl
  rintro rfl
  apply hhead
  rw [hmissing, String.toList_append]
  rfl

/-- A text that is refused is refused for its first line that does not have at most two fields, each
of them a bit: the fault tells the number of that line and what is wrong with its fields, of which
the first one that is no bit counts, and a third one only if there is none. Another text that has the
same lines up to that one is refused in the same way. That a field is missing is never the reason.
-/
theorem ofText_names_first_fault (text : String) :
    ∃ table, (∀ t, FieldTable text.toList t ↔ t = table) ∧
      (∀ f, ofText text = .error f ↔
        ∃ front row back reason, table = front ++ row :: back ∧ (∀ x ∈ front, LegalRow x) ∧
          ¬LegalRow row ∧ RowReason row reason ∧
          f = .malformedStimulus (front.length + 1) reason) ∧
      (∀ number reason lines, ofText text = .error (.malformedStimulus number reason) →
        CutIntoLines text.toList lines → ∀ (text' : String) (lines' : List (List Char)),
          CutIntoLines text'.toList lines' → lines'.take number = lines.take number →
            ofText text' = ofText text) ∧
      ∀ number name,
        ofText text ≠ .error (.malformedStimulus number (LineFault.missing name).reason) := by
  have htable : FieldTable text.toList ((ended (Text.lines text.toList)).map fields) :=
    fieldTable_iff.2 rfl
  refine ⟨_, fun t => fieldTable_iff, fun f => ofText_eq_error_iff htable, ?_, ?_⟩
  · intro number reason lines herror hlines text' lines' hlines' htake
    rw [herror]
    have hrefused := (ofText_eq_error_iff (fieldTable_of_cut hlines)).1 herror
    obtain ⟨front, row, back, _, hrows, hfront, hillegal, hrow, hfault⟩ := hrefused
    obtain ⟨rfl, rfl⟩ := Fault.malformedStimulus.inj hfault
    -- The row at the fault and those in front of it are rows of the other text.
    have hrows' : lines'.map fields =
        front ++ row :: (lines'.map fields).drop (front.length + 1) := by
      have hfirst : (lines'.map fields).take (front.length + 1) = front ++ [row] := by
        rw [← List.map_take, htake, List.map_take, hrows, List.append_cons]
        apply List.take_left'
        rw [List.length_append, List.length_singleton]
      conv => lhs; rw [← List.take_append_drop (front.length + 1) (lines'.map fields), hfirst]
      rw [List.append_assoc, List.singleton_append]
    exact (ofText_eq_error_iff (fieldTable_of_cut hlines')).2
      ⟨front, row, _, reason, hrows', hfront, hillegal, hrow, rfl⟩
  · intro number name herror
    obtain ⟨_, _, _, _, -, -, -, hrow, hfault⟩ := (ofText_eq_error_iff htable).1 herror
    exact hrow.ne_missing name (Fault.malformedStimulus.inj hfault).2.symm

/-- The comment and the empty line count, and so the fault is on line three, where the strobe is
found before the third field. The worse line behind it is never read. -/
theorem ofText_names_first_fault_third_line :
    let fault : Fault := .malformedStimulus 3 "strobe must be 0 or 1, got \"x\""
    ofText "1 # on\n\n0 x 1\n2" = .error fault ∧ ofText "1 # on\n\n0 x 1" = .error fault := by
  intro fault
  have hshown : quoted ['x'] = "\"x\"" :=
    quoted_of_isPlain (List.forall_mem_singleton.2
      ⟨by decide +kernel, by decide +kernel, by decide, by decide⟩)
  have hreason :
      "strobe must be 0 or 1, got \"x\"" = "strobe must be 0 or 1, got " ++ quoted ['x'] := by
    rw [hshown]
    rfl
  have herror : ofText "1 # on\n\n0 x 1\n2" = .error fault := by
    simp only [fault, hreason]
    rfl
  have hlines : CutIntoLines
      ("1 # on".toList ++ '\n' :: ([] ++ '\n' :: ("0 x 1".toList ++ '\n' :: ['2'])))
      ["1 # on".toList, [], "0 x 1".toList, ['2']] :=
    .ended (by decide) (.ended (by decide) (.ended (by decide) (.last (by decide) (by decide))))
  have hlines' : CutIntoLines ("1 # on".toList ++ '\n' :: ([] ++ '\n' :: "0 x 1".toList))
      ["1 # on".toList, [], "0 x 1".toList] :=
    .ended (by decide) (.ended (by decide) (.last (by decide) (by decide)))
  obtain ⟨-, -, -, hsame, -⟩ := ofText_names_first_fault "1 # on\n\n0 x 1\n2"
  have hshort := hsame 3 _ _ herror hlines "1 # on\n\n0 x 1" _ hlines' rfl
  exact ⟨herror, hshort.trans herror⟩

end Stimulus

end LutFixture
