import LutFixture.Proofs.LineText

/-!
# What the layout of a stimulus text does not change

Lines are read one by one, and of a line only the fields are seen. So a text may be put behind
another one, on lines of its own: its edges come behind the edges of the other text, and its faults
are as many lines further down (`Stimulus.ofText_joins_texts`). And neither the way in which lines
are ended nor what comments say makes a difference to the edges or to a fault
(`Stimulus.ofText_ignores_returns_and_comments`).

Behind both stands that a text is read as the pieces between its line feeds
(`Stimulus.ofText_eq_ofLines`): that a carriage return belongs to the line feed behind it, and that
nothing behind the last line feed is not a line, cannot be seen in the answer.
-/

namespace LutFixture

namespace Text

/-- The text with a carriage return in front of every line feed. -/
def withReturns (s : List Char) : List Char :=
  s.flatMap fun c => if c = '\n' then ['\r', '\n'] else [c]

/-- A text without its comments, of which the first one has begun already if `comment` holds. A
number sign begins a comment, and the next line feed ends it. -/
def withoutCommentsFrom (comment : Bool) : List Char → List Char
  | [] => []
  | c :: s =>
    if c = '\n' then c :: withoutCommentsFrom false s
    else if comment || c == '#' then withoutCommentsFrom true s
    else c :: withoutCommentsFrom false s

/-- The text without everything from the first number sign of a line up to the end of the line. -/
def withoutComments (s : List Char) : List Char := withoutCommentsFrom false s

variable {line rest : List Char}

/-- What holds of a text of one line, and of a text whenever it holds behind the first line feed,
holds of all texts. -/
theorem induction_on_lines {P : List Char → Prop} (last : ∀ line, '\n' ∉ line → P line)
    (ended : ∀ line rest, '\n' ∉ line → P rest → P (line ++ '\n' :: rest)) (text : List Char) :
    P text := by
  obtain ⟨lines, h⟩ := exists_cutIntoLines text
  induction h with
  | nil => exact last [] List.not_mem_nil
  | last _ hline => exact last _ hline
  | ended hline _ ih => exact ended _ _ hline ih

/-! ### Carriage returns -/

theorem withReturns_append (a b : List Char) :
    withReturns (a ++ b) = withReturns a ++ withReturns b :=
  List.flatMap_append

theorem withReturns_of_not_mem (hline : '\n' ∉ line) : withReturns line = line := by
  induction line with
  | nil => rfl
  | cons c line ih =>
      obtain ⟨hc, hmore⟩ := List.ne_and_not_mem_of_not_mem_cons hline
      rw [withReturns, List.flatMap_cons, if_neg hc.symm]
      exact congrArg (c :: ·) (ih hmore)

theorem lines_withReturns (hline : '\n' ∉ line) (rest : List Char) :
    lines (withReturns (line ++ '\n' :: rest)) = (line ++ ['\r']) :: lines (withReturns rest) := by
  have hreturn : '\n' ∉ line ++ ['\r'] := by simp [hline]
  rw [withReturns_append, withReturns_of_not_mem hline, ← lines_append_of_not_mem hreturn,
    List.append_assoc]
  rfl

/-! ### Comments -/

/-- Inside a comment, nothing is left of a line. -/
theorem withoutCommentsFrom_true_append (hline : '\n' ∉ line)
    (hrest : ∀ c ∈ rest.head?, c = '\n') :
    withoutCommentsFrom true (line ++ rest) = withoutComments rest := by
  induction line with
  | nil =>
      cases rest with
      | nil => rfl
      | cons c rest =>
          obtain rfl := hrest c rfl
          rfl
  | cons c line ih =>
      obtain ⟨hc, hmore⟩ := List.ne_and_not_mem_of_not_mem_cons hline
      rw [List.cons_append, withoutCommentsFrom, if_neg hc.symm, Bool.true_or, if_pos rfl, ih hmore]

theorem withoutComments_append (hline : '\n' ∉ line) (hrest : ∀ c ∈ rest.head?, c = '\n') :
    withoutComments (line ++ rest) = line.takeWhile (· != '#') ++ withoutComments rest := by
  induction line with
  | nil => rfl
  | cons c line ih =>
      obtain ⟨hc, hmore⟩ := List.ne_and_not_mem_of_not_mem_cons hline
      rw [List.cons_append, withoutComments, withoutCommentsFrom, if_neg hc.symm, Bool.false_or]
      by_cases hsign : c = '#'
      · subst hsign
        rw [if_pos (beq_self_eq_true _), withoutCommentsFrom_true_append hmore hrest]
        rfl
      · rw [if_neg (by simpa using hsign), List.takeWhile_cons_of_pos (by simpa using hsign),
          List.cons_append, ← ih hmore]
        rfl

end Text

namespace Stimulus

open Text

variable {lines lines' : List (List Char)}

/-! ### Reading line by line -/

theorem edgeOfLine_dropReturn (line : List Char) :
    edgeOfLine (dropReturn line) = edgeOfLine line := by
  rw [edgeOfLine_eq, edgeOfLine_eq, fields_dropReturn]

theorem ofLines_congr (number : Nat) (h : lines.map fields = lines'.map fields) :
    ofLines number lines = ofLines number lines' := by
  induction lines generalizing number lines' with
  | nil => rw [List.map_eq_nil_iff.1 h.symm]
  | cons line lines ih =>
      obtain ⟨line', rest', rfl, hline, hrest⟩ := List.map_eq_cons_iff.1 h.symm
      rw [ofLines_cons, ofLines_cons, edgeOfLine_eq, edgeOfLine_eq, hline, ih _ hrest.symm]

theorem ofLines_ended (number : Nat) (pieces : List (List Char)) :
    ofLines number (ended pieces) = ofLines number pieces := by
  induction pieces generalizing number with
  | nil => rfl
  | cons piece pieces ih =>
      cases pieces with
      -- The last piece is a line only if something is in it, but an empty line has no edge.
      | nil => cases piece <;> rfl
      | cons next more =>
          rw [ended_cons (List.cons_ne_nil _ _), ofLines_cons, ofLines_cons, edgeOfLine_dropReturn,
            ih]

/-- A text is read as the pieces between its line feeds. -/
theorem ofText_eq_ofLines (text : String) :
    ofText text = ofLines 1 (Text.lines text.toList) :=
  ofLines_ended 1 _

/-- The numbers of the lines matter to nothing but the number in a fault. -/
theorem ofLines_of_numbers (lines : List (List Char)) :
    (∃ edges, ∀ number, ofLines number lines = .ok edges) ∨
      ∃ place reason, ∀ number,
        ofLines number lines = .error (.malformedStimulus (number + place) reason) := by
  by_cases h : ∀ line ∈ lines, LegalRow (fields line)
  · exact .inl ⟨_, fun number => ofLines_of_legal number h⟩
  · obtain ⟨front, line, back, reason, rfl, hfront, hline⟩ :=
      exists_first_illegal (by simpa using h)
    exact .inr ⟨front.length, reason, fun number => ofLines_of_reason number hfront hline⟩

/-! ### Joined texts -/

theorem ofText_append_newline (front back : String) :
    ofText (front ++ "\n" ++ back) = (ofText front).bind fun edges =>
      (ofLines (1 + (front.toList.count '\n' + 1)) (Text.lines back.toList)).map (edges ++ ·) := by
  have hlines : Text.lines (front ++ "\n" ++ back).toList =
      Text.lines front.toList ++ Text.lines back.toList := by
    rw [String.toList_append, String.toList_append, List.append_assoc]
    exact lines_append_newline _ _
  rw [ofText_eq_ofLines, hlines, ofLines_append, ← ofText_eq_ofLines, Text.lines, length_pieces]

/-- A text behind another one, on lines of its own. A fault of the first text stays as it is;
otherwise the edges of both come one behind the other, or a fault of the second text is found as
many lines further down as the first one takes up. -/
theorem ofText_joins_texts (front back : String) :
    (∀ f, ofText front = .error f → ofText (front ++ "\n" ++ back) = .error f) ∧
      ∀ edges, ofText front = .ok edges →
        (∀ more, ofText back = .ok more → ofText (front ++ "\n" ++ back) = .ok (edges ++ more)) ∧
          ∀ f, ofText back = .error f → ∃ number reason, f = .malformedStimulus number reason ∧
            ofText (front ++ "\n" ++ back) =
              .error (.malformedStimulus (number + (front.toList.count '\n' + 1)) reason) := by
  rw [ofText_append_newline, ofText_eq_ofLines back]
  refine ⟨?_, ?_⟩
  · intro f hfront
    rw [hfront]
    rfl
  · intro edges hfront
    rw [hfront]
    rcases ofLines_of_numbers (Text.lines back.toList) with ⟨more, hback⟩ | ⟨place, reason, hback⟩
    · rw [hback, hback]
      refine ⟨?_, nofun⟩
      rintro _ ⟨⟩
      rfl
    · rw [hback, hback]
      refine ⟨nofun, ?_⟩
      rintro _ ⟨⟩
      refine ⟨1 + place, reason, rfl, ?_⟩
      rw [Nat.add_right_comm]
      rfl

/-- The first text ends inside a comment, behind a carriage return; its two lines are counted in
front of the line of the fault. A first text with a fault of its own keeps it. -/
theorem ofText_joins_texts_comment_and_fault :
    ofText ("1\n0 1 # on\r" ++ "\n" ++ "\n0") =
        .ok [Edge.shift true, Edge.latch false, Edge.shift false] ∧
      ofText ("1\n0 1 # on\r" ++ "\n" ++ "0\n2") =
        .error (.malformedStimulus 4 ("serial_in must be 0 or 1, got " ++ quoted ['2'])) ∧
      ofText ("2" ++ "\n" ++ "3") =
        .error (.malformedStimulus 1 ("serial_in must be 0 or 1, got " ++ quoted ['2'])) := by
  have hfront : ofText "1\n0 1 # on\r" = .ok [Edge.shift true, Edge.latch false] := rfl
  have hblank : ofText "\n0" = .ok [Edge.shift false] := rfl
  have hfault : ofText "0\n2" =
      .error (.malformedStimulus 2 ("serial_in must be 0 or 1, got " ++ quoted ['2'])) := rfl
  refine ⟨((ofText_joins_texts _ "\n0").2 _ hfront).1 _ hblank, ?_,
    (ofText_joins_texts "2" "3").1 _ rfl⟩
  obtain ⟨_, _, hnumber, hjoined⟩ := ((ofText_joins_texts _ "0\n2").2 _ hfront).2 _ hfault
  obtain ⟨rfl, rfl⟩ := Fault.malformedStimulus.inj hnumber
  exact hjoined

/-! ### Line ends and comments -/

theorem fields_append_return (line : List Char) : fields (line ++ ['\r']) = fields line := by
  rw [← fields_dropReturn, dropReturn, if_pos List.getLast?_concat, List.dropLast_concat]

theorem fields_uncommented (line : List Char) :
    fields (line.takeWhile (· != '#')) = fields line := by
  rw [fields, uncommented, List.takeWhile_idem]
  rfl

theorem map_fields_lines_withReturns (text : List Char) :
    (Text.lines (withReturns text)).map fields = (Text.lines text).map fields := by
  induction text using induction_on_lines with
  | last line hline => rw [withReturns_of_not_mem hline]
  | ended line rest hline ih =>
      rw [lines_withReturns hline, lines_append_of_not_mem hline, List.map_cons, List.map_cons, ih,
        fields_append_return]

theorem newline_not_mem_takeWhile {line : List Char} (hline : '\n' ∉ line) :
    '\n' ∉ line.takeWhile (· != '#') :=
  fun h => hline (List.takeWhile_subset _ h)

theorem map_fields_lines_withoutComments (text : List Char) :
    (Text.lines (withoutComments text)).map fields = (Text.lines text).map fields := by
  induction text using induction_on_lines with
  | last line hline =>
      have hwhole : withoutComments line = line.takeWhile (· != '#') := by
        have hnothing : ∀ c ∈ ([] : List Char).head?, c = '\n' := by simp
        simpa [withoutComments, withoutCommentsFrom] using withoutComments_append hline hnothing
      rw [hwhole, Text.lines, Text.lines, pieces_of_not_mem (newline_not_mem_takeWhile hline),
        pieces_of_not_mem hline, List.map_singleton, List.map_singleton, fields_uncommented]
  | ended line rest hline ih =>
      have hrest : withoutComments ('\n' :: rest) = '\n' :: withoutComments rest := rfl
      rw [withoutComments_append hline (by simp), hrest,
        lines_append_of_not_mem (newline_not_mem_takeWhile hline), lines_append_of_not_mem hline,
        List.map_cons, List.map_cons, ih, fields_uncommented]

/-- A text stands for the same edges, or is refused for the same fault on the same line, if every
line feed gets a carriage return in front of it, and if the comments are left out. -/
theorem ofText_ignores_returns_and_comments (text : String) :
    ofText (String.ofList (withReturns text.toList)) = ofText text ∧
      ofText (String.ofList (withoutComments text.toList)) = ofText text := by
  rw [ofText_eq_ofLines, ofText_eq_ofLines, ofText_eq_ofLines, String.toList_ofList,
    String.toList_ofList]
  exact ⟨ofLines_congr 1 (map_fields_lines_withReturns _),
    ofLines_congr 1 (map_fields_lines_withoutComments _)⟩

end Stimulus

end LutFixture
