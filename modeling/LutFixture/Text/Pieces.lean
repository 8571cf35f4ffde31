/-!
# Pieces of a text

`pieces` cuts a text at every occurrence of a mark. The marks are left out, and the pieces between
them are kept even where they are empty, so there is always one piece more than there are marks.
-/

namespace LutFixture.Text

/-- A piece that may still grow at its front, and the pieces behind it; a mark starts a new one. -/
def putInPieces (mark c : Char) : List Char × List (List Char) → List Char × List (List Char)
  | (piece, rest) => if c = mark then ([], piece :: rest) else (c :: piece, rest)

/-- The pieces of a text between the occurrences of a mark. -/
def pieces (mark : Char) (s : List Char) : List (List Char) :=
  let (piece, rest) := s.foldr (putInPieces mark) ([], [])
  piece :: rest

@[simp] theorem pieces_nil (mark : Char) : pieces mark [] = [[]] := rfl

theorem pieces_cons_mark (mark : Char) (s : List Char) :
    pieces mark (mark :: s) = [] :: pieces mark s := by
  simp [pieces, putInPieces]

theorem pieces_append_mark (mark : Char) (a b : List Char) :
    pieces mark (a ++ mark :: b) = pieces mark a ++ pieces mark b := by
  induction a with
  | nil => exact pieces_cons_mark mark b
  | cons c a ih =>
    by_cases h : c = mark
    · subst h
      simpa [pieces_cons_mark] using ih
    · simp only [pieces, List.cons_append, List.foldr_cons, putInPieces, h, if_false] at ih ⊢
      simpa using ih

theorem length_pieces (mark : Char) (s : List Char) :
    (pieces mark s).length = s.count mark + 1 := by
  induction s with
  | nil => rfl
  | cons c s ih =>
    by_cases h : c = mark
    · subst h
      rw [pieces_cons_mark, List.length_cons, ih, List.count_cons_self]
    · simp only [pieces, List.foldr_cons, putInPieces, h, if_false] at ih ⊢
      rw [List.count_cons_of_ne h]
      exact ih

/-- A text without a mark is one piece. -/
theorem pieces_of_not_mem {mark : Char} {s : List Char} (h : mark ∉ s) : pieces mark s = [s] := by
  induction s with
  | nil => rfl
  | cons c s ih =>
    simp only [List.mem_cons, not_or] at h
    have hs := ih h.2
    simp only [pieces, List.foldr_cons, putInPieces, Ne.symm h.1, if_false] at hs ⊢
    simpa using hs

end LutFixture.Text
