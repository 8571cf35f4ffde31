import LutFixture.Text.Pieces
import LutFixture.Text.Ranges

/-!
# Blanks, words and lines

Blanks are the characters with the Unicode property White_Space. `words` cuts a text into its
maximal runs of other characters; `trim` drops the blanks at both ends; `lines` cuts a text at
line feeds, and `ended` turns these pieces into the lines of a text file. The text formats of this
library are stated with these cuts and with nothing else.
-/

namespace LutFixture.Text

/-- The code points with the property White_Space. -/
def blankRanges : List (Nat × Nat) :=
  [(0x9, 0xD), (0x20, 0x20), (0x85, 0x85), (0xA0, 0xA0), (0x1680, 0x1680), (0x2000, 0x200A),
    (0x2028, 0x2029), (0x202F, 0x202F), (0x205F, 0x205F), (0x3000, 0x3000)]

/-- The character has the property White_Space. -/
def isBlank (c : Char) : Bool := inRanges blankRanges c

/-- The text without the blanks at its two ends. -/
def trim (s : List Char) : List Char :=
  ((s.dropWhile isBlank).reverse.dropWhile isBlank).reverse

/-- A word that may still grow at its front, and the finished words behind it; the character in
front of them either belongs to the word or ends it. -/
def putInWords (c : Char) : List Char × List (List Char) → List Char × List (List Char)
  | (word, rest) =>
    if isBlank c then ([], if word.isEmpty then rest else word :: rest) else (c :: word, rest)

/-- The maximal runs of characters that are not blanks. -/
def words (s : List Char) : List (List Char) :=
  let (word, rest) := s.foldr putInWords ([], [])
  if word.isEmpty then rest else word :: rest

/-- The lines of a text, without their line feeds. An empty piece behind the last line feed counts
as a line here. -/
def lines (s : List Char) : List (List Char) := pieces '\n' s

/-- A line without the carriage return that it may end with. -/
def dropReturn (line : List Char) : List Char :=
  if line.getLast? = some '\r' then line.dropLast else line

/-- The lines among the pieces between line feeds. Every piece but the last one is ended by a line
feed, which takes a carriage return right before it along; what is left behind the last line feed
is a line only if there is something. -/
def ended : List (List Char) → List (List Char)
  | [] => []
  | [left] => if left.isEmpty then [] else [left]
  | piece :: next :: more => dropReturn piece :: ended (next :: more)

@[simp] theorem words_nil : words [] = [] := rfl

theorem words_cons_blank {c : Char} (s : List Char) (h : isBlank c = true) :
    words (c :: s) = words s := by
  simp [words, putInWords, h]

@[simp] theorem lines_nil : lines [] = [[]] := rfl

theorem lines_cons_newline (s : List Char) : lines ('\n' :: s) = [] :: lines s :=
  pieces_cons_mark '\n' s

theorem lines_append_newline (a b : List Char) :
    lines (a ++ '\n' :: b) = lines a ++ lines b :=
  pieces_append_mark '\n' a b

end LutFixture.Text
