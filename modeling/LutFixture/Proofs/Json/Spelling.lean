import LutFixture.Json.Numeral
import LutFixture.Json.Printer
import Mathlib.Data.Bool.AllAny
import Mathlib.Data.List.Forall2

/-!
# The texts of a JSON value

A value is a sequence of tokens, `Value.tokens`. A text of the value has these tokens in their
order, each in one of its spellings, and blanks anywhere between them (`Spelling`). Words, marks
and numbers are spelled in one way only, since a number is kept as it is written. A string is
spelled in many: any character may be escaped, by its letter if there is one, or by its UTF-16
units in hexadecimal digits of either case.

A reader drops blanks before it looks at a text. What it finds then is said token by token
(`Spelling.exists_of_cons`) and, for a whole value, by its first character (`Value.Begins`).
-/

namespace LutFixture.Json

/-! ### Tokens -/

/-- The punctuation marks. -/
inductive Mark where
  | openList
  | closeList
  | openObject
  | closeObject
  | comma
  | colon
deriving DecidableEq

namespace Mark

/-- The character of a mark. -/
def char : Mark → Char
  | .openList => '['
  | .closeList => ']'
  | .openObject => '\x7b'
  | .closeObject => '\x7d'
  | .comma => ','
  | .colon => ':'

end Mark

/-- The smallest parts of a text that belong together. -/
inductive Token where
  | mark (m : Mark)
  | null
  | boolean (b : Bool)
  | number (n : Number)
  | string (s : String)

mutual

/-- The tokens of a value. -/
def Value.tokens : Value → List Token
  | .null => [.null]
  | .boolean b => [.boolean b]
  | .number n => [.number n]
  | .string s => [.string s]
  | .array items =>
    .mark .openList :: [.mark .comma].intercalate (itemTokens items) ++ [.mark .closeList]
  | .object members =>
    .mark .openObject :: [.mark .comma].intercalate (memberTokens members) ++ [.mark .closeObject]

/-- The tokens of every item of an array. -/
def itemTokens : List Value → List (List Token)
  | [] => []
  | v :: vs => v.tokens :: itemTokens vs

/-- The tokens of every member of an object. -/
def memberTokens : List (String × Value) → List (List Token)
  | [] => []
  | (k, v) :: ms => (.string k :: .mark .colon :: v.tokens) :: memberTokens ms

end

/-- The tokens of the parts between two brackets that are still to come. A comma stands in front of
each part but the first one of all. -/
def partsAhead : Bool → List (List Token) → List Token
  | true, parts => [.mark .comma].intercalate parts
  | false, parts => parts.flatMap (.mark .comma :: ·)

/-! ### Spellings -/

/-- The character is a hexadecimal digit of the given value, in lower or upper case. -/
inductive HexDigit : Nat → Char → Prop
  | lower {d : Nat} (hd : d < 16) : HexDigit d (Nat.digitChar d)
  | upper {d : Nat} (hd : d < 16) : HexDigit d (Nat.digitChar d).toUpper

/-- The escape of a UTF-16 unit by four hexadecimal digits. -/
inductive UnitEscape : Nat → List Char → Prop
  | digits {a b c d : Nat} {w x y z : Char} (ha : HexDigit a w) (hb : HexDigit b x)
      (hc : HexDigit c y) (hd : HexDigit d z) :
      UnitEscape (0x1000 * a + 0x100 * b + 0x10 * c + d) ['\\', 'u', w, x, y, z]

/-- The UTF-16 units of a character. -/
def utf16 (c : Char) : List Nat :=
  if c.toNat < 0x10000 then [c.toNat]
  else [0xD800 + (c.toNat - 0x10000) / 0x400, 0xDC00 + (c.toNat - 0x10000) % 0x400]

/-- The letters that may stand behind a backslash, and the characters that they stand for. -/
def letterEscapes : List (Char × Char) :=
  [('"', '"'), ('\\', '\\'), ('/', '/'), ('b', '\x08'), ('f', '\x0c'), ('n', '\n'), ('r', '\r'),
    ('t', '\t')]

/-- The ways to write a character inside a string. -/
inductive CharSpelling : Char → List Char → Prop
  | plain {c : Char} (hcontrol : 0x20 ≤ c.toNat) (hquote : c ≠ '"') (hback : c ≠ '\\') :
      CharSpelling c [c]
  | letter {l c : Char} (h : (l, c) ∈ letterEscapes) : CharSpelling c ['\\', l]
  | units {c : Char} {escapes : List (List Char)}
      (h : List.Forall₂ UnitEscape (utf16 c) escapes) : CharSpelling c escapes.flatten

/-- The ways to write characters inside a string. -/
inductive StringSpelling : List Char → List Char → Prop
  | nil : StringSpelling [] []
  | cons {c : Char} {cs w ws : List Char} (hc : CharSpelling c w) (hcs : StringSpelling cs ws) :
      StringSpelling (c :: cs) (w ++ ws)

namespace Token

/-- The ways to write a token. -/
def Spelling : Token → List Char → Prop
  | .mark m, w => w = [m.char]
  | .null, w => w = "null".toList
  | .boolean b, w => w = booleanChars b
  | .number n, w => w = n.chars
  | .string s, w => ∃ body, StringSpelling s.toList body ∧ w = '"' :: body ++ ['"']

end Token

/-- The ways to write tokens one after another, with blanks anywhere between them. -/
inductive Spelling : List Token → List Char → Prop
  | nil : Spelling [] []
  | blank {c : Char} {ts : List Token} {s : List Char} (hc : c ∈ [' ', '\t', '\n', '\r'])
      (h : Spelling ts s) : Spelling ts (c :: s)
  | token {t : Token} {ts : List Token} {w s : List Char} (hw : t.Spelling w)
      (h : Spelling ts s) : Spelling (t :: ts) (w ++ s)

/-- The text is one of the value. -/
def Value.IsText (v : Value) (text : String) : Prop := Spelling v.tokens text.toList

/-- The value begins with the character. -/
def Value.Begins : Value → Char → Prop
  | .null, c => c = 'n'
  | .boolean b, c => c = if b then 't' else 'f'
  | .number _, c => c = '-' ∨ Numeral.isDigit c = true
  | .string _, c => c = '"'
  | .array _, c => c = '['
  | .object _, c => c = '\x7b'

variable {t : Token} {ts k : List Token} {v : Value} {s w : List Char} {m : Mark}

theorem partsAhead_nil (first : Bool) (k : List Token) : partsAhead first [] ++ k = k := by
  cases first <;> rfl

theorem partsAhead_false_cons (part : List Token) (parts : List (List Token)) (k : List Token) :
    partsAhead false (part :: parts) ++ k =
      .mark .comma :: (part ++ (partsAhead false parts ++ k)) := by
  simp [partsAhead]

theorem partsAhead_true_cons (part : List Token) (parts : List (List Token)) (k : List Token) :
    partsAhead true (part :: parts) ++ k = part ++ (partsAhead false parts ++ k) := by
  induction parts generalizing part with
  | nil => simp [partsAhead]
  | cons next parts ih =>
      rw [partsAhead_false_cons, ← ih, partsAhead, List.intercalate_cons_cons, partsAhead]
      simp

theorem tokens_array (items : List Value) (k : List Token) :
    (Value.array items).tokens ++ k =
      .mark .openList :: (partsAhead true (itemTokens items) ++ .mark .closeList :: k) := by
  simp [Value.tokens, partsAhead]

theorem tokens_object (members : List (String × Value)) (k : List Token) :
    (Value.object members).tokens ++ k =
      .mark .openObject :: (partsAhead true (memberTokens members) ++ .mark .closeObject :: k) := by
  simp [Value.tokens, partsAhead]

/-! ### The first character of a token -/

theorem isBlank_iff {c : Char} : isBlank c = true ↔ c ∈ [' ', '\t', '\n', '\r'] := by
  simp [isBlank, or_assoc]

theorem isBlank_of_isDigit {c : Char} (h : Numeral.isDigit c = true) : isBlank c = false := by
  have hblank : ∀ x ∈ [' ', '\t', '\n', '\r'], Numeral.isDigit x = false :=
    List.all_iff_forall_prop.1 (by decide)
  rw [Bool.eq_false_iff, Ne, isBlank_iff]
  intro hc
  rw [hblank c hc] at h
  exact Bool.false_ne_true h

theorem isDigit_of_mem_toDigits {n : Nat} {c : Char} (h : c ∈ Nat.toDigits 10 n) :
    Numeral.isDigit c = true :=
  Nat.isDigit_of_mem_toDigits (by decide) (by decide) h

/-- A number begins with a minus or a digit. -/
theorem exists_chars_eq_cons (n : Number) :
    ∃ c r, n.chars = c :: r ∧ (c = '-' ∨ Numeral.isDigit c = true) := by
  unfold Number.chars
  cases n.negative with
  | true => exact ⟨'-', _, rfl, .inl rfl⟩
  | false =>
      cases hdigits : Nat.toDigits 10 n.whole with
      | nil => exact absurd hdigits Nat.toDigits_ne_nil
      | cons c r =>
          have hc : c ∈ Nat.toDigits 10 n.whole := by rw [hdigits]; exact List.mem_cons_self
          exact ⟨c, _, rfl, .inr (isDigit_of_mem_toDigits hc)⟩

theorem Token.Spelling.exists_eq_cons (h : t.Spelling w) :
    ∃ c r, w = c :: r ∧ isBlank c = false := by
  cases t with
  | mark m => exact ⟨m.char, [], h, by cases m <;> rfl⟩
  | null => exact ⟨'n', _, h, rfl⟩
  | boolean b => cases b <;> exact ⟨_, _, h, rfl⟩
  | number n =>
      obtain ⟨c, r, hn, hc⟩ := exists_chars_eq_cons n
      refine ⟨c, r, h.trans hn, ?_⟩
      rcases hc with rfl | hc
      · rfl
      · exact isBlank_of_isDigit hc
  | string s =>
      obtain ⟨body, -, hw⟩ := h
      exact ⟨'"', _, hw, rfl⟩

/-! ### What stands behind the blanks -/

theorem dropBlanks_cons_of_mem {c : Char} (hc : c ∈ [' ', '\t', '\n', '\r']) (s : List Char) :
    dropBlanks (c :: s) = dropBlanks s :=
  List.dropWhile_cons_of_pos (isBlank_iff.2 hc)

/-- When the blanks are gone, the first token stands in front. -/
theorem Spelling.exists_of_cons (h : Spelling (t :: ts) s) :
    ∃ w rest, t.Spelling w ∧ Spelling ts rest ∧ dropBlanks s = w ++ rest := by
  generalize hts : t :: ts = all at h
  induction h with
  | nil => cases hts
  | blank hc _ ih =>
      obtain ⟨w, rest, hw, hrest, hs⟩ := ih hts
      exact ⟨w, rest, hw, hrest, (dropBlanks_cons_of_mem hc _).trans hs⟩
  | @token _ _ w rest hw hrest =>
      obtain ⟨rfl, rfl⟩ := List.cons.inj hts
      refine ⟨w, rest, hw, hrest, ?_⟩
      obtain ⟨c, r, rfl, hc⟩ := hw.exists_eq_cons
      exact List.dropWhile_cons_of_neg (by simp [hc])

theorem Spelling.dropBlanks_eq_nil (h : Spelling [] s) : dropBlanks s = [] := by
  generalize hts : ([] : List Token) = all at h
  induction h with
  | nil => rfl
  | blank hc _ ih => exact (dropBlanks_cons_of_mem hc _).trans (ih hts)
  | token => cases hts

theorem Spelling.behind_blanks (h : Spelling ts s) : Spelling ts (dropBlanks s) := by
  cases ts with
  | nil =>
      rw [h.dropBlanks_eq_nil]
      exact .nil
  | cons t ts =>
      obtain ⟨w, rest, hw, hrest, hs⟩ := h.exists_of_cons
      rw [hs]
      exact .token hw hrest

theorem Spelling.exists_of_mark (h : Spelling (.mark m :: ts) s) :
    ∃ rest, dropBlanks s = m.char :: rest ∧ Spelling ts rest := by
  obtain ⟨w, rest, rfl, hrest, hs⟩ := h.exists_of_cons
  exact ⟨rest, hs, hrest⟩

theorem Spelling.exists_of_string {x : String} (h : Spelling (.string x :: ts) s) :
    ∃ body rest, dropBlanks s = '"' :: body ++ '"' :: rest ∧ StringSpelling x.toList body ∧
      Spelling ts rest := by
  obtain ⟨w, rest, ⟨body, hbody, rfl⟩, hrest, hs⟩ := h.exists_of_cons
  exact ⟨body, rest, by simpa using hs, hbody, hrest⟩

theorem Spelling.exists_begins (h : Spelling (v.tokens ++ k) s) :
    ∃ c r, dropBlanks s = c :: r ∧ v.Begins c := by
  cases v with
  | null =>
      obtain ⟨w, rest, rfl, -, hs⟩ := h.exists_of_cons
      exact ⟨'n', _, hs, rfl⟩
  | boolean b =>
      obtain ⟨w, rest, rfl, -, hs⟩ := h.exists_of_cons
      cases b <;> exact ⟨_, _, hs, rfl⟩
  | number n =>
      obtain ⟨w, rest, rfl, -, hs⟩ := h.exists_of_cons
      obtain ⟨c, r, hn, hc⟩ := exists_chars_eq_cons n
      exact ⟨c, r ++ rest, by rw [hs, hn]; rfl, hc⟩
  | string x =>
      obtain ⟨body, rest, hs, -⟩ := h.exists_of_string
      exact ⟨'"', _, hs, rfl⟩
  | array items =>
      obtain ⟨rest, hs, -⟩ := h.exists_of_mark
      exact ⟨'[', rest, hs, rfl⟩
  | object members =>
      obtain ⟨rest, hs, -⟩ := h.exists_of_mark
      exact ⟨'\x7b', rest, hs, rfl⟩

end LutFixture.Json
