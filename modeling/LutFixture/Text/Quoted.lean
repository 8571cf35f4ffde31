import LutFixture.Text.GraphemeExtend
import LutFixture.Text.Printable

/-!
# Quoted text

How a message shows a text that somebody else wrote: between quotation marks, with everything
escaped that would not be seen as itself. Four control characters and the backslash have a short
escape; the quotation mark in use is escaped, the other one is not; a character that is not
printable, or that would attach to what stands before it, is written by its code point.
-/

namespace LutFixture.Text

/-- An escape by code point: lower-case hexadecimal digits without leading zeros, in braces. -/
def codePointEscape (c : Char) : List Char :=
  '\\' :: 'u' :: '\x7b' :: Nat.toDigits 16 c.toNat ++ ['\x7d']

/-- One character as it stands between quotation marks of the given kind. -/
def escaped (mark c : Char) : List Char :=
  if c = '\x00' then ['\\', '0']
  else if c = '\t' then ['\\', 't']
  else if c = '\r' then ['\\', 'r']
  else if c = '\n' then ['\\', 'n']
  else if c = '\\' ∨ c = mark then ['\\', c]
  else if attaches c ∨ !isPrintable c then codePointEscape c
  else [c]

/-- A text between double quotation marks. -/
def quoted (s : List Char) : String := String.ofList ('"' :: s.flatMap (escaped '"') ++ ['"'])

/-- A character between single quotation marks. -/
def quotedChar (c : Char) : String := String.ofList ('\'' :: escaped '\'' c ++ ['\''])

@[simp] theorem quoted_nil : quoted [] = "\"\"" := rfl

/-- The character is seen as itself between quotation marks of the given kind. -/
structure IsPlain (mark c : Char) : Prop where
  printable : isPrintable c = true
  alone : attaches c = false
  ne_backslash : c ≠ '\\'
  ne_mark : c ≠ mark

theorem IsPlain.escaped_eq {mark c : Char} (h : IsPlain mark c) : escaped mark c = [c] := by
  have hcontrol : ∀ d : Char, d.toNat < 0x20 → c ≠ d := by
    rintro d hd rfl
    exact Bool.false_ne_true ((isPrintable_of_lt hd).symm.trans h.printable)
  have hzero := hcontrol '\x00' (by decide)
  have htab := hcontrol '\t' (by decide)
  have hreturn := hcontrol '\r' (by decide)
  have hfeed := hcontrol '\n' (by decide)
  simp [escaped, hzero, htab, hreturn, hfeed, h.printable, h.alone, h.ne_backslash, h.ne_mark]

/-- A text of plain characters is shown as it is. -/
theorem quoted_of_isPlain {s : List Char} (h : ∀ c ∈ s, IsPlain '"' c) :
    quoted s = "\"" ++ String.ofList s ++ "\"" := by
  have hescaped : s.flatMap (escaped '"') = s := by
    induction s with
    | nil => rfl
    | cons c s ih =>
        obtain ⟨hc, hs⟩ := List.forall_mem_cons.1 h
        rw [List.flatMap_cons, hc.escaped_eq, ih hs, List.singleton_append]
  rw [quoted, hescaped, ← String.toList_inj]
  simp

end LutFixture.Text
