import LutFixture.Json.Reader
import LutFixture.Text.Natural

/-!
# Strings

A string is read up to its closing quotation mark, with every escape replaced by what it stands
for. An escape by code point may be the first half of a surrogate pair; then a second one has to
follow. Control characters have to be escaped.
-/

namespace LutFixture.Json

/-- The number that hexadecimal digits write. -/
def hexValue? (digits : List Char) : Option Nat :=
  digits.foldl (fun n c => n.bind fun n => (Text.hexDigit? c).map (16 * n + ·)) (some 0)

/-- The number that the next four bytes write as hexadecimal digits. With fewer than four bytes
left the text has ended too early. -/
def hexQuad (s : List Char) : Reading Nat :=
  if byteCount (s.take 4) < 4 then .error (.before .endInString [])
  else
    match hexValue? (s.take 4) with
    | some n => .ok (n, s.drop 4)
    | none => .error ⟨.invalidEscape, s, 4⟩

theorem length_of_hexQuad {s rest : List Char} {n : Nat} (h : hexQuad s = .ok (n, rest)) :
    rest.length ≤ s.length := by
  unfold hexQuad at h
  split at h
  · simp at h
  · split at h
    · obtain ⟨-, rfl⟩ := by simpa using h
      simp
    · simp at h

/-- The first half of a surrogate pair. -/
def isHighSurrogate (n : Nat) : Bool := 0xD800 ≤ n && n ≤ 0xDBFF

/-- The second half of a surrogate pair. -/
def isLowSurrogate (n : Nat) : Bool := 0xDC00 ≤ n && n ≤ 0xDFFF

/-- The character that a surrogate pair stands for. -/
def ofSurrogates (high low : Nat) : Char :=
  Char.ofNat (0x10000 + (high - 0xD800) * 0x400 + (low - 0xDC00))

/-- The second half of a surrogate pair, with its own backslash, behind the first half. -/
def secondHalf (high : Nat) : List Char → Reading Char
  | [] => .error (.before .endInString [])
  | ['\\'] => .error (.before .endInString [])
  | '\\' :: 'u' :: s =>
    match hexQuad s with
    | .error e => .error e
    | .ok (low, rest) =>
      if isLowSurrogate low then .ok (ofSurrogates high low, rest)
      else .error (.before .loneSurrogate rest)
  | '\\' :: s => .error (.on .unfinishedSurrogate s)
  | s => .error (.on .unfinishedSurrogate s)

/-- An escape by code point, behind its letter. -/
def codePoint (s : List Char) : Reading Char :=
  match hexQuad s with
  | .error e => .error e
  | .ok (n, rest) =>
    if isLowSurrogate n then .error (.before .loneSurrogate rest)
    else if isHighSurrogate n then secondHalf n rest
    else .ok (Char.ofNat n, rest)

/-- The character that a letter stands for behind a backslash. -/
def shortEscape? : Char → Option Char
  | '"' => some '"'
  | '\\' => some '\\'
  | '/' => some '/'
  | 'b' => some '\x08'
  | 'f' => some '\x0c'
  | 'n' => some '\n'
  | 'r' => some '\r'
  | 't' => some '\t'
  | _ => none

/-- An escape, behind its backslash. -/
def escape : List Char → Reading Char
  | [] => .error (.before .endInString [])
  | c :: s =>
    match shortEscape? c with
    | some x => .ok (x, s)
    | none => if c = 'u' then codePoint s else .error (.on .invalidEscape (c :: s))

theorem length_of_secondHalf {high : Nat} {s rest : List Char} {c : Char}
    (h : secondHalf high s = .ok (c, rest)) : rest.length ≤ s.length := by
  unfold secondHalf at h
  split at h
  · simp at h
  · simp at h
  · split at h
    · simp at h
    · rename_i hq
      split at h
      · obtain ⟨-, rfl⟩ := by simpa using h
        have := length_of_hexQuad hq
        simp only [List.length_cons]
        omega
      · simp at h
  · simp at h
  · simp at h

theorem length_of_codePoint {s rest : List Char} {c : Char} (h : codePoint s = .ok (c, rest)) :
    rest.length ≤ s.length := by
  unfold codePoint at h
  split at h
  · simp at h
  · rename_i hq
    have hl := length_of_hexQuad hq
    split at h
    · simp at h
    · split at h
      · have := length_of_secondHalf h
        omega
      · obtain ⟨-, rfl⟩ := by simpa using h
        exact hl

theorem length_of_escape {s rest : List Char} {c : Char} (h : escape s = .ok (c, rest)) :
    rest.length < s.length := by
  cases s with
  | nil => simp [escape] at h
  | cons x s =>
    simp only [escape] at h
    split at h
    · obtain ⟨-, rfl⟩ := by simpa using h
      simp
    · split at h
      · have := length_of_codePoint h
        simp only [List.length_cons]
        omega
      · simp at h

/-- The character has to be escaped inside a string. -/
def isControl (c : Char) : Bool := c.toNat < 0x20

/-- What is left of a string, behind characters that are given, and kept, in reverse. -/
def stringOnto (done : List Char) (s : List Char) : Reading (List Char) :=
  match s with
  | [] => .error (.before .endInString [])
  | c :: s =>
    if c = '"' then .ok (done.reverse, s)
    else if c = '\\' then
      match _h : escape s with
      | .error e => .error e
      | .ok (x, rest) => stringOnto (x :: done) rest
    else if isControl c then .error (.on .controlCharacter (c :: s))
    else stringOnto (c :: done) s
termination_by s.length
decreasing_by
  · have := length_of_escape _h
    simp only [List.length_cons]
    omega
  · simp

/-- The characters of a string, behind its opening quotation mark. -/
def string (s : List Char) : Reading (List Char) := stringOnto [] s

theorem length_of_stringOnto {done s a rest : List Char}
    (h : stringOnto done s = .ok (a, rest)) : rest.length < s.length := by
  fun_induction stringOnto done s with
  | case1 => simp at h
  | case2 =>
    obtain ⟨-, rfl⟩ := by simpa using h
    simp
  | case3 => simp at h
  | case4 done s x r hr hc ih =>
    have := length_of_escape hr
    have := ih h
    simp only [List.length_cons]
    omega
  | case5 => simp at h
  | case6 done c s hc hb hn ih =>
    have := ih h
    simp only [List.length_cons]
    omega

theorem length_of_string {s a rest : List Char} (h : string s = .ok (a, rest)) :
    rest.length < s.length := length_of_stringOnto h

end LutFixture.Json
