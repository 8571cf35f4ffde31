import LutFixture.Json.Numeral
import LutFixture.Json.String
import LutFixture.Json.Word

/-!
# Passing over a value

A value that nobody wants is passed over with a look at its form only: numbers have no range, and
the halves of a surrogate pair need not meet. The brackets that are open at a point are kept in a
list, so that values may nest without limit.
-/

namespace LutFixture.Json.Skip

/-- What is left of a string whose opening quotation mark has been read. -/
def string (s : List Char) : Except Stop (List Char) :=
  match s with
  | [] => .error (.before .endInString [])
  | '"' :: s => .ok s
  | ['\\'] => .error (.before .endInString [])
  | '\\' :: 'u' :: s =>
    match _h : hexQuad s with
    | .error e => .error e
    | .ok (_, rest) => string rest
  | '\\' :: c :: s =>
    if (shortEscape? c).isSome then string s else .error (.on .invalidEscape (c :: s))
  | c :: s => if isControl c then .error (.before .controlCharacter (c :: s)) else string s
termination_by s.length
decreasing_by
  · have := length_of_hexQuad _h
    simp only [List.length_cons]
    omega
  · simp only [List.length_cons]
    omega
  · simp

/-- What is left behind the exponent of a number; its marker and its sign have been read. -/
def exponentDigits (s : List Char) : Except Stop (List Char) :=
  match s with
  | [] => .error (.before .invalidNumber [])
  | c :: r =>
    if Numeral.isDigit c then .ok (r.dropWhile Numeral.isDigit)
    else .error (.on .invalidNumber (c :: r))

/-- What is left behind the exponent of a number; its marker has been read. -/
def exponentPart : List Char → Except Stop (List Char)
  | '+' :: s => exponentDigits s
  | '-' :: s => exponentDigits s
  | s => exponentDigits s

/-- What is left behind the exponent of a number, if it has one. -/
def scaled : List Char → Except Stop (List Char)
  | [] => .ok []
  | c :: s => if c = 'e' ∨ c = 'E' then exponentPart s else .ok (c :: s)

/-- What is left behind a fraction and an exponent, if there are any. -/
def afterWhole : List Char → Except Stop (List Char)
  | [] => .ok []
  | c :: s =>
    if c = '.' then
      if (s.takeWhile Numeral.isDigit).isEmpty then .error (.on .invalidNumber s)
      else scaled (s.dropWhile Numeral.isDigit)
    else scaled (c :: s)

/-- What is left behind a number whose sign has been read. -/
def magnitude : List Char → Except Stop (List Char)
  | [] => .error (.before .invalidNumber [])
  | c :: s =>
    if c = '0' then
      if (s.takeWhile Numeral.isDigit).isEmpty then afterWhole s else .error (.on .invalidNumber s)
    else if Numeral.isDigit c then afterWhole (s.dropWhile Numeral.isDigit)
    else .error (.on .invalidNumber (c :: s))

/-- A bracket that has been opened. -/
inductive Frame where
  | list
  | object
deriving DecidableEq, Repr

namespace Frame

/-- The bracket that closes this one. -/
def closing : Frame → Char
  | .list => ']'
  | .object => '\x7d'

/-- The fault of a text that ends inside the brackets. -/
def atEnd : Frame → Fault
  | .list => .endInList
  | .object => .endInObject

/-- The fault of a value that is followed by neither a comma nor the closing bracket. -/
def unended : Frame → Fault
  | .list => .expectedListEnd
  | .object => .expectedObjectEnd

end Frame

/-- What is left behind the key and the colon of a member. -/
def key (s : List Char) : Except Stop (List Char) :=
  match dropBlanks s with
  | [] => .error (.on .endInObject [])
  | '"' :: r =>
    match string r with
    | .error e => .error e
    | .ok rest =>
      match dropBlanks rest with
      | [] => .error (.on .endInObject [])
      | ':' :: v => .ok v
      | left => .error (.on .expectedColon left)
  | left => .error (.on .keyNotString left)

/-- What is left in front of the value of an item: in an object its key comes first. -/
def beforeValue : Frame → List Char → Except Stop (List Char)
  | .list, s => .ok s
  | .object, s => key s

/-- Behind a value: closes the brackets that are closed here. The answer is the brackets that stay
open, with the text in front of their next value, or no bracket and the rest. -/
def afterValue : List Frame → List Char → Except Stop (List Frame × List Char)
  | [], s => .ok ([], s)
  | f :: fs, s =>
    match dropBlanks s with
    | [] => .error (.on f.atEnd [])
    | c :: r =>
      if c = ',' then (beforeValue f r).map fun rest => (f :: fs, rest)
      else if c = f.closing then afterValue fs r
      else .error (.on f.unended (c :: r))

/-- Behind an opening bracket: closes it, if nothing stands in it. -/
def opened (f : Frame) (fs : List Frame) (s : List Char) : Except Stop (List Frame × List Char) :=
  match dropBlanks s with
  | [] => .error (.on f.atEnd [])
  | c :: r =>
    if c = f.closing then afterValue fs r
    else (beforeValue f (c :: r)).map fun rest => (f :: fs, rest)

/-- One word, number, string or opening bracket, and the closing brackets behind it. -/
def token (fs : List Frame) (s : List Char) : Except Stop (List Frame × List Char) :=
  match dropBlanks s with
  | [] => .error (.on .endInValue [])
  | 'n' :: r => word "ull".toList r >>= afterValue fs
  | 't' :: r => word "rue".toList r >>= afterValue fs
  | 'f' :: r => word "alse".toList r >>= afterValue fs
  | '"' :: r => string r >>= afterValue fs
  | '[' :: r => opened .list fs r
  | '\x7b' :: r => opened .object fs r
  | '-' :: r => magnitude r >>= afterValue fs
  | c :: r =>
    if Numeral.isDigit c then magnitude (c :: r) >>= afterValue fs
    else .error (.on .expectedValue (c :: r))

theorem length_of_string {s rest : List Char} (h : string s = .ok rest) :
    rest.length < s.length := by
  fun_induction string s with
  | case1 => simp at h
  | case2 =>
    obtain rfl := by simpa using h
    simp
  | case3 => simp at h
  | case4 => simp at h
  | case5 s n r hr ih =>
    have := length_of_hexQuad hr
    have := ih h
    simp only [List.length_cons]
    omega
  | case6 c s _ _ ih =>
    have := ih h
    simp only [List.length_cons]
    omega
  | case7 => simp at h
  | case8 => simp at h
  | case9 c s _ _ _ _ _ ih =>
    have := ih h
    simp only [List.length_cons]
    omega

theorem length_of_exponentDigits {s rest : List Char} (h : exponentDigits s = .ok rest) :
    rest.length ≤ s.length := by
  unfold exponentDigits at h
  split at h
  · simp at h
  · rename_i r
    split at h
    · obtain rfl := by simpa using h
      have := length_dropWhile_le Numeral.isDigit r
      simp only [List.length_cons]
      omega
    · simp at h

theorem length_of_exponentPart {s rest : List Char} (h : exponentPart s = .ok rest) :
    rest.length ≤ s.length := by
  unfold exponentPart at h
  split at h
  · exact Nat.le_succ_of_le (length_of_exponentDigits h)
  · exact Nat.le_succ_of_le (length_of_exponentDigits h)
  · exact length_of_exponentDigits h

theorem length_of_scaled {s rest : List Char} (h : scaled s = .ok rest) :
    rest.length ≤ s.length := by
  unfold scaled at h
  split at h
  · simp_all
  · split at h
    · have := length_of_exponentPart h
      simp only [List.length_cons]
      omega
    · simp_all

theorem length_of_afterWhole {s rest : List Char} (h : afterWhole s = .ok rest) :
    rest.length ≤ s.length := by
  unfold afterWhole at h
  split at h
  · simp_all
  · rename_i c r
    split at h
    · split at h
      · simp at h
      · have := length_of_scaled h
        have := length_dropWhile_le Numeral.isDigit r
        simp only [List.length_cons]
        omega
    · exact length_of_scaled h

theorem length_of_magnitude {s rest : List Char} (h : magnitude s = .ok rest) :
    rest.length < s.length := by
  cases s with
  | nil => simp [magnitude] at h
  | cons c s =>
    simp only [magnitude] at h
    split at h
    · split at h
      · have := length_of_afterWhole h
        simp only [List.length_cons]
        omega
      · simp at h
    · split at h
      · have := length_of_afterWhole h
        have := length_dropWhile_le Numeral.isDigit s
        simp only [List.length_cons]
        omega
      · simp at h

theorem length_of_key {s rest : List Char} (h : key s = .ok rest) : rest.length < s.length := by
  unfold key at h
  split at h
  · simp at h
  · rename_i r hs
    have := length_of_dropBlanks_eq_cons hs
    split at h
    · simp at h
    · rename_i r' hr
      have := length_of_string hr
      split at h
      · simp at h
      · rename_i v hv
        have := length_of_dropBlanks_eq_cons hv
        obtain rfl := by simpa using h
        omega
      · simp at h
  · simp at h

theorem length_of_beforeValue {f : Frame} {s rest : List Char} (h : beforeValue f s = .ok rest) :
    rest.length ≤ s.length := by
  cases f with
  | list => simp_all [beforeValue]
  | object => exact Nat.le_of_lt (length_of_key h)

theorem length_of_afterValue {fs gs : List Frame} {s rest : List Char}
    (h : afterValue fs s = .ok (gs, rest)) : rest.length ≤ s.length := by
  induction fs generalizing s with
  | nil => simp_all [afterValue]
  | cons f fs ih =>
    unfold afterValue at h
    split at h
    · simp at h
    · rename_i c r hs
      have := length_of_dropBlanks_eq_cons hs
      split at h
      · obtain ⟨v, hb, hv⟩ := exists_of_map_eq_ok h
        obtain ⟨-, rfl⟩ := Prod.mk.inj hv
        have := length_of_beforeValue hb
        omega
      · split at h
        · have := ih h
          omega
        · simp at h

theorem length_of_opened {f : Frame} {fs gs : List Frame} {s rest : List Char}
    (h : opened f fs s = .ok (gs, rest)) : rest.length ≤ s.length := by
  unfold opened at h
  split at h
  · simp at h
  · rename_i c r hs
    have := length_of_dropBlanks_eq_cons hs
    split at h
    · have := length_of_afterValue h
      omega
    · obtain ⟨v, hb, hv⟩ := exists_of_map_eq_ok h
      obtain ⟨-, rfl⟩ := Prod.mk.inj hv
      have := length_of_beforeValue hb
      have := length_dropBlanks_le s
      simp_all only [List.length_cons]
      omega

theorem length_of_bind {α : Type} {m : Except Stop (List Char)}
    {k : List Char → Except Stop (α × List Char)} {a : α} {rest : List Char} {n : Nat}
    (h : m >>= k = .ok (a, rest)) (hm : ∀ {r}, m = .ok r → r.length ≤ n)
    (hk : ∀ {r}, k r = .ok (a, rest) → rest.length ≤ r.length) : rest.length ≤ n := by
  obtain ⟨r, hr, hs⟩ := exists_of_bind_eq_ok h
  exact Nat.le_trans (hk hs) (hm hr)

theorem length_of_token {fs gs : List Frame} {s rest : List Char}
    (h : token fs s = .ok (gs, rest)) : rest.length < s.length := by
  unfold token at h
  split at h
  · simp at h
  · rename_i r hs
    exact Nat.lt_of_le_of_lt (length_of_bind h length_of_word length_of_afterValue)
      (length_of_dropBlanks_eq_cons hs)
  · rename_i r hs
    exact Nat.lt_of_le_of_lt (length_of_bind h length_of_word length_of_afterValue)
      (length_of_dropBlanks_eq_cons hs)
  · rename_i r hs
    exact Nat.lt_of_le_of_lt (length_of_bind h length_of_word length_of_afterValue)
      (length_of_dropBlanks_eq_cons hs)
  · rename_i r hs
    exact Nat.lt_of_le_of_lt
      (length_of_bind h (fun h => Nat.le_of_lt (length_of_string h)) length_of_afterValue)
      (length_of_dropBlanks_eq_cons hs)
  · rename_i r hs
    exact Nat.lt_of_le_of_lt (length_of_opened h) (length_of_dropBlanks_eq_cons hs)
  · rename_i r hs
    exact Nat.lt_of_le_of_lt (length_of_opened h) (length_of_dropBlanks_eq_cons hs)
  · rename_i r hs
    exact Nat.lt_of_le_of_lt
      (length_of_bind h (fun h => Nat.le_of_lt (length_of_magnitude h)) length_of_afterValue)
      (length_of_dropBlanks_eq_cons hs)
  · rename_i c r _ _ _ _ _ _ _ hs
    split at h
    · refine Nat.lt_of_le_of_lt (length_of_bind (n := r.length) h (fun h => ?_)
        length_of_afterValue) (length_of_dropBlanks_eq_cons hs)
      exact Nat.le_of_lt_succ (length_of_magnitude h)
    · simp at h

/-- What is left behind a value that stands inside the given brackets, and behind everything else
in them. -/
def within (fs : List Frame) (s : List Char) : Except Stop (List Char) :=
  match _h : token fs s with
  | .error e => .error e
  | .ok ([], rest) => .ok rest
  | .ok (g :: gs, rest) => within (g :: gs) rest
termination_by s.length
decreasing_by exact length_of_token _h

/-- What is left behind a value. -/
def value (s : List Char) : Except Stop (List Char) := within [] s

theorem length_of_within {fs : List Frame} {s rest : List Char} (h : within fs s = .ok rest) :
    rest.length < s.length := by
  fun_induction within fs s with
  | case1 => simp at h
  | case2 fs s r hr =>
    obtain rfl := by simpa using h
    exact length_of_token hr
  | case3 fs s g gs r hr ih => exact Nat.lt_trans (ih h) (length_of_token hr)

theorem length_of_value {s rest : List Char} (h : value s = .ok rest) :
    rest.length < s.length := length_of_within h

end LutFixture.Json.Skip
