import LutFixture.Json.Numeral
import LutFixture.Json.String
import LutFixture.Json.Word

/-!
# Readers of single values

Readers of Booleans, strings and 64-bit words. A value of another kind is read as far as its kind
allows, so that what is wrong with it in itself is noticed first; only then is it refused for
being of the wrong kind. An array or an object is refused at its opening bracket.
-/

namespace LutFixture.Json

/-- Where reading stops at a value that is not of the wanted kind; it begins with the given
character and goes on with `r`. -/
def mistyped (expected : String) (c : Char) (r : List Char) : Stop :=
  let refuse (found : Found) (rest : List Char) : Stop :=
    .before (.invalidType found expected) rest
  let refuseWord (letters : String) (found : Found) : Stop :=
    match word letters.toList r with
    | .error e => e
    | .ok rest => refuse found rest
  match c with
  | 'n' => refuseWord "ull" .null
  | 't' => refuseWord "rue" (.boolean true)
  | 'f' => refuseWord "alse" (.boolean false)
  | '"' =>
    match string r with
    | .error e => e
    | .ok (s, rest) => refuse (.string s) rest
  | '[' => refuse .sequence (c :: r)
  | '\x7b' => refuse .map (c :: r)
  | _ =>
    if c = '-' ∨ Numeral.isDigit c then
      match Numeral.read (c :: r) with
      | .error e => e
      | .ok (n, rest) => refuse n.found rest
    else .on .expectedValue (c :: r)

namespace Reader

variable {α : Type}

/-- A value that begins with certain characters. Behind the blanks, `body` is asked with the first
character and what follows it; `none` means that no value of the kind begins so. -/
def readBeginning (expected : String) (body : Char → List Char → Option (Reading α))
    (s : List Char) : Reading α :=
  match dropBlanks s with
  | [] => .error (.on .endInValue [])
  | c :: r => (body c r).getD (.error (mistyped expected c r))

theorem length_of_readBeginning {expected : String}
    {body : Char → List Char → Option (Reading α)}
    (shrinks : ∀ {c : Char} {r : List Char} {a : α} {rest : List Char},
      body c r = some (.ok (a, rest)) → rest.length ≤ r.length)
    {s : List Char} {a : α} {rest : List Char}
    (h : readBeginning expected body s = .ok (a, rest)) : rest.length < s.length := by
  unfold readBeginning at h
  split at h
  · simp at h
  · rename_i c r hs
    have hlt := length_of_dropBlanks_eq_cons hs
    cases hb : body c r with
    | none => simp [hb] at h
    | some m =>
      have := shrinks (hb.trans (congrArg some (by simpa [hb] using h)))
      omega

/-- The reader of values that begin with certain characters. -/
def beginning (expected : String) (body : Char → List Char → Option (Reading α))
    (shrinks : ∀ {c : Char} {r : List Char} {a : α} {rest : List Char},
      body c r = some (.ok (a, rest)) → rest.length ≤ r.length) : Reader α where
  read := readBeginning expected body
  progress := length_of_readBeginning shrinks

/-- A word of which the first letter has been read, and the value that it stands for. -/
def wordFor (letters : String) (a : α) (r : List Char) : Reading α :=
  (word letters.toList r).map fun rest => (a, rest)

theorem length_of_wordFor {letters : String} {a b : α} {r rest : List Char}
    (h : wordFor letters a r = .ok (b, rest)) : rest.length ≤ r.length := by
  obtain ⟨x, hw, hx⟩ := exists_of_map_eq_ok h
  obtain ⟨-, rfl⟩ := Prod.mk.inj hx
  exact length_of_word hw

/-- What a Boolean goes on with, by its first letter. -/
def booleanBody (c : Char) (r : List Char) : Option (Reading Bool) :=
  if c = 't' then some (wordFor "rue" true r)
  else if c = 'f' then some (wordFor "alse" false r)
  else none

/-- Reads a Boolean. -/
def boolean : Reader Bool :=
  beginning "a boolean" booleanBody fun {c r a rest} h => by
    unfold booleanBody at h
    split at h
    · exact length_of_wordFor (Option.some.inj h)
    · split at h
      · exact length_of_wordFor (Option.some.inj h)
      · simp at h

/-- What a string goes on with. -/
def textBody (c : Char) (r : List Char) : Option (Reading (List Char)) :=
  if c = '"' then some (string r) else none

/-- Reads a string. -/
def text : Reader String :=
  (beginning "a string" textBody fun {c r a rest} h => by
    unfold textBody at h
    split at h
    · exact Nat.le_of_lt (length_of_string (Option.some.inj h))
    · simp at h).map String.ofList

/-- A number, if it is a 64-bit word. -/
def wordOfNumeral (n : Numeral) (rest : List Char) : Reading UInt64 :=
  match n with
  | .natural k => .ok (UInt64.ofNat k, rest)
  | .negative _ => .error (.before (.invalidValue n.found "u64") rest)
  | .real _ _ => .error (.before (.invalidType n.found "u64") rest)

theorem rest_of_wordOfNumeral {n : Numeral} {s rest : List Char} {a : UInt64}
    (h : wordOfNumeral n s = .ok (a, rest)) : rest = s := by
  unfold wordOfNumeral at h
  split at h
  · exact (Prod.mk.inj (Except.ok.inj h)).2.symm
  · simp at h
  · simp at h

/-- A 64-bit word, by the sign or the first digit of a number. -/
def wordBody (c : Char) (r : List Char) : Option (Reading UInt64) :=
  if c = '-' ∨ Numeral.isDigit c then
    some ((Numeral.read (c :: r)).bind fun x => wordOfNumeral x.1 x.2)
  else none

/-- Reads a natural number below two to the sixty-fourth. -/
def word64 : Reader UInt64 :=
  beginning "u64" wordBody fun {c r a rest} h => by
    unfold wordBody at h
    split at h
    · obtain ⟨⟨n, left⟩, hn, h⟩ := exists_of_bind_eq_ok (Option.some.inj h)
      have := Numeral.length_of_read hn
      rw [rest_of_wordOfNumeral h]
      exact Nat.le_of_lt_succ this
    · simp at h

end Reader

end LutFixture.Json
