import LutFixture.Json.Fault

/-!
# Readers

A reader takes a value from the front of a text and answers with the value and the rest of the
text. It always takes at least one character, and that law is part of the type: loops over readers
end because what is left to read gets shorter.

When reading stops at a fault, `Stop` keeps what had not been read by then and how many bytes of
it the fault concerns, and `Stop.failure` turns that into a place in the whole text.
-/

namespace LutFixture.Json

/-- A fault, and how far reading had come. -/
structure Stop where
  /-- The cause. -/
  fault : Fault
  /-- What had not been read. -/
  rest : List Char
  /-- The number of bytes of the rest that belong to the fault. -/
  ahead : Nat

/-- The answer of a reader: a value and what is left, or where it stopped. -/
abbrev Reading (α : Type) := Except Stop (α × List Char)

/-- A reading that goes on succeeds if both its parts do. -/
theorem exists_of_bind_eq_ok {α β : Type} {x : Except Stop α} {k : α → Except Stop β} {b : β}
    (h : x.bind k = .ok b) : ∃ a, x = .ok a ∧ k a = .ok b := by
  cases x with
  | error e => simp [Except.bind] at h
  | ok a => exact ⟨a, rfl, h⟩

/-- A reading whose value is looked at through a function succeeds if it does without. -/
theorem exists_of_map_eq_ok {α β : Type} {x : Except Stop α} {g : α → β} {b : β}
    (h : x.map g = .ok b) : ∃ a, x = .ok a ∧ g a = b := by
  cases x with
  | error e => simp [Except.map] at h
  | ok a => exact ⟨a, rfl, Except.ok.inj h⟩

/-- The number of bytes of a text. -/
def byteCount (s : List Char) : Nat := s.foldl (fun n c => n + c.utf8Size) 0

namespace Stop

/-- A fault noticed between what has been read and what has not. -/
def before (fault : Fault) (rest : List Char) : Stop := ⟨fault, rest, 0⟩

/-- A fault noticed on the next byte; at the end of the text there is none, and the fault is
placed there. -/
def on (fault : Fault) (rest : List Char) : Stop := ⟨fault, rest, 1⟩

/-- The failure that a stop in a text amounts to. -/
def failure (x : Stop) (text : List Char) : Failure :=
  ⟨x.fault, ({} : Place).advance (byteCount text - byteCount x.rest + x.ahead) text⟩

end Stop

/-- The character may stand between any two tokens. -/
def isBlank (c : Char) : Bool := c == ' ' || c == '\t' || c == '\n' || c == '\r'

/-- The text from its first character on that is not blank. -/
def dropBlanks (s : List Char) : List Char := s.dropWhile isBlank

theorem length_dropWhile_le (p : Char → Bool) (s : List Char) :
    (s.dropWhile p).length ≤ s.length := (List.dropWhile_sublist p).length_le

theorem length_dropBlanks_le (s : List Char) : (dropBlanks s).length ≤ s.length :=
  length_dropWhile_le _ s

theorem length_of_dropBlanks_eq_cons {s r : List Char} {c : Char} (h : dropBlanks s = c :: r) :
    r.length < s.length := by
  have := length_dropBlanks_le s
  rw [h] at this
  exact this

/-- What takes a value from the front of a text. -/
structure Reader (α : Type) where
  /-- The value and the rest of the text. -/
  read : List Char → Reading α
  /-- A value takes at least one character. -/
  progress : ∀ {s : List Char} {a : α} {rest : List Char},
    read s = .ok (a, rest) → rest.length < s.length

namespace Reader

variable {α β : Type}

/-- A reader whose value is looked at through a function. -/
def map (g : α → β) (r : Reader α) : Reader β where
  read s := match r.read s with
    | .ok (a, rest) => .ok (g a, rest)
    | .error e => .error e
  progress {s b rest} h := by
    split at h
    · rename_i a r' hr
      obtain ⟨rfl, rfl⟩ := by simpa using h
      exact r.progress hr
    · simp at h

/-- A whole text is one value, with nothing but blanks behind it. -/
def whole (r : Reader α) (text : List Char) : Except Failure α :=
  match r.read text with
  | .error e => .error (e.failure text)
  | .ok (a, rest) =>
    match dropBlanks rest with
    | [] => .ok a
    | left => .error ((Stop.on .trailingCharacters left).failure text)

end Reader

end LutFixture.Json
