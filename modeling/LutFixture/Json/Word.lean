import LutFixture.Json.Reader

/-!
# Words

The words `true`, `false` and `null` are compared letter by letter. A word that goes on
differently is noticed at the first letter that differs.
-/

namespace LutFixture.Json

/-- What is left behind the remaining letters of a word. -/
def word : List Char → List Char → Except Stop (List Char)
  | [], s => .ok s
  | _ :: _, [] => .error (.before .endInValue [])
  | w :: ws, c :: s => if c = w then word ws s else .error (.on .expectedIdent (c :: s))

theorem length_of_word {w s rest : List Char} (h : word w s = .ok rest) :
    rest.length ≤ s.length := by
  induction w generalizing s with
  | nil => simp_all [word]
  | cons x ws ih =>
    cases s with
    | nil => simp [word] at h
    | cons c s =>
      by_cases hc : c = x
      · simp only [word, hc, if_true] at h
        have := ih h
        simp only [List.length_cons]
        omega
      · simp [word, hc] at h

end LutFixture.Json
