import LutFixture.Proofs.Json.StringReading

/-!
# Passing over a value

Passing over a value ends right behind it, whichever of its texts it is and however deeply it
nests (`skip_value_of_spelling`). Brackets that are open are kept in a list, so the statement that
an induction over the value carries is about any such list: what is left to do behind the value is
what was left to do before it (`Skip.resume`).

A number does not end by itself. It has to be followed by something that no number goes on with
(`Stops`), which marks, blanks and the end of a text are.
-/

namespace LutFixture.Json

variable {k : List Token} {s rest digits : List Char}

/-- A value may end in front of these tokens: they are none, or begin with a mark. -/
def Closed (k : List Token) : Prop := ∀ t ∈ k.head?, ∃ m, t = .mark m

theorem closed_nil : Closed [] := by simp [Closed]

theorem closed_mark (m : Mark) (k : List Token) : Closed (.mark m :: k) := by
  simp [Closed]

theorem closed_partsAhead (parts : List (List Token)) (m : Mark) (k : List Token) :
    Closed (partsAhead false parts ++ .mark m :: k) := by
  cases parts with
  | nil => exact closed_mark m k
  | cons part parts => exact closed_mark .comma _

/-- No number goes on with this text. -/
def Stops (s : List Char) : Prop :=
  ∀ c ∈ s.head?, Numeral.isDigit c = false ∧ c ≠ '.' ∧ c ≠ 'e' ∧ c ≠ 'E'

theorem stops_blank : ∀ c ∈ [' ', '\t', '\n', '\r'],
    Numeral.isDigit c = false ∧ c ≠ '.' ∧ c ≠ 'e' ∧ c ≠ 'E' :=
  List.all_iff_forall_prop.1 (by decide)

theorem Spelling.stops (h : Spelling k s) (hk : Closed k) : Stops s := by
  cases h with
  | nil => simp [Stops]
  | @blank c _ _ hc _ =>
      rintro _ ⟨⟩
      exact stops_blank c hc
  | token hw _ =>
      obtain ⟨m, rfl⟩ := hk _ rfl
      obtain rfl := hw
      rintro _ ⟨⟩
      cases m <;> decide

namespace Skip

/-! ### Numbers -/

theorem takeWhile_isDigit_append (hd : ∀ c ∈ digits, Numeral.isDigit c = true)
    (hs : ∀ c ∈ s.head?, Numeral.isDigit c = false) :
    (digits ++ s).takeWhile Numeral.isDigit = digits := by
  rw [List.takeWhile_append_of_pos hd]
  cases s with
  | nil => simp
  | cons c s => simp [hs c rfl]

theorem dropWhile_isDigit_append (hd : ∀ c ∈ digits, Numeral.isDigit c = true)
    (hs : ∀ c ∈ s.head?, Numeral.isDigit c = false) :
    (digits ++ s).dropWhile Numeral.isDigit = s := by
  rw [List.dropWhile_append_of_pos hd]
  cases s with
  | nil => rfl
  | cons c s => simp [hs c rfl]

theorem isDigit_digitChar : ∀ d : Fin 10, Numeral.isDigit (digitChar d) = true := by decide

theorem isDigit_of_mem_map_digitChar {ds : List (Fin 10)} :
    ∀ c ∈ ds.map digitChar, Numeral.isDigit c = true := by
  intro c hc
  obtain ⟨d, -, rfl⟩ := List.mem_map.1 hc
  exact isDigit_digitChar d

theorem exponentDigits_digitChar (d : Fin 10) (ds : List (Fin 10)) (hs : Stops s) :
    exponentDigits (digitChar d :: ds.map digitChar ++ s) = .ok s := by
  rw [List.cons_append, exponentDigits, if_pos (isDigit_digitChar d),
    dropWhile_isDigit_append isDigit_of_mem_map_digitChar fun c hc => (hs c hc).1]

theorem exponentPart_digitChar (d : Fin 10) (r : List Char) :
    exponentPart (digitChar d :: r) = exponentDigits (digitChar d :: r) := by
  have hdigit := isDigit_digitChar d
  unfold exponentPart
  split
  · rename_i hc
    rw [(List.cons.inj hc).1] at hdigit
    exact absurd hdigit (by decide)
  · rename_i hc
    rw [(List.cons.inj hc).1] at hdigit
    exact absurd hdigit (by decide)
  · rfl

theorem scaled_exponent (e : Exponent) (hs : Stops s) : scaled (e.chars ++ s) = .ok s := by
  obtain ⟨capital, sign, first, more⟩ := e
  have hdigits := exponentDigits_digitChar first more hs
  have hmarker : (if capital then 'E' else 'e') = 'e' ∨ (if capital then 'E' else 'e') = 'E' := by
    cases capital <;> simp
  rw [Exponent.chars, List.cons_append, List.cons_append, scaled, if_pos hmarker]
  cases sign with
  | none => exact (exponentPart_digitChar first _).trans hdigits
  | some minus => cases minus <;> exact hdigits

theorem scaled_of_stops (hs : Stops s) : scaled s = .ok s := by
  cases s with
  | nil => rfl
  | cons c s =>
      obtain ⟨-, -, he, hE⟩ := hs c rfl
      rw [scaled, if_neg (by simp [he, hE])]

theorem scaled_exponent? (e : Option Exponent) (hs : Stops s) :
    scaled ((e.map Exponent.chars).getD [] ++ s) = .ok s := by
  cases e with
  | none => exact scaled_of_stops hs
  | some e => exact scaled_exponent e hs

theorem head?_exponent? (e : Option Exponent) (hs : Stops s) :
    ∀ c ∈ ((e.map Exponent.chars).getD [] ++ s).head?, Numeral.isDigit c = false ∧ c ≠ '.' := by
  cases e with
  | none => exact fun c hc => ⟨(hs c hc).1, (hs c hc).2.1⟩
  | some e =>
      rintro _ ⟨⟩
      cases e.capital <;> decide

theorem afterWhole_fraction? (f : Option Fraction) (e : Option Exponent) (hs : Stops s) :
    afterWhole ((f.map Fraction.chars).getD [] ++ ((e.map Exponent.chars).getD [] ++ s)) =
      .ok s := by
  have hexponent := scaled_exponent? e hs
  have hhead := head?_exponent? e hs
  generalize (e.map Exponent.chars).getD [] ++ s = tail at hexponent hhead
  cases f with
  | none =>
      cases tail with
      | nil => exact hexponent
      | cons c tail => simpa [afterWhole, (hhead c rfl).2] using hexponent
  | some f =>
      have hdigits : ∀ c ∈ digitChar f.first :: f.more.map digitChar,
          Numeral.isDigit c = true :=
        List.forall_mem_cons.2 ⟨isDigit_digitChar f.first, isDigit_of_mem_map_digitChar⟩
      have htail : ∀ c ∈ tail.head?, Numeral.isDigit c = false := fun c hc => (hhead c hc).1
      change afterWhole ('.' :: (digitChar f.first :: f.more.map digitChar ++ tail)) = _
      rw [afterWhole, if_pos rfl, takeWhile_isDigit_append hdigits htail,
        dropWhile_isDigit_append hdigits htail]
      exact hexponent

theorem head?_fraction? (f : Option Fraction) (e : Option Exponent) (hs : Stops s) :
    ∀ c ∈ ((f.map Fraction.chars).getD [] ++ ((e.map Exponent.chars).getD [] ++ s)).head?,
      Numeral.isDigit c = false := by
  cases f with
  | none => exact fun c hc => (head?_exponent? e hs c hc).1
  | some f =>
      rintro _ ⟨⟩
      rfl

/-- Only zero has a leading zero. -/
theorem head?_toDigits_ne_zero {n : Nat} (hn : 0 < n) :
    ∀ c ∈ (Nat.toDigits 10 n).head?, c ≠ '0' := by
  induction n using Nat.strongRecOn with
  | ind n ih =>
      rcases Nat.lt_or_ge n 10 with hlt | hge
      · rw [Nat.toDigits_of_lt_base hlt]
        rintro _ ⟨⟩
        simpa using Nat.ne_of_gt hn
      · rw [Nat.toDigits_of_base_le (by decide) hge,
          List.head?_append_of_ne_nil _ Nat.toDigits_ne_nil]
        exact ih (n / 10) (Nat.div_lt_self hn (by decide)) (Nat.div_pos hge (by decide))

theorem magnitude_toDigits (n : Nat) (hs : ∀ c ∈ s.head?, Numeral.isDigit c = false) :
    magnitude (Nat.toDigits 10 n ++ s) = afterWhole s := by
  have hall : ∀ c ∈ Nat.toDigits 10 n, Numeral.isDigit c = true :=
    fun c hc => isDigit_of_mem_toDigits hc
  rcases Nat.eq_zero_or_pos n with rfl | hn
  · have hnone := takeWhile_isDigit_append (List.forall_mem_nil _) hs
    rw [List.nil_append] at hnone
    rw [Nat.toDigits_zero, List.singleton_append, magnitude, if_pos rfl, hnone]
    rfl
  · have hhead := head?_toDigits_ne_zero hn
    cases hdigits : Nat.toDigits 10 n with
    | nil => exact absurd hdigits Nat.toDigits_ne_nil
    | cons c ds =>
        rw [hdigits] at hall hhead
        have hmore : ∀ x ∈ ds, Numeral.isDigit x = true :=
          fun x hx => hall x (List.mem_cons_of_mem c hx)
        rw [List.cons_append, magnitude, if_neg (hhead c rfl), if_pos (hall c List.mem_cons_self),
          dropWhile_isDigit_append hmore hs]

/-! ### One token -/

theorem token_digit {c : Char} {r : List Char} (hc : Numeral.isDigit c = true)
    (h : dropBlanks s = c :: r) (fs : List Frame) :
    token fs s = magnitude (c :: r) >>= afterValue fs := by
  -- A digit is none of the characters that the other tokens begin with.
  unfold token
  split
  · rename_i hs
    rw [hs] at h
    cases h
  iterate 7
    · rename_i hs
      rw [hs] at h
      obtain ⟨rfl, -⟩ := List.cons.inj h
      exact absurd hc (by decide)
  · rename_i hs
    rw [hs] at h
    obtain ⟨rfl, rfl⟩ := List.cons.inj h
    rw [if_pos hc]

theorem token_number (n : Number) (hs : Stops rest) (h : dropBlanks s = n.chars ++ rest)
    (fs : List Frame) : token fs s = afterValue fs rest := by
  have hbody : magnitude (Nat.toDigits 10 n.whole ++ ((n.fraction.map Fraction.chars).getD [] ++
      ((n.exponent.map Exponent.chars).getD [] ++ rest))) = .ok rest := by
    rw [magnitude_toDigits _ (head?_fraction? n.fraction n.exponent hs)]
    exact afterWhole_fraction? n.fraction n.exponent hs
  cases hsign : n.negative with
  | true =>
      have hfront : dropBlanks s = '-' :: (Nat.toDigits 10 n.whole ++
          ((n.fraction.map Fraction.chars).getD [] ++
            ((n.exponent.map Exponent.chars).getD [] ++ rest))) := by
        rw [h, Number.chars, hsign]
        simp
      rw [token, hfront]
      exact congrArg (· >>= afterValue fs) hbody
  | false =>
      have hfront : dropBlanks s = Nat.toDigits 10 n.whole ++
          ((n.fraction.map Fraction.chars).getD [] ++
            ((n.exponent.map Exponent.chars).getD [] ++ rest)) := by
        rw [h, Number.chars, hsign]
        simp
      cases hdigits : Nat.toDigits 10 n.whole with
      | nil => exact absurd hdigits Nat.toDigits_ne_nil
      | cons c ds =>
          have hc : Numeral.isDigit c = true :=
            isDigit_of_mem_toDigits (by rw [hdigits]; exact List.mem_cons_self)
          rw [hdigits] at hfront hbody
          rw [token_digit hc hfront fs]
          exact congrArg (· >>= afterValue fs) hbody

theorem word_append (letters s : List Char) : word letters (letters ++ s) = .ok s := by
  induction letters with
  | nil => cases s <;> rfl
  | cons c letters ih => rw [List.cons_append, word, if_pos rfl, ih]

theorem token_word {c : Char} {letters : String} (hc : (c, letters) ∈
      [('n', "ull"), ('t', "rue"), ('f', "alse")])
    (h : dropBlanks s = c :: (letters.toList ++ rest)) (fs : List Frame) :
    token fs s = afterValue fs rest := by
  have hword := word_append letters.toList rest
  simp only [List.mem_cons, Prod.mk.injEq, List.not_mem_nil, or_false] at hc
  rcases hc with ⟨rfl, rfl⟩ | ⟨rfl, rfl⟩ | ⟨rfl, rfl⟩ <;>
  · rw [token, h]
    exact congrArg (· >>= afterValue fs) hword

theorem token_string {body : List Char} {x : String} (hbody : StringSpelling x.toList body)
    (h : dropBlanks s = '"' :: body ++ '"' :: rest) (fs : List Frame) :
    token fs s = afterValue fs rest := by
  rw [token, h]
  exact congrArg (· >>= afterValue fs) (skip_string_of_spelling hbody rest)

theorem token_openList {r : List Char} (h : dropBlanks s = '[' :: r) (fs : List Frame) :
    token fs s = opened .list fs r := by
  rw [token, h]
  rfl

theorem token_openObject {r : List Char} (h : dropBlanks s = '\x7b' :: r) (fs : List Frame) :
    token fs s = opened .object fs r := by
  rw [token, h]
  rfl

/-! ### Brackets -/

/-- What comes after a token: nothing, or the next value in the brackets that are open. -/
def carryOn : Except Stop (List Frame × List Char) → Except Stop (List Char)
  | .error e => .error e
  | .ok ([], rest) => .ok rest
  | .ok (f :: fs, rest) => within (f :: fs) rest

/-- What comes after a value. -/
def resume (fs : List Frame) (s : List Char) : Except Stop (List Char) :=
  carryOn (afterValue fs s)

theorem within_eq (fs : List Frame) (s : List Char) : within fs s = carryOn (token fs s) := by
  rw [within]
  split <;> rename_i h <;> rw [h] <;> rfl

theorem resume_nil (s : List Char) : resume [] s = .ok s := rfl

theorem resume_comma {r : List Char} (h : dropBlanks s = ',' :: r) (f : Frame) (fs : List Frame) :
    resume (f :: fs) s = carryOn ((beforeValue f r).map fun rest => (f :: fs, rest)) := by
  rw [resume, afterValue, h]
  rfl

theorem resume_closing {f : Frame} {r : List Char} (h : dropBlanks s = f.closing :: r)
    (fs : List Frame) : resume (f :: fs) s = resume fs r := by
  rw [resume, afterValue, h]
  cases f <;> rfl

theorem opened_closing {f : Frame} {r : List Char} (h : dropBlanks s = f.closing :: r)
    (fs : List Frame) : opened f fs s = afterValue fs r := by
  rw [opened, h]
  exact if_pos rfl

theorem opened_of_ne {f : Frame} {c : Char} {r : List Char} (h : dropBlanks s = c :: r)
    (hc : c ≠ f.closing) (fs : List Frame) :
    opened f fs s = (beforeValue f (c :: r)).map fun rest => (f :: fs, rest) := by
  rw [opened, h]
  exact if_neg hc

theorem exists_key_eq {x : String} (h : Spelling (.string x :: .mark .colon :: k) s) :
    ∃ rest, key s = .ok rest ∧ Spelling k rest := by
  obtain ⟨body, r, hs, hbody, hr⟩ := h.exists_of_string
  obtain ⟨rest, hcolon, hrest⟩ := hr.exists_of_mark
  refine ⟨rest, ?_, hrest⟩
  rw [key, hs, List.cons_append]
  simp only [skip_string_of_spelling hbody, hcolon]
  rfl

end Skip

/-- No value begins with a comma or a closing bracket. -/
theorem Value.Begins.ne_of_mem {v : Value} {c d : Char} (h : v.Begins c)
    (hd : d ∈ [',', ']', '\x7d']) : c ≠ d := by
  rintro rfl
  have hdigit : ∀ x ∈ [',', ']', '\x7d'], Numeral.isDigit x = false :=
    List.all_iff_forall_prop.1 (by decide)
  cases v with
  | boolean b =>
      cases b <;> cases h <;> exact absurd hd (by decide)
  | number n =>
      rcases h with rfl | h
      · exact absurd hd (by decide)
      · rw [hdigit c hd] at h
        cases h
  | null | string | array | object =>
      cases h
      exact absurd hd (by decide)

theorem Value.Begins.ne_closing {v : Value} {c : Char} (h : v.Begins c) (f : Skip.Frame) :
    c ≠ f.closing :=
  h.ne_of_mem (by cases f <;> decide)

namespace Skip

mutual

/-- Passing over a value ends right behind it and goes on with what is left to do there. -/
theorem within_value : ∀ (v : Value) {k : List Token} {s : List Char}, Closed k →
    Spelling (v.tokens ++ k) s → ∀ fs : List Frame,
      ∃ rest, within fs s = resume fs rest ∧ Spelling k rest
  | .null, k, s, _, h, fs => by
      obtain ⟨w, rest, rfl, hrest, hs⟩ := h.exists_of_cons
      refine ⟨rest, ?_, hrest⟩
      rw [within_eq, token_word (.head _) hs]
      rfl
  | .boolean b, k, s, _, h, fs => by
      obtain ⟨w, rest, rfl, hrest, hs⟩ := h.exists_of_cons
      refine ⟨rest, ?_, hrest⟩
      rw [within_eq]
      cases b with
      | true => rw [token_word (.tail _ (.head _)) hs]; rfl
      | false => rw [token_word (.tail _ (.tail _ (.head _))) hs]; rfl
  | .number n, k, s, hk, h, fs => by
      obtain ⟨w, rest, rfl, hrest, hs⟩ := h.exists_of_cons
      refine ⟨rest, ?_, hrest⟩
      rw [within_eq, token_number n (hrest.stops hk) hs]
      rfl
  | .string x, k, s, _, h, fs => by
      obtain ⟨body, rest, hs, hbody, hrest⟩ := h.exists_of_string
      refine ⟨rest, ?_, hrest⟩
      rw [within_eq, token_string hbody hs]
      rfl
  | .array [], k, s, _, h, fs => by
      rw [tokens_array, itemTokens, partsAhead_nil] at h
      obtain ⟨r, hs, hr⟩ := h.exists_of_mark
      obtain ⟨rest, hclose, hrest⟩ := hr.exists_of_mark
      refine ⟨rest, ?_, hrest⟩
      rw [within_eq, token_openList hs, opened_closing (f := .list) hclose]
      rfl
  | .array (v :: vs), k, s, _, h, fs => by
      rw [tokens_array, itemTokens, partsAhead_true_cons] at h
      obtain ⟨r, hs, hr⟩ := h.exists_of_mark
      obtain ⟨c, left, hc, hbegins⟩ := hr.exists_begins
      have hhere := hr.behind_blanks
      rw [hc] at hhere
      obtain ⟨inside, hv, hinside⟩ := within_value v (closed_partsAhead _ _ _) hhere (.list :: fs)
      obtain ⟨rest, hvs, hrest⟩ := resume_items vs hinside fs
      refine ⟨rest, ?_, hrest⟩
      rw [within_eq, token_openList hs, opened_of_ne hc (hbegins.ne_closing .list)]
      exact hv.trans hvs
  | .object [], k, s, _, h, fs => by
      rw [tokens_object, memberTokens, partsAhead_nil] at h
      obtain ⟨r, hs, hr⟩ := h.exists_of_mark
      obtain ⟨rest, hclose, hrest⟩ := hr.exists_of_mark
      refine ⟨rest, ?_, hrest⟩
      rw [within_eq, token_openObject hs, opened_closing (f := .object) hclose]
      rfl
  | .object ((x, v) :: ms), k, s, _, h, fs => by
      rw [tokens_object, memberTokens, partsAhead_true_cons] at h
      obtain ⟨r, hs, hr⟩ := h.exists_of_mark
      obtain ⟨body, left, hc, -, -⟩ := hr.exists_of_string
      obtain ⟨here, hkey, hhere⟩ := exists_key_eq hr.behind_blanks
      obtain ⟨inside, hv, hinside⟩ :=
        within_value v (closed_partsAhead _ _ _) hhere (.object :: fs)
      obtain ⟨rest, hms, hrest⟩ := resume_members ms hinside fs
      refine ⟨rest, ?_, hrest⟩
      rw [List.cons_append] at hc
      rw [hc] at hkey
      rw [within_eq, token_openObject hs, opened_of_ne (f := .object) hc (by decide), beforeValue,
        hkey]
      exact hv.trans hms

/-- Behind an item of an array, passing over goes on behind the array. -/
theorem resume_items : ∀ (vs : List Value) {k : List Token} {s : List Char},
    Spelling (partsAhead false (itemTokens vs) ++ .mark .closeList :: k) s → ∀ fs : List Frame,
      ∃ rest, resume (.list :: fs) s = resume fs rest ∧ Spelling k rest
  | [], k, s, h, fs => by
      obtain ⟨rest, hclose, hrest⟩ := h.exists_of_mark
      exact ⟨rest, resume_closing (f := .list) hclose fs, hrest⟩
  | v :: vs, k, s, h, fs => by
      rw [itemTokens, partsAhead_false_cons] at h
      obtain ⟨r, hs, hr⟩ := h.exists_of_mark
      obtain ⟨inside, hv, hinside⟩ := within_value v (closed_partsAhead _ _ _) hr (.list :: fs)
      obtain ⟨rest, hvs, hrest⟩ := resume_items vs hinside fs
      refine ⟨rest, ?_, hrest⟩
      rw [resume_comma hs]
      exact hv.trans hvs

/-- Behind a member of an object, passing over goes on behind the object. -/
theorem resume_members : ∀ (ms : List (String × Value)) {k : List Token} {s : List Char},
    Spelling (partsAhead false (memberTokens ms) ++ .mark .closeObject :: k) s → ∀ fs : List Frame,
      ∃ rest, resume (.object :: fs) s = resume fs rest ∧ Spelling k rest
  | [], k, s, h, fs => by
      obtain ⟨rest, hclose, hrest⟩ := h.exists_of_mark
      exact ⟨rest, resume_closing (f := .object) hclose fs, hrest⟩
  | (x, v) :: ms, k, s, h, fs => by
      rw [memberTokens, partsAhead_false_cons] at h
      obtain ⟨r, hs, hr⟩ := h.exists_of_mark
      obtain ⟨here, hkey, hhere⟩ := exists_key_eq hr
      obtain ⟨inside, hv, hinside⟩ :=
        within_value v (closed_partsAhead _ _ _) hhere (.object :: fs)
      obtain ⟨rest, hms, hrest⟩ := resume_members ms hinside fs
      refine ⟨rest, ?_, hrest⟩
      rw [resume_comma hs, beforeValue, hkey]
      exact hv.trans hms

end

end Skip

theorem skip_value_of_spelling {v : Value} (hk : Closed k) (h : Spelling (v.tokens ++ k) s) :
    ∃ rest, Skip.value s = .ok rest ∧ Spelling k rest := by
  obtain ⟨rest, hv, hrest⟩ := Skip.within_value v hk h []
  exact ⟨rest, hv.trans (Skip.resume_nil rest), hrest⟩

end LutFixture.Json
