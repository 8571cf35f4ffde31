import LutFixture.Proofs.Json.Spelling

/-!
# The compact text of a value

What `Value.compact` writes is a text of the value (`Value.isText_compact`): token by token, with no
blank between any two, and with every character of a string in the one spelling that the printer
chooses for it. No control character is among them, so the text is a single line
(`Value.newline_notMem_compact`).
-/

namespace LutFixture.Json

variable {t : Token} {ts us : List Token} {s w r : List Char}

theorem Spelling.singleton (hw : t.Spelling w) : Spelling [t] w := by
  rw [← List.append_nil w]
  exact .token hw .nil

theorem Spelling.mark (m : Mark) (h : Spelling ts s) : Spelling (.mark m :: ts) (m.char :: s) :=
  .token (t := .mark m) (w := [m.char]) rfl h

theorem Spelling.append (hs : Spelling ts s) (hr : Spelling us r) :
    Spelling (ts ++ us) (s ++ r) := by
  induction hs with
  | nil => exact hr
  | blank hc _ ih => exact .blank hc ih
  | token hw _ ih =>
      rw [List.append_assoc]
      exact .token hw ih

/-! ### Strings -/

theorem replicate_append_toDigits : ∀ n < 0x20,
    List.replicate (4 - (Nat.toDigits 16 n).length) '0' ++ Nat.toDigits 16 n =
      [Nat.digitChar 0, Nat.digitChar 0, Nat.digitChar (n / 16), Nat.digitChar (n % 16)] := by
  decide

theorem unitEscape_controlEscape {c : Char} (hc : c.toNat < 0x20) :
    UnitEscape c.toNat (controlEscape c) := by
  have hdigits : controlEscape c =
      ['\\', 'u', Nat.digitChar 0, Nat.digitChar 0, Nat.digitChar (c.toNat / 16),
        Nat.digitChar (c.toNat % 16)] :=
    congrArg ('\\' :: 'u' :: ·) (replicate_append_toDigits c.toNat hc)
  have hvalue : c.toNat = 0x1000 * 0 + 0x100 * 0 + 0x10 * (c.toNat / 16) + c.toNat % 16 := by
    omega
  rw [hdigits]
  nth_rewrite 1 [hvalue]
  exact .digits (.lower (by decide)) (.lower (by decide)) (.lower (by omega))
    (.lower (Nat.mod_lt _ (by decide)))

theorem utf16_of_lt {c : Char} (hc : c.toNat < 0x10000) : utf16 c = [c.toNat] := if_pos hc

/-- The printer's spelling of a character is one of its spellings. -/
theorem charSpelling_escapedChar (c : Char) : CharSpelling c (escapedChar c) := by
  unfold escapedChar
  split_ifs with hself hb hf hn hr ht hcontrol
  · rcases hself with rfl | rfl <;> exact .letter (by decide)
  · exact hb ▸ .letter (by decide)
  · exact hf ▸ .letter (by decide)
  · exact hn ▸ .letter (by decide)
  · exact hr ▸ .letter (by decide)
  · exact ht ▸ .letter (by decide)
  · have hunits : List.Forall₂ UnitEscape (utf16 c) [controlEscape c] := by
      rw [utf16_of_lt (by omega)]
      exact .cons (unitEscape_controlEscape hcontrol) .nil
    rw [← List.flatten_singleton (l := controlEscape c)]
    exact .units hunits
  · obtain ⟨hquote, hback⟩ := not_or.1 hself
    exact .plain (Nat.le_of_not_lt hcontrol) hquote hback

theorem stringSpelling_escapedChars (cs : List Char) :
    StringSpelling cs (cs.flatMap escapedChar) := by
  induction cs with
  | nil => exact .nil
  | cons c cs ih => exact .cons (charSpelling_escapedChar c) ih

theorem spelling_stringChars (x : String) : (Token.string x).Spelling (stringChars x) :=
  ⟨_, stringSpelling_escapedChars x.toList, rfl⟩

/-! ### Values -/

theorem spelling_commaSeparated {parts : List (List Token)} {pieces : List (List Char)}
    (h : List.Forall₂ Spelling parts pieces) :
    Spelling ([.mark .comma].intercalate parts) (commaSeparated pieces) := by
  induction h with
  | nil => exact .nil
  | cons hpart hmore ih =>
      cases hmore with
      | nil =>
          rw [List.intercalate_singleton]
          exact hpart
      | cons =>
          rw [List.intercalate_cons_cons, List.append_assoc]
          exact hpart.append (ih.mark .comma)

theorem Spelling.between {opening closing : Mark} (h : Spelling ts s) :
    Spelling (.mark opening :: ts ++ [.mark closing]) (opening.char :: s ++ [closing.char]) :=
  (h.append (Spelling.nil.mark closing)).mark opening

mutual

theorem spelling_compactChars : ∀ v : Value, Spelling v.tokens (compactChars v)
  | .null => .singleton rfl
  | .boolean _ => .singleton rfl
  | .number _ => .singleton rfl
  | .string x => .singleton (spelling_stringChars x)
  | .array items => (spelling_commaSeparated (forall₂_compactItems items)).between
  | .object members => (spelling_commaSeparated (forall₂_compactMembers members)).between

theorem forall₂_compactItems :
    ∀ items : List Value, List.Forall₂ Spelling (itemTokens items) (compactItems items)
  | [] => .nil
  | v :: vs => .cons (spelling_compactChars v) (forall₂_compactItems vs)

theorem forall₂_compactMembers : ∀ members : List (String × Value),
    List.Forall₂ Spelling (memberTokens members) (compactMembers members)
  | [] => .nil
  | (x, v) :: ms =>
      .cons (.token (spelling_stringChars x) ((spelling_compactChars v).mark .colon))
        (forall₂_compactMembers ms)

end

theorem Value.isText_compact (v : Value) : v.IsText v.compact := by
  rw [IsText, compact, String.toList_ofList]
  exact spelling_compactChars v

/-! ### No control characters -/

/-- None of the characters is a control character. -/
def NoControl (cs : List Char) : Prop := ∀ c ∈ cs, 0x20 ≤ c.toNat

instance (cs : List Char) : Decidable (NoControl cs) :=
  List.decidableBAll (fun c : Char => 0x20 ≤ c.toNat) cs

theorem NoControl.cons {c : Char} (hc : 0x20 ≤ c.toNat) (hs : NoControl s) : NoControl (c :: s) :=
  List.forall_mem_cons.2 ⟨hc, hs⟩

theorem NoControl.append (hs : NoControl s) (hr : NoControl r) : NoControl (s ++ r) :=
  List.forall_mem_append.2 ⟨hs, hr⟩

theorem noControl_nil : NoControl [] := List.forall_mem_nil _

theorem noControl_toDigits (n : Nat) : NoControl (Nat.toDigits 10 n) := by
  intro c hc
  have hdigit : '0' ≤ c := by
    have hboth := isDigit_of_mem_toDigits hc
    rw [Numeral.isDigit, Bool.and_eq_true] at hboth
    exact of_decide_eq_true hboth.1
  exact Nat.le_trans (by decide) (Char.le_def.1 hdigit)

theorem noControl_map_digitChar (ds : List (Fin 10)) : NoControl (ds.map digitChar) := by
  have hdigit : ∀ d : Fin 10, 0x20 ≤ (digitChar d).toNat := by decide
  exact List.forall_mem_map.2 fun d _ => hdigit d

theorem noControl_exponent (e : Exponent) : NoControl e.chars := by
  have hmarker : NoControl [if e.capital then 'E' else 'e'] := by
    cases e.capital <;> decide
  refine (hmarker.append ?_).append (noControl_map_digitChar (e.first :: e.more))
  rcases e.sign with _ | _ | _ <;> decide

theorem noControl_number (n : Number) : NoControl n.chars := by
  refine ((NoControl.append ?_ (noControl_toDigits n.whole)).append ?_).append ?_
  · cases n.negative <;> decide
  · cases n.fraction with
    | none => exact noControl_nil
    | some f => exact .cons (by decide) (noControl_map_digitChar (f.first :: f.more))
  · cases n.exponent with
    | none => exact noControl_nil
    | some e => exact noControl_exponent e

theorem noControl_escapedChar (c : Char) : NoControl (escapedChar c) := by
  have hescape : ∀ n < 0x20,
      NoControl (List.replicate (4 - (Nat.toDigits 16 n).length) '0' ++ Nat.toDigits 16 n) := by
    decide
  unfold escapedChar
  split_ifs with hself hb hf hn hr ht hcontrol
  · rcases hself with rfl | rfl <;> exact .cons (by decide) (.cons (by decide) noControl_nil)
  · decide
  · decide
  · decide
  · decide
  · decide
  · exact .cons (by decide) (.cons (by decide) (hescape c.toNat hcontrol))
  · exact .cons (Nat.le_of_not_lt hcontrol) noControl_nil

theorem noControl_stringChars (x : String) : NoControl (stringChars x) := by
  have hbody : NoControl (x.toList.flatMap escapedChar) := by
    intro c hc
    obtain ⟨d, -, hd⟩ := List.mem_flatMap.1 hc
    exact noControl_escapedChar d c hd
  exact .cons (by decide) (hbody.append (.cons (by decide) noControl_nil))

theorem noControl_commaSeparated {pieces : List (List Char)} (h : ∀ p ∈ pieces, NoControl p) :
    NoControl (commaSeparated pieces) := by
  induction pieces with
  | nil => exact noControl_nil
  | cons p ps ih =>
      obtain ⟨hp, hps⟩ := List.forall_mem_cons.1 h
      cases ps with
      | nil => exact hp
      | cons q qs => exact hp.append (.cons (by decide) (ih hps))

mutual

theorem noControl_compactChars : ∀ v : Value, NoControl (compactChars v)
  | .null => by decide
  | .boolean true => by decide
  | .boolean false => by decide
  | .number n => noControl_number n
  | .string x => noControl_stringChars x
  | .array items =>
      .cons (by decide) ((noControl_commaSeparated (noControl_compactItems items)).append
        (.cons (by decide) noControl_nil))
  | .object members =>
      .cons (by decide) ((noControl_commaSeparated (noControl_compactMembers members)).append
        (.cons (by decide) noControl_nil))

theorem noControl_compactItems : ∀ items : List Value, ∀ p ∈ compactItems items, NoControl p
  | [] => List.forall_mem_nil _
  | v :: vs => List.forall_mem_cons.2 ⟨noControl_compactChars v, noControl_compactItems vs⟩

theorem noControl_compactMembers :
    ∀ members : List (String × Value), ∀ p ∈ compactMembers members, NoControl p
  | [] => List.forall_mem_nil _
  | (x, v) :: ms =>
      List.forall_mem_cons.2 ⟨(noControl_stringChars x).append
        (.cons (by decide) (noControl_compactChars v)), noControl_compactMembers ms⟩

end

theorem Value.newline_notMem_compact (v : Value) : '\n' ∉ v.compact.toList := by
  rw [compact, String.toList_ofList]
  intro h
  exact absurd (noControl_compactChars v _ h) (by decide)

/-! ### Objects as texts -/

theorem toList_intercalate_comma (pieces : List String) :
    (",".intercalate pieces).toList = commaSeparated (pieces.map String.toList) := by
  induction pieces with
  | nil => rfl
  | cons p ps ih =>
      cases ps with
      | nil => rw [String.intercalate_singleton]; rfl
      | cons q qs =>
          rw [String.intercalate_cons_of_ne_nil (List.cons_ne_nil q qs), String.toList_append,
            String.toList_append, ih, List.append_assoc]
          rfl

/-- The members of an object stand between braces, with a comma between any two of them. -/
theorem Value.compact_object (members : List (String × Value)) :
    (object members).compact =
      "\x7b" ++ ",".intercalate (members.map fun m => (string m.1).compact ++ ":" ++ m.2.compact)
        ++ "\x7d" := by
  have hmembers : compactMembers members =
      members.map fun m => ((string m.1).compact ++ ":" ++ m.2.compact).toList := by
    induction members with
    | nil => rfl
    | cons m ms ih =>
        rw [compactMembers, ih, List.map_cons]
        simp [compact, compactChars]
  rw [← String.toList_inj, String.toList_append, String.toList_append, toList_intercalate_comma,
    List.map_map, compact, String.toList_ofList, compactChars, hmembers]
  rfl

theorem Value.compact_natural (n : Nat) : (natural n).compact = toString n := by
  have hdigits : toString n = String.ofList (Nat.toDigits 10 n) := rfl
  rw [hdigits, compact, natural, compactChars]
  simp [Number.chars]

end LutFixture.Json
