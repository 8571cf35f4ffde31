import LutFixture.Proofs.Json.Draft

/-!
# What a record means

A record means what its draft amounts to. An object is entered in the draft member by member, and
an array item by item, as the fields in their order; the array may be shorter than they are, but
not longer. `Record.reads` says that the reader of a record takes every value for that, so what is
left to say about a record is about lists of members and of items, and no longer about texts.
-/

namespace LutFixture.Json

variable {α β σ : Type} {k k' : List Token} {s rest here : List Char} {v : Value} {vs : List Value}
  {x : String} {ms : List (String × Value)} {d : σ} {first : Bool}

/-- Enters the items of an array in a draft. -/
def Slot.fill : List (Slot σ) → σ → List Value → Option σ
  | _, d, [] => some d
  | [], _, _ :: _ => none
  | a :: as, d, v :: vs => (a.meaning v).bind fun b => fill as (a.put b d) vs

/-- What an object or an array amounts to as a record. -/
def Record.meaning (r : Record σ α) (slots : List (Slot σ)) : Value → Option α
  | .object members =>
    (members.foldlM (Slot.enter slots) r.blank).bind fun d => (r.complete .object d).toOption
  | .array items =>
    (Slot.fill slots r.blank items).bind fun d => (r.complete .array d).toOption
  | _ => none

/-- A field reads what goes into its slot. -/
theorem Slot.yields_update {a : Slot σ} {f : (σ → σ) × List Char → Reading β}
    {g : a.Content → Option β} (hk : Closed k) (hs : Spelling (v.tokens ++ k) s)
    (hf : ∀ b rest, Spelling k rest → Yields (f (a.put b, rest)) (g b) k') :
    Yields ((a.field.update.read s).bind f) ((a.meaning v).bind g) k' := by
  have hread : Yields (a.field.update.read s) ((a.meaning v).map a.put) k :=
    a.reads.map a.put v k s hk hs
  cases hm : a.meaning v with
  | none =>
      rw [hm] at hread
      obtain ⟨e, he⟩ := hread
      exact ⟨e, by rw [he]; rfl⟩
  | some b =>
      rw [hm] at hread
      obtain ⟨rest, hb, hrest⟩ := hread
      rw [hb]
      exact hf b rest hrest

/-! ### Members -/

theorem exists_nextKey_ended
    (h : Spelling (partsAhead first (memberTokens []) ++ .mark .closeObject :: k) s) :
    ∃ rest, nextKey first s = .ok (.ended rest) ∧ Spelling k rest := by
  rw [memberTokens, partsAhead_nil] at h
  obtain ⟨rest, hs, hrest⟩ := h.exists_of_mark
  refine ⟨rest, ?_, hrest⟩
  rw [nextKey, hs]
  rfl

theorem exists_nextKey_more
    (h : Spelling (partsAhead first (memberTokens ((x, v) :: ms)) ++ .mark .closeObject :: k) s) :
    ∃ here rest, nextKey first s = .ok (.more here) ∧ string here = .ok (x.toList, rest) ∧
      Spelling (.mark .colon ::
        (v.tokens ++ (partsAhead false (memberTokens ms) ++ .mark .closeObject :: k))) rest := by
  rw [memberTokens] at h
  cases first with
  | true =>
      rw [partsAhead_true_cons] at h
      obtain ⟨body, rest, hs, hbody, hrest⟩ := h.exists_of_string
      refine ⟨body ++ '"' :: rest, rest, ?_, string_of_spelling hbody rest, hrest⟩
      rw [nextKey, hs]
      rfl
  | false =>
      rw [partsAhead_false_cons] at h
      obtain ⟨r, hs, hr⟩ := h.exists_of_mark
      obtain ⟨body, rest, hkey, hbody, hrest⟩ := hr.exists_of_string
      refine ⟨body ++ '"' :: rest, rest, ?_, string_of_spelling hbody rest, hrest⟩
      rw [nextKey, hs]
      simp [Mark.char, hkey]

theorem exists_colon_eq (h : Spelling (.mark .colon :: k) s) :
    ∃ rest, colon s = .ok rest ∧ Spelling k rest := by
  obtain ⟨rest, hs, hrest⟩ := h.exists_of_mark
  refine ⟨rest, ?_, hrest⟩
  rw [colon, hs]
  rfl

namespace Record

variable {r : Record σ α} {slots : List (Slot σ)}

theorem find?_map_field (slots : List (Slot σ)) (x : String) :
    ((slots.map Slot.field).find? fun f => f.name.toList == x.toList) =
      (slots.find? fun a => a.name == x).map Slot.field := by
  have hname : ∀ y : String, (y.toList == x.toList) = (y == x) := by
    intro y
    simp [Bool.beq_eq_decide_eq, String.toList_inj]
  simp only [List.find?_map, hname]
  rfl

theorem yields_member (hkey : string here = .ok (x.toList, s))
    (hs : Spelling (.mark .colon :: (v.tokens ++ k)) s) (hk : Closed k) :
    Yields (member (slots.map Slot.field) d here) (Slot.enter slots d (x, v)) k := by
  obtain ⟨inside, hcolon, hinside⟩ := exists_colon_eq hs
  have hfind := find?_map_field slots x
  unfold Slot.enter
  cases hslot : slots.find? fun a => a.name == x with
  | none =>
      obtain ⟨rest, hskip, hrest⟩ := skip_value_of_spelling hk hinside
      have hmember : member (slots.map Slot.field) d here = .ok (d, rest) := by
        simp only [member, hkey, hfind, hslot, bind, Except.bind, hcolon, hskip, Option.map_none]
        rfl
      exact ⟨rest, hmember, hrest⟩
  | some a =>
      by_cases hgiven : (a.content d).isSome = true
      · have hmember : member (slots.map Slot.field) d here =
            .error (wholeObject (.duplicateField a.name) s) := by
          simp only [member, hkey, hfind, hslot, bind, Except.bind, Slot.field, hgiven,
            Option.map_some, if_true]
          rfl
        simp only [hgiven, if_true]
        exact ⟨_, hmember⟩
      · have hmember : member (slots.map Slot.field) d here =
            (a.field.update.read inside).bind fun y => .ok (y.1 d, y.2) := by
          simp only [member, hkey, hfind, hslot, bind, Except.bind, Slot.field, hgiven,
            Option.map_some, if_false, hcolon, Bool.false_eq_true]
          rfl
        simp only [hgiven, if_false, Bool.false_eq_true]
        rw [hmember, Option.map_eq_bind]
        exact Slot.yields_update hk hinside fun b rest hrest => ⟨rest, rfl, hrest⟩

theorem members_eq (fields : List (Field σ)) (d : σ) (first : Bool) (s : List Char) :
    members fields d first s =
      match nextKey first s with
      | .error e => .error e
      | .ok (.ended rest) => .ok (d, rest)
      | .ok (.more here) => (member fields d here).bind fun y => members fields y.1 false y.2 := by
  rw [members]
  split <;> rename_i hnext <;> simp only [hnext]
  split <;> rename_i hmember <;> rw [hmember] <;> rfl

/-- The members of an object are entered one after another. -/
theorem yields_members (slots : List (Slot σ)) (ms : List (String × Value)) (d : σ) (first : Bool)
    (hs : Spelling (partsAhead first (memberTokens ms) ++ .mark .closeObject :: k) s) :
    Yields (members (slots.map Slot.field) d first s) (ms.foldlM (Slot.enter slots) d) k := by
  induction ms generalizing d first s with
  | nil =>
      obtain ⟨rest, hnext, hrest⟩ := exists_nextKey_ended hs
      rw [members_eq, hnext]
      exact ⟨rest, rfl, hrest⟩
  | cons m ms ih =>
      obtain ⟨x, v⟩ := m
      obtain ⟨here, rest, hnext, hkey, hrest⟩ := exists_nextKey_more hs
      rw [members_eq, hnext, List.foldlM_cons]
      exact (yields_member hkey hrest (closed_partsAhead _ _ _)).bind fun d rest hrest =>
        ih d false hrest

/-! ### Items -/

theorem exists_arrayEnd_eq (h : Spelling (.mark .closeList :: k) s) :
    ∃ rest, arrayEnd s = .ok rest ∧ Spelling k rest := by
  obtain ⟨rest, hs, hrest⟩ := h.exists_of_mark
  refine ⟨rest, ?_, hrest⟩
  rw [arrayEnd, hs]
  rfl

theorem exists_arrayEnd_eq_error
    (h : Spelling (partsAhead first (itemTokens (v :: vs)) ++ .mark .closeList :: k) s) :
    ∃ e, arrayEnd s = .error e := by
  rw [itemTokens] at h
  cases first with
  | true =>
      rw [partsAhead_true_cons] at h
      obtain ⟨c, r, hs, hc⟩ := h.exists_begins
      have hclose : c ≠ ']' := hc.ne_of_mem (by decide)
      have hcomma : c ≠ ',' := hc.ne_of_mem (by decide)
      simp only [arrayEnd, hs, if_neg hclose, if_neg hcomma]
      exact ⟨_, rfl⟩
  | false =>
      rw [partsAhead_false_cons] at h
      obtain ⟨r, hs, hr⟩ := h.exists_of_mark
      obtain ⟨c, left, hc, hbegins⟩ := hr.exists_begins
      have hne : c ≠ ']' := hbegins.ne_of_mem (by decide)
      rw [arrayEnd, hs]
      simp [Mark.char, hc, hne]

/-- Behind the last item the array has to end, whether or not there are more fields. -/
theorem yields_items_nil (as : List (Slot σ)) (d : σ)
    (hs : Spelling (partsAhead first (itemTokens []) ++ .mark .closeList :: k) s) :
    Yields (items (as.map Slot.field) d first s) (some d) k := by
  cases as with
  | nil =>
      rw [itemTokens, partsAhead_nil] at hs
      obtain ⟨rest, hend, hrest⟩ := exists_arrayEnd_eq hs
      have hitems : items (([] : List (Slot σ)).map Slot.field) d first s = .ok (d, rest) := by
        rw [List.map_nil, items, hend]
        rfl
      exact ⟨rest, hitems, hrest⟩
  | cons a as =>
      obtain ⟨rest, hnext, hrest⟩ := exists_nextItem_ended hs
      exact ⟨rest, by rw [List.map_cons, items, hnext], hrest⟩

/-- The items of an array are entered one after another. -/
theorem yields_items (as : List (Slot σ)) (vs : List Value) (d : σ) (first : Bool)
    (hs : Spelling (partsAhead first (itemTokens vs) ++ .mark .closeList :: k) s) :
    Yields (items (as.map Slot.field) d first s) (Slot.fill as d vs) k := by
  induction vs generalizing as d first s with
  | nil =>
      rw [Slot.fill]
      exact yields_items_nil as d hs
  | cons v vs ih =>
      cases as with
      | nil =>
          obtain ⟨e, hend⟩ := exists_arrayEnd_eq_error hs
          exact ⟨e, by rw [List.map_nil, items, hend]; rfl⟩
      | cons a as =>
          obtain ⟨here, hnext, hhere⟩ := exists_nextItem_more hs
          have hitems : items ((a :: as).map Slot.field) d first s =
              (a.field.update.read here).bind fun y =>
                items (as.map Slot.field) (y.1 d) false y.2 := by
            simp only [List.map_cons, items, hnext]
            cases a.field.update.read here <;> rfl
          rw [hitems, Slot.fill]
          exact Slot.yields_update (closed_partsAhead _ _ _) hhere fun b rest hrest =>
            ih as (a.put b d) false hrest

/-! ### Records -/

theorem yields_close (r : Record σ α) (form : Form) (d : σ) (hrest : Spelling k rest) :
    Yields (r.close form d rest) (r.complete form d).toOption k := by
  unfold close
  cases r.complete form d with
  | ok a => exact ⟨rest, rfl, hrest⟩
  | error fault => exact ⟨_, rfl⟩

/-- The reader of a record takes every value for what it means as a record. -/
theorem reads (hfields : r.fields = slots.map Slot.field) :
    r.reader.Reads (r.meaning slots) := by
  intro v k s _ hs
  by_cases hv : (∃ members, v = .object members) ∨ ∃ items, v = .array items
  · rcases hv with ⟨members, rfl⟩ | ⟨items, rfl⟩
    · rw [tokens_object] at hs
      obtain ⟨inside, hopen, hinside⟩ := hs.exists_of_mark
      have hmembers := yields_members slots members r.blank true hinside
      rw [← hfields] at hmembers
      have hread : r.reader.read s =
          (Record.members r.fields r.blank true inside).bind fun y => r.close .object y.1 y.2 :=
        Reader.readBeginning_eq hopen (if_pos rfl)
      rw [hread]
      exact hmembers.bind fun d rest hrest => r.yields_close .object d hrest
    · rw [tokens_array] at hs
      obtain ⟨inside, hopen, hinside⟩ := hs.exists_of_mark
      have hitems := yields_items slots items r.blank true hinside
      rw [← hfields] at hitems
      have hread : r.reader.read s =
          (Record.items r.fields r.blank true inside).bind fun y => r.close .array y.1 y.2 :=
        Reader.readBeginning_eq hopen rfl
      rw [hread]
      exact hitems.bind fun d rest hrest => r.yields_close .array d hrest
  · have hnone : r.meaning slots v = none := by
      cases v with
      | object members => exact absurd (.inl ⟨members, rfl⟩) hv
      | array items => exact absurd (.inr ⟨items, rfl⟩) hv
      | _ => rfl
    rw [hnone]
    apply Reader.yields_none_of_begins hs
    intro c left hc
    rw [body, if_neg, if_neg]
    · rintro rfl
      exact hv (.inr hc.exists_array)
    · rintro rfl
      exact hv (.inl hc.exists_object)

end Record

end LutFixture.Json
