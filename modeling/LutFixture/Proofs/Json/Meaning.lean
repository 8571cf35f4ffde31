import LutFixture.Json.Collection
import LutFixture.Proofs.Json.Skip

/-!
# What readers make of a value

A reader has a meaning: what it takes a value for, or nothing if it refuses it. `Reader.Reads` says
that a reader has a given meaning whichever text of the value it is shown, and whatever follows:
it answers with what the value means and stops right behind it, or it stops at a fault. A Boolean
means itself, and an array means what its items mean, one by one.
-/

namespace LutFixture.Json

variable {α β : Type} {k k' : List Token} {s rest here : List Char} {v : Value} {vs : List Value}
  {first : Bool}

/-! ### Readings -/

/-- The reading gives what there is to be read and leaves the tokens behind it; where there is
nothing to be read it stops at a fault. -/
def Yields (m : Reading α) (o : Option α) (k : List Token) : Prop :=
  match o with
  | some a => ∃ rest, m = .ok (a, rest) ∧ Spelling k rest
  | none => ∃ e, m = .error e

theorem Yields.bind {m : Reading α} {o : Option α} {f : α × List Char → Reading β}
    {g : α → Option β} (h : Yields m o k)
    (hf : ∀ a rest, Spelling k rest → Yields (f (a, rest)) (g a) k') :
    Yields (m.bind f) (o.bind g) k' := by
  cases o with
  | none =>
      obtain ⟨e, rfl⟩ := h
      exact ⟨e, rfl⟩
  | some a =>
      obtain ⟨rest, rfl, hrest⟩ := h
      exact hf a rest hrest

theorem exists_of_mapError_eq_error {ε δ : Type} {x : Except ε α} {g : ε → δ} {e : δ}
    (h : x.mapError g = .error e) : ∃ f, e = g f := by
  cases x with
  | ok a => cases h
  | error f => exact ⟨f, (Except.error.inj h).symm⟩

/-- The reader takes every value for what it means, whichever text of it there is to be read. -/
def Reader.Reads (r : Reader α) (meaning : Value → Option α) : Prop :=
  ∀ (v : Value) (k : List Token) (s : List Char), Closed k → Spelling (v.tokens ++ k) s →
    Yields (r.read s) (meaning v) k

namespace Reader

variable {r : Reader α} {meaning : Value → Option α}

theorem Reads.map (h : r.Reads meaning) (g : α → β) :
    (r.map g).Reads fun v => (meaning v).map g := by
  intro v k s hk hs
  have hread : (r.map g).read s = (r.read s).bind fun x => .ok (g x.1, x.2) := by
    unfold Reader.map
    cases hr : r.read s <;> simp only [hr] <;> rfl
  simp only [hread, Option.map_eq_bind]
  exact (h v k s hk hs).bind fun a rest hrest => ⟨rest, rfl, hrest⟩

/-- A reader of whole texts answers with the meaning of the value, or fails. -/
theorem Reads.toOption_whole (h : r.Reads meaning) {text : String} (htext : v.IsText text) :
    (r.whole text.toList).toOption = meaning v := by
  have hv := h v [] text.toList closed_nil (by rwa [List.append_nil])
  cases hm : meaning v with
  | none =>
      rw [hm] at hv
      obtain ⟨e, hread⟩ := hv
      rw [whole, hread]
      rfl
  | some a =>
      rw [hm] at hv
      obtain ⟨rest, hread, hrest⟩ := hv
      rw [whole, hread]
      simp only [hrest.dropBlanks_eq_nil]
      rfl

/-- A whole text of a value is read as what the value means, whatever becomes of a failure. -/
theorem Reads.mapError_whole_eq_ok_iff {ε : Type} (h : r.Reads meaning) {text : String}
    (htext : v.IsText text) (g : Failure → ε) {a : α} :
    (r.whole text.toList).mapError g = .ok a ↔ meaning v = some a := by
  rw [← h.toOption_whole htext]
  cases r.whole text.toList <;> simp [Except.mapError, Except.toOption]

end Reader

/-! ### The first character -/

theorem Value.Begins.eq_boolean {b : Bool} (h : v.Begins (if b then 't' else 'f')) :
    v = .boolean b := by
  cases v with
  | boolean c => cases b <;> cases c <;> first | rfl | cases h
  | number n => cases b <;> rcases h with h | h <;> exact absurd h (by decide)
  | null | string | array | object => cases b <;> cases h

theorem Value.Begins.exists_array (h : v.Begins '[') : ∃ items, v = .array items := by
  cases v with
  | array items => exact ⟨items, rfl⟩
  | boolean b => cases b <;> cases h
  | number n => rcases h with h | h <;> exact absurd h (by decide)
  | null | string | object => cases h

theorem Value.Begins.exists_object (h : v.Begins '\x7b') : ∃ members, v = .object members := by
  cases v with
  | object members => exact ⟨members, rfl⟩
  | boolean b => cases b <;> cases h
  | number n => rcases h with h | h <;> exact absurd h (by decide)
  | null | string | array => cases h

namespace Reader

theorem readBeginning_eq {expected : String} {body : Char → List Char → Option (Reading α)}
    {c : Char} {r : List Char} {m : Reading α} (h : dropBlanks s = c :: r)
    (hbody : body c r = some m) : readBeginning expected body s = m := by
  simp only [readBeginning, h, hbody, Option.getD_some]

/-- A value that begins like none of the wanted kind is refused. -/
theorem yields_none_of_begins {body : Char → List Char → Option (Reading α)}
    (h : Spelling (v.tokens ++ k) s) (hbody : ∀ c r, v.Begins c → body c r = none)
    (expected : String) : Yields (readBeginning expected body s) none k := by
  obtain ⟨c, r, hs, hc⟩ := h.exists_begins
  simp only [readBeginning, hs, hbody c r hc, Option.getD_none]
  exact ⟨_, rfl⟩

end Reader

/-! ### Booleans -/

/-- A Boolean means itself. -/
def Value.boolean? : Value → Option Bool
  | .boolean b => some b
  | _ => none

theorem Value.boolean?_eq_some {b : Bool} : v.boolean? = some b ↔ v = .boolean b := by
  cases v <;> simp [boolean?]

namespace Reader

theorem wordFor_append (letters : String) (a : α) (rest : List Char) :
    wordFor letters a (letters.toList ++ rest) = .ok (a, rest) :=
  congrArg (Except.map fun rest => (a, rest)) (Skip.word_append letters.toList rest)

theorem reads_boolean : boolean.Reads Value.boolean? := by
  intro v k s _ h
  cases hv : v.boolean? with
  | some b =>
      obtain rfl := Value.boolean?_eq_some.1 hv
      obtain ⟨w, rest, rfl, hrest, hs⟩ := h.exists_of_cons
      refine ⟨rest, ?_, hrest⟩
      cases b with
      | true => exact readBeginning_eq hs (congrArg some (wordFor_append "rue" true rest))
      | false => exact readBeginning_eq hs (congrArg some (wordFor_append "alse" false rest))
  | none =>
      apply yields_none_of_begins h
      intro c r hc
      rw [booleanBody, if_neg, if_neg]
      · rintro rfl
        rw [hc.eq_boolean (b := false)] at hv
        cases hv
      · rintro rfl
        rw [hc.eq_boolean (b := true)] at hv
        cases hv

end Reader

/-! ### Arrays -/

/-- The items of an array. -/
def Value.items? : Value → Option (List Value)
  | .array items => some items
  | _ => none

theorem Value.items?_eq_some {items : List Value} :
    v.items? = some items ↔ v = .array items := by
  cases v <;> simp [items?]

theorem exists_nextItem_ended
    (h : Spelling (partsAhead first (itemTokens []) ++ .mark .closeList :: k) s) :
    ∃ rest, nextItem first s = .ok (.ended rest) ∧ Spelling k rest := by
  rw [itemTokens, partsAhead_nil] at h
  obtain ⟨rest, hs, hrest⟩ := h.exists_of_mark
  refine ⟨rest, ?_, hrest⟩
  rw [nextItem, hs]
  rfl

theorem exists_nextItem_more
    (h : Spelling (partsAhead first (itemTokens (v :: vs)) ++ .mark .closeList :: k) s) :
    ∃ here, nextItem first s = .ok (.more here) ∧
      Spelling (v.tokens ++ (partsAhead false (itemTokens vs) ++ .mark .closeList :: k)) here := by
  rw [itemTokens] at h
  cases first with
  | true =>
      rw [partsAhead_true_cons] at h
      obtain ⟨c, r, hs, hc⟩ := h.exists_begins
      have hne : c ≠ ']' := hc.ne_closing .list
      refine ⟨c :: r, ?_, hs ▸ h.behind_blanks⟩
      simp only [nextItem, hs, if_neg hne, if_true]
  | false =>
      rw [partsAhead_false_cons] at h
      obtain ⟨r, hs, hr⟩ := h.exists_of_mark
      obtain ⟨c, left, hc, hbegins⟩ := hr.exists_begins
      have hne : c ≠ ']' := hbegins.ne_closing .list
      refine ⟨c :: left, ?_, hc ▸ hr.behind_blanks⟩
      rw [nextItem, hs]
      simp [Mark.char, hc, hne]

theorem mapM_cons_eq (f : β → Option α) (b : β) (bs : List β) :
    (b :: bs).mapM f = (f b).bind fun a => (bs.mapM f).map (a :: ·) := by
  rw [List.mapM_cons]
  cases f b <;> cases bs.mapM f <;> rfl

theorem mapM_eq_some_iff {f : β → Option α} {bs : List β} {as : List α} :
    bs.mapM f = some as ↔ List.Forall₂ (fun b a => f b = some a) bs as := by
  induction bs generalizing as with
  | nil => simp [eq_comm]
  | cons b bs ih =>
      simp only [mapM_cons_eq, Option.bind_eq_some_iff, Option.map_eq_some_iff, ih,
        List.forall₂_cons_left_iff]
      constructor
      · rintro ⟨a, ha, as, has, rfl⟩
        exact ⟨a, as, ha, has, rfl⟩
      · rintro ⟨a, as, ha, has, rfl⟩
        exact ⟨a, ha, as, has, rfl⟩

namespace Reader

variable {r : Reader α} {meaning : Value → Option α} {done : List α}

theorem itemsOnto_eq (r : Reader α) (done : List α) (first : Bool) (s : List Char) :
    r.itemsOnto done first s =
      match nextItem first s with
      | .error e => .error e
      | .ok (.ended rest) => .ok (done.reverse, rest)
      | .ok (.more here) => (r.read here).bind fun x => r.itemsOnto (x.1 :: done) false x.2 := by
  rw [itemsOnto]
  split <;> rename_i hnext <;> simp only [hnext]
  split <;> rename_i hread <;> rw [hread] <;> rfl

theorem Reads.yields_itemsOnto (h : r.Reads meaning) (vs : List Value) (done : List α)
    (first : Bool) (hs : Spelling (partsAhead first (itemTokens vs) ++ .mark .closeList :: k) s) :
    Yields (r.itemsOnto done first s) ((vs.mapM meaning).map (done.reverse ++ ·)) k := by
  induction vs generalizing done first s with
  | nil =>
      obtain ⟨rest, hnext, hrest⟩ := exists_nextItem_ended hs
      rw [itemsOnto_eq, hnext]
      exact ⟨rest, by simp, hrest⟩
  | cons v vs ih =>
      obtain ⟨here, hnext, hhere⟩ := exists_nextItem_more hs
      have hcons : ((v :: vs).mapM meaning).map (done.reverse ++ ·) = (meaning v).bind fun a =>
          (vs.mapM meaning).map ((a :: done).reverse ++ ·) := by
        rw [mapM_cons_eq]
        cases meaning v <;> cases vs.mapM meaning <;> simp
      rw [itemsOnto_eq, hnext, hcons]
      exact (h v _ here (closed_partsAhead _ _ _) hhere).bind fun a rest hrest =>
        ih (a :: done) false hrest

/-- An array means what its items mean. -/
theorem Reads.list (h : r.Reads meaning) :
    r.list.Reads fun v => v.items?.bind (List.mapM meaning) := by
  intro v k s _ hs
  cases hv : v.items? with
  | some items =>
      obtain rfl := Value.items?_eq_some.1 hv
      rw [tokens_array] at hs
      obtain ⟨inside, hopen, hinside⟩ := hs.exists_of_mark
      have hread : r.list.read s = r.itemsOnto [] true inside :=
        readBeginning_eq hopen (if_pos rfl)
      have hitems := h.yields_itemsOnto items [] true hinside
      simp only [List.reverse_nil, List.nil_append, Option.map_id'] at hitems
      rw [hread]
      exact hitems
  | none =>
      simp only [hv, Option.bind_none]
      apply yields_none_of_begins hs
      intro c left hc
      rw [listBody, if_neg]
      rintro rfl
      obtain ⟨items, rfl⟩ := hc.exists_array
      cases hv

end Reader

end LutFixture.Json
