import LutFixture.Json.Scalar
import LutFixture.Json.Skip

/-!
# Readers of arrays and records

A record is a value with named fields. It is written either as an object, with its members in any
order and with members of other names among them, which are passed over; or as an array of its
fields in their order, of which the last ones may be left out. While it is read it is a draft, in
which any field may still be missing; `Record.complete` says what to make of a draft at the end.
-/

namespace LutFixture.Json

/-- What comes next between the brackets of an array or an object. -/
inductive Next where
  /-- The closing bracket, which is followed by the rest. -/
  | ended (rest : List Char)
  /-- One more item, which begins here. -/
  | more (rest : List Char)

/-- Looks for the next item of an array. -/
def nextItem (first : Bool) (s : List Char) : Except Stop Next :=
  match dropBlanks s with
  | [] => .error (.on .endInList [])
  | c :: r =>
    if c = ']' then .ok (.ended r)
    else if first then .ok (.more (c :: r))
    else if c = ',' then
      match dropBlanks r with
      | [] => .error (.on .endInValue [])
      | d :: left =>
        if d = ']' then .error (.on .trailingComma (d :: left)) else .ok (.more (d :: left))
    else .error (.on .expectedListEnd (c :: r))

/-- Looks for the next key of an object; what is left then stands behind its opening quotation
mark. -/
def nextKey (first : Bool) (s : List Char) : Except Stop Next :=
  match dropBlanks s with
  | [] => .error (.on .endInObject [])
  | c :: r =>
    if c = '\x7d' then .ok (.ended r)
    else if first then
      if c = '"' then .ok (.more r) else .error (.on .keyNotString (c :: r))
    else if c = ',' then
      match dropBlanks r with
      | [] => .error (.on .endInValue [])
      | d :: left =>
        if d = '"' then .ok (.more left)
        else if d = '\x7d' then .error (.on .trailingComma (d :: left))
        else .error (.on .keyNotString (d :: left))
    else .error (.on .expectedObjectEnd (c :: r))

/-- What is left behind the colon of a member. -/
def colon (s : List Char) : Except Stop (List Char) :=
  match dropBlanks s with
  | [] => .error (.on .endInObject [])
  | c :: r => if c = ':' then .ok r else .error (.on .expectedColon (c :: r))

theorem length_of_nextItem {first : Bool} {s rest : List Char}
    (h : nextItem first s = .ok (.more rest)) : rest.length ≤ s.length := by
  have hle := length_dropBlanks_le s
  unfold nextItem at h
  split at h
  · simp at h
  · rename_i c r hs
    rw [hs] at hle
    split at h
    · simp at h
    · split at h
      · obtain rfl := by simpa using h
        exact hle
      · split at h
        · have hr := length_dropBlanks_le r
          split at h
          · simp at h
          · rename_i d left hd
            rw [hd] at hr
            split at h
            · simp at h
            · obtain rfl := by simpa using h
              simp only [List.length_cons] at hle hr ⊢
              omega
        · simp at h

theorem length_of_nextKey {first : Bool} {s rest : List Char}
    (h : nextKey first s = .ok (.more rest)) : rest.length < s.length := by
  unfold nextKey at h
  split at h
  · simp at h
  · rename_i c r hs
    have hlt := length_of_dropBlanks_eq_cons hs
    split at h
    · simp at h
    · split at h
      · split at h
        · obtain rfl := by simpa using h
          exact hlt
        · simp at h
      · split at h
        · split at h
          · simp at h
          · rename_i d left hd
            have := length_of_dropBlanks_eq_cons hd
            split at h
            · obtain rfl := by simpa using h
              omega
            · split at h <;> simp at h
        · simp at h

theorem length_of_colon {s rest : List Char} (h : colon s = .ok rest) :
    rest.length < s.length := by
  unfold colon at h
  split at h
  · simp at h
  · rename_i c r hs
    split at h
    · obtain rfl := by simpa using h
      exact length_of_dropBlanks_eq_cons hs
    · simp at h

namespace Reader

variable {α : Type}

/-- The items of an array, behind items that are given, and kept, in reverse; none of them is left
out if `first` holds. -/
def itemsOnto (r : Reader α) (done : List α) (first : Bool) (s : List Char) : Reading (List α) :=
  match _h : nextItem first s with
  | .error e => .error e
  | .ok (.ended rest) => .ok (done.reverse, rest)
  | .ok (.more here) =>
    match _h : r.read here with
    | .error e => .error e
    | .ok (a, rest) => r.itemsOnto (a :: done) false rest
termination_by s.length
decreasing_by
  have := r.progress _h
  have := length_of_nextItem ‹nextItem first s = _›
  omega

theorem length_of_nextItem_ended {first : Bool} {s rest : List Char}
    (h : nextItem first s = .ok (.ended rest)) : rest.length < s.length := by
  unfold nextItem at h
  split at h
  · simp at h
  · rename_i c r hs
    split at h
    · obtain rfl := by simpa using h
      exact length_of_dropBlanks_eq_cons hs
    · split at h
      · simp at h
      · split at h
        · split at h
          · simp at h
          · split at h <;> simp at h
        · simp at h

theorem length_of_itemsOnto {r : Reader α} {done a : List α} {first : Bool} {s rest : List Char}
    (h : r.itemsOnto done first s = .ok (a, rest)) : rest.length < s.length := by
  fun_induction itemsOnto r done first s with
  | case1 => simp at h
  | case2 done first s left hn =>
    obtain ⟨-, rfl⟩ := by simpa using h
    exact length_of_nextItem_ended hn
  | case3 => simp at h
  | case4 done first s here hn x left hr ih =>
    have := length_of_nextItem hn
    have := r.progress hr
    have := ih h
    omega

/-- What an array goes on with. -/
def listBody (r : Reader α) (c : Char) (s : List Char) : Option (Reading (List α)) :=
  if c = '[' then some (r.itemsOnto [] true s) else none

/-- Reads an array of any length. -/
def list (r : Reader α) : Reader (List α) :=
  beginning "a sequence" (listBody r) fun {c s a rest} h => by
    unfold listBody at h
    split at h
    · exact Nat.le_of_lt (length_of_itemsOnto (Option.some.inj h))
    · simp at h

end Reader

/-- A field of a record that is being read into a draft. -/
structure Field (σ : Type) where
  /-- The key of the field in an object. -/
  name : String
  /-- The draft has the field already. -/
  given : σ → Bool
  /-- Reads the field; the answer enters it in a draft. -/
  update : Reader (σ → σ)

/-- The two ways in which a record is written. -/
inductive Form where
  | object
  | array
deriving DecidableEq, Repr

/-- A kind of values with named fields. -/
structure Record (σ α : Type) where
  /-- How messages name the kind. -/
  title : String
  /-- The fields, in their order in an array. -/
  fields : List (Field σ)
  /-- The draft without any field. -/
  blank : σ
  /-- The value that a draft amounts to, or what is missing from it. -/
  complete : Form → σ → Except Fault α

namespace Record

variable {σ α : Type}

/-- Where a fault is placed that concerns an object as a whole: behind the closing bracket, if
that is what comes next, and else in front of what does. -/
def wholeObject (fault : Fault) (s : List Char) : Stop :=
  match dropBlanks s with
  | [] => .before fault []
  | c :: r => if c = '\x7d' then .before fault r else .before fault (c :: r)

/-- One member of an object, behind the opening quotation mark of its key, entered in a draft. -/
def member (fields : List (Field σ)) (d : σ) (s : List Char) : Except Stop (σ × List Char) := do
  let (name, s) ← string s
  match fields.find? fun f => f.name.toList == name with
  | none =>
    let s ← colon s
    let rest ← Skip.value s
    return (d, rest)
  | some f =>
    if f.given d then throw (wholeObject (.duplicateField f.name) s)
    else
      let s ← colon s
      let (enter, rest) ← f.update.read s
      return (enter d, rest)

theorem length_of_member {fields : List (Field σ)} {d a : σ} {s rest : List Char}
    (h : member fields d s = .ok (a, rest)) : rest.length < s.length := by
  obtain ⟨⟨name, s1⟩, hs, h⟩ := exists_of_bind_eq_ok h
  have h1 := length_of_string hs
  dsimp only at h
  split at h
  · obtain ⟨s2, hc, h⟩ := exists_of_bind_eq_ok h
    obtain ⟨s3, hv, h⟩ := exists_of_bind_eq_ok h
    obtain ⟨-, rfl⟩ := Prod.mk.inj (Except.ok.inj h)
    have h2 := length_of_colon hc
    have h3 := Skip.length_of_value hv
    omega
  · rename_i f _
    split at h
    · simp [throw, throwThe, MonadExceptOf.throw] at h
    · obtain ⟨s2, hc, h⟩ := exists_of_bind_eq_ok h
      obtain ⟨⟨enter, s3⟩, hv, h⟩ := exists_of_bind_eq_ok h
      obtain ⟨-, rfl⟩ := Prod.mk.inj (Except.ok.inj h)
      have h2 := length_of_colon hc
      have h3 := f.update.progress hv
      simp only
      omega

/-- The members of an object, entered in a draft. -/
def members (fields : List (Field σ)) (d : σ) (first : Bool) (s : List Char) : Reading σ :=
  match _h : nextKey first s with
  | .error e => .error e
  | .ok (.ended rest) => .ok (d, rest)
  | .ok (.more here) =>
    match _h : member fields d here with
    | .error e => .error e
    | .ok (d, rest) => members fields d false rest
termination_by s.length
decreasing_by
  have := length_of_member _h
  have := length_of_nextKey ‹nextKey first s = _›
  omega

/-- The end of an array in which every field has been given. -/
def arrayEnd (s : List Char) : Except Stop (List Char) :=
  match dropBlanks s with
  | [] => .error (.on .endInList [])
  | c :: r =>
    if c = ']' then .ok r
    else if c = ',' then
      match dropBlanks r with
      | [] => .error (.on .trailingCharacters [])
      | d :: left =>
        if d = ']' then .error (.on .trailingComma (d :: left))
        else .error (.on .trailingCharacters (d :: left))
    else .error (.on .trailingCharacters (c :: r))

/-- The items of an array, entered in a draft as the fields in their order. -/
def items : List (Field σ) → σ → Bool → List Char → Reading σ
  | [], d, _, s => (arrayEnd s).map fun rest => (d, rest)
  | f :: fs, d, first, s =>
    match nextItem first s with
    | .error e => .error e
    | .ok (.ended rest) => .ok (d, rest)
    | .ok (.more here) =>
      match f.update.read here with
      | .error e => .error e
      | .ok (enter, rest) => items fs (enter d) false rest

theorem length_of_members {fields : List (Field σ)} {d a : σ} {first : Bool} {s rest : List Char}
    (h : members fields d first s = .ok (a, rest)) : rest.length ≤ s.length := by
  fun_induction members fields d first s with
  | case1 => simp at h
  | case2 d first s left hn =>
    obtain ⟨-, rfl⟩ := by simpa using h
    unfold nextKey at hn
    split at hn
    · simp at hn
    · rename_i c r hs
      have := length_of_dropBlanks_eq_cons hs
      split at hn
      · obtain rfl := by simpa using hn
        omega
      · split at hn
        · split at hn <;> simp at hn
        · split at hn
          · split at hn
            · simp at hn
            · split at hn
              · simp at hn
              · split at hn <;> simp at hn
          · simp at hn
  | case3 => simp at h
  | case4 d first s here hn d' left hm ih =>
    have := length_of_nextKey hn
    have := length_of_member hm
    have := ih h
    omega

theorem length_of_arrayEnd {s rest : List Char} (h : arrayEnd s = .ok rest) :
    rest.length < s.length := by
  unfold arrayEnd at h
  split at h
  · simp at h
  · rename_i c r hs
    split at h
    · obtain rfl := by simpa using h
      exact length_of_dropBlanks_eq_cons hs
    · split at h
      · split at h
        · simp at h
        · split at h <;> simp at h
      · simp at h

theorem length_of_items {fields : List (Field σ)} {d a : σ} {first : Bool} {s rest : List Char}
    (h : items fields d first s = .ok (a, rest)) : rest.length ≤ s.length := by
  induction fields generalizing d first s with
  | nil =>
    unfold items at h
    obtain ⟨r, he, hr⟩ := exists_of_map_eq_ok h
    obtain ⟨-, rfl⟩ := Prod.mk.inj hr
    exact Nat.le_of_lt (length_of_arrayEnd he)
  | cons f fs ih =>
    unfold items at h
    split at h
    · simp at h
    · rename_i left hn
      obtain ⟨-, rfl⟩ := by simpa using h
      exact Nat.le_of_lt (Reader.length_of_nextItem_ended hn)
    · rename_i here hn
      split at h
      · simp at h
      · rename_i hr
        have := length_of_nextItem hn
        have := f.update.progress hr
        have := ih h
        omega

/-- What to make of a draft whose last character has been read. -/
def close (k : Record σ α) (form : Form) (d : σ) (rest : List Char) : Reading α :=
  match k.complete form d with
  | .ok a => .ok (a, rest)
  | .error fault => .error (.before fault rest)

/-- What a record goes on with, by its opening bracket. -/
def body (k : Record σ α) (c : Char) (s : List Char) : Option (Reading α) :=
  if c = '\x7b' then some ((members k.fields k.blank true s).bind fun x => k.close .object x.1 x.2)
  else if c = '[' then some ((items k.fields k.blank true s).bind fun x => k.close .array x.1 x.2)
  else none

theorem rest_of_close {k : Record σ α} {form : Form} {d : σ} {s rest : List Char} {a : α}
    (h : k.close form d s = .ok (a, rest)) : rest = s := by
  unfold close at h
  split at h
  · obtain ⟨-, rfl⟩ := by simpa using h
    rfl
  · simp at h

/-- Reads a record. -/
def reader (k : Record σ α) : Reader α :=
  Reader.beginning k.title k.body fun {c s a rest} h => by
    unfold body at h
    split at h
    · obtain ⟨x, hm, h⟩ := exists_of_bind_eq_ok (Option.some.inj h)
      rw [rest_of_close h]
      exact length_of_members hm
    · split at h
      · obtain ⟨x, hm, h⟩ := exists_of_bind_eq_ok (Option.some.inj h)
        rw [rest_of_close h]
        exact length_of_items hm
      · simp at h

end Record

end LutFixture.Json
