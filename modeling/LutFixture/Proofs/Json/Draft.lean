import LutFixture.Proofs.Json.Meaning
import Mathlib.Data.List.Pairwise

/-!
# Entering members in a draft

A field of a record is a slot of its draft: empty until the field has been read, and then filled
for good. An object is entered member by member; a member of another name changes nothing, and one
whose slot is filled already is refused. Where the slots make up the draft and do not interfere
(`Slot.Partition`), each of them ends as its own values have it, whatever stands between them and
in whichever order they come (`Slot.Partition.foldlM_eq_some_iff`).
-/

namespace LutFixture.Json

variable {σ : Type}

/-- The values that an object has for a key, in their order. -/
def valuesAt (x : String) (members : List (String × Value)) : List Value :=
  (members.filter (·.1 == x)).map Prod.snd

@[simp] theorem valuesAt_nil (x : String) : valuesAt x [] = [] := rfl

theorem valuesAt_cons_self (x : String) (v : Value) (ms : List (String × Value)) :
    valuesAt x ((x, v) :: ms) = v :: valuesAt x ms := by
  simp [valuesAt]

theorem valuesAt_cons_of_ne {x y : String} (h : y ≠ x) (v : Value) (ms : List (String × Value)) :
    valuesAt x ((y, v) :: ms) = valuesAt x ms := by
  simp [valuesAt, h]

/-- A field, as the place of a draft that it fills. -/
structure Slot (σ : Type) where
  /-- The key of the field in an object. -/
  name : String
  /-- What the field holds. -/
  Content : Type
  /-- What has been read into the slot. -/
  content : σ → Option Content
  /-- The draft with the slot filled. -/
  put : Content → σ → σ
  /-- Reads what the field holds. -/
  reader : Reader Content
  /-- What the field takes a value for. -/
  meaning : Value → Option Content
  /-- The reader takes values for that. -/
  reads : reader.Reads meaning

namespace Slot

/-- The field of a slot. -/
def field (a : Slot σ) : Field σ where
  name := a.name
  given d := (a.content d).isSome
  update := a.reader.map a.put

/-- A slot that holds a Boolean. -/
def boolean (name : String) (content : σ → Option Bool) (put : Bool → σ → σ) : Slot σ where
  name := name
  Content := Bool
  content := content
  put := put
  reader := Reader.boolean
  meaning := Value.boolean?
  reads := Reader.reads_boolean

/-- Enters a member of an object in a draft. -/
def enter (slots : List (Slot σ)) (d : σ) (m : String × Value) : Option σ :=
  match slots.find? fun a => a.name == m.1 with
  | none => some d
  | some a => if (a.content d).isSome then none else (a.meaning m.2).map fun b => a.put b d

/-- What becomes of a slot when values are entered in it. -/
inductive Takes (a : Slot σ) : Option a.Content → List Value → Option a.Content → Prop
  | kept (o : Option a.Content) : Takes a o [] o
  | filled {v : Value} {b : a.Content} (h : a.meaning v = some b) : Takes a none [v] (some b)

/-- Neither slot has anything to do with the other. -/
def Apart (a b : Slot σ) : Prop :=
  a.name ≠ b.name ∧ (∀ x d, a.content (b.put x d) = a.content d) ∧
    ∀ x d, b.content (a.put x d) = b.content d

theorem Apart.symm {a b : Slot σ} (h : a.Apart b) : b.Apart a :=
  ⟨h.1.symm, h.2.2, h.2.1⟩

instance : Std.Symm (@Apart σ) := ⟨fun _ _ => Apart.symm⟩

/-- The slots make up the draft: each keeps what is put into it, no two of them interfere, and
there is nothing else in a draft. -/
structure Partition (slots : List (Slot σ)) : Prop where
  /-- What is put into a slot is there. -/
  content_put : ∀ a ∈ slots, ∀ b d, a.content (a.put b d) = some b
  /-- The slots are apart. -/
  apart : slots.Pairwise Apart
  /-- A draft is what its slots hold. -/
  ext : ∀ d d', (∀ a ∈ slots, a.content d = a.content d') → d = d'

variable {a c : Slot σ} {slots : List (Slot σ)} {d d' : σ} {x : String} {v : Value}
  {ms : List (String × Value)}

theorem Takes.append {o o' o'' : Option a.Content} {vs ws : List Value} (h : a.Takes o vs o')
    (h' : a.Takes o' ws o'') : a.Takes o (vs ++ ws) o'' := by
  cases h with
  | kept => exact h'
  | filled hv =>
      cases h'
      exact .filled hv

/-- A slot takes one value at most, and only if it is empty. -/
theorem Takes.of_cons {o o' : Option a.Content} {vs : List Value} (h : a.Takes o (v :: vs) o') :
    o = none ∧ vs = [] ∧ ∃ b, a.meaning v = some b := by
  cases h with
  | filled hb => exact ⟨rfl, rfl, _, hb⟩

theorem Takes.unique {o o₁ o₂ : Option a.Content} {vs : List Value} (h₁ : a.Takes o vs o₁)
    (h₂ : a.Takes o vs o₂) : o₁ = o₂ := by
  cases h₁ with
  | kept =>
      cases h₂
      rfl
  | filled hb =>
      cases h₂ with
      | filled hb' => rw [← hb, ← hb']

@[simp] theorem takes_none_none_iff {vs : List Value} : a.Takes none vs none ↔ vs = [] := by
  constructor
  · intro h
    cases h
    rfl
  · rintro rfl
    exact .kept none

@[simp] theorem takes_none_some_iff {vs : List Value} {b : a.Content} :
    a.Takes none vs (some b) ↔ ∃ v, vs = [v] ∧ a.meaning v = some b := by
  constructor
  · intro h
    cases h with
    | filled hb => exact ⟨_, rfl, hb⟩
  · rintro ⟨v, rfl, hb⟩
    exact .filled hb

theorem takes_boolean_iff {name : String} {content : σ → Option Bool} {put : Bool → σ → σ}
    {vs : List Value} {b : Bool} :
    (Slot.boolean name content put).Takes none vs (some b) ↔ vs = [.boolean b] := by
  constructor
  · intro h
    obtain ⟨v, rfl, hv⟩ := takes_none_some_iff.1 h
    exact congrArg (fun v => [v]) (Value.boolean?_eq_some.1 hv)
  · rintro rfl
    exact .filled rfl

namespace Partition

theorem apart_of_ne (h : Partition slots) (ha : a ∈ slots) (hc : c ∈ slots) (hne : a ≠ c) :
    a.Apart c :=
  h.apart.forall ha hc hne

theorem eq_of_name (h : Partition slots) (ha : a ∈ slots) (hc : c ∈ slots)
    (hname : a.name = c.name) : a = c := by
  by_contra hne
  exact (h.apart_of_ne ha hc hne).1 hname

theorem find?_eq (h : Partition slots) (hc : c ∈ slots) :
    (slots.find? fun a => a.name == c.name) = some c := by
  cases hfind : slots.find? fun a => a.name == c.name with
  | none => exact absurd (List.find?_eq_none.1 hfind c hc) (by simp)
  | some a =>
      have hname : a.name = c.name := by simpa using List.find?_some hfind
      rw [h.eq_of_name (List.mem_of_find?_eq_some hfind) hc hname]

end Partition

/-! ### One member -/

theorem enter_of_unknown (hx : ∀ a ∈ slots, a.name ≠ x) (d : σ) (v : Value) :
    enter slots d (x, v) = some d := by
  have hfind : (slots.find? fun a => a.name == x) = none := by
    rw [List.find?_eq_none]
    intro a ha
    simpa using hx a ha
  rw [enter, hfind]

theorem Partition.enter_eq (h : Partition slots) (hc : c ∈ slots) (d : σ) (v : Value) :
    enter slots d (c.name, v) =
      if (c.content d).isSome then none else (c.meaning v).map fun b => c.put b d := by
  rw [enter, h.find?_eq hc]

/-- A member is entered in a slot if it belongs there, and leaves the other slots alone. -/
theorem Partition.takes_of_enter (h : Partition slots) (henter : enter slots d (x, v) = some d')
    (ha : a ∈ slots) : a.Takes (a.content d) (valuesAt a.name [(x, v)]) (a.content d') := by
  by_cases hx : ∃ c ∈ slots, c.name = x
  · obtain ⟨c, hc, rfl⟩ := hx
    rw [h.enter_eq hc] at henter
    split at henter
    · cases henter
    · rename_i hempty
      obtain ⟨b, hb, rfl⟩ := Option.map_eq_some_iff.1 henter
      by_cases hac : a = c
      · subst hac
        rw [valuesAt_cons_self, valuesAt_nil, h.content_put a ha,
          Option.not_isSome_iff_eq_none.1 hempty]
        exact .filled hb
      · have hapart := h.apart_of_ne ha hc hac
        rw [valuesAt_cons_of_ne hapart.1.symm, hapart.2.1]
        exact .kept _
  · have hunknown : ∀ c ∈ slots, c.name ≠ x := fun c hc hname => hx ⟨c, hc, hname⟩
    rw [enter_of_unknown hunknown] at henter
    obtain rfl := Option.some.inj henter
    rw [valuesAt_cons_of_ne (hunknown a ha).symm]
    exact .kept _

/-! ### All members -/

theorem valuesAt_cons (x : String) (m : String × Value) (ms : List (String × Value)) :
    valuesAt x (m :: ms) = valuesAt x [m] ++ valuesAt x ms := by
  simp [valuesAt, List.filter_cons]
  split <;> simp

/-- Every slot ends as its own values have it. -/
theorem Partition.takes_of_foldlM (h : Partition slots) (hms : ms.foldlM (enter slots) d = some d')
    (ha : a ∈ slots) : a.Takes (a.content d) (valuesAt a.name ms) (a.content d') := by
  induction ms generalizing d with
  | nil =>
      obtain rfl := Option.some.inj hms
      exact .kept _
  | cons m ms ih =>
      rw [List.foldlM_cons] at hms
      obtain ⟨inside, hm, hms⟩ := Option.bind_eq_some_iff.1 hms
      rw [valuesAt_cons]
      exact (h.takes_of_enter hm ha).append (ih hms)

/-- Members are refused only if one of the slots refuses its own. -/
theorem Partition.exists_foldlM_eq_some (h : Partition slots)
    (htakes : ∀ a ∈ slots, ∃ o, a.Takes (a.content d) (valuesAt a.name ms) o) :
    ∃ d', ms.foldlM (enter slots) d = some d' := by
  induction ms generalizing d with
  | nil => exact ⟨d, rfl⟩
  | cons m ms ih =>
      obtain ⟨x, v⟩ := m
      by_cases hx : ∃ c ∈ slots, c.name = x
      -- The slot of the member is empty and gets no other value, so it is full from here on; the
      -- other slots do not see the member.
      · obtain ⟨c, hc, rfl⟩ := hx
        obtain ⟨o, ho⟩ := htakes c hc
        rw [valuesAt_cons_self] at ho
        obtain ⟨hempty, hlast, b, hb⟩ := ho.of_cons
        have henter : enter slots d (c.name, v) = some (c.put b d) := by
          rw [h.enter_eq hc, hempty, hb]
          rfl
        rw [List.foldlM_cons, henter]
        apply ih
        intro a ha
        by_cases hac : a = c
        · subst hac
          rw [hlast]
          exact ⟨_, .kept _⟩
        · have hapart := h.apart_of_ne ha hc hac
          rw [hapart.2.1, ← valuesAt_cons_of_ne hapart.1.symm v]
          exact htakes a ha
      · have hunknown : ∀ c ∈ slots, c.name ≠ x := fun c hc hname => hx ⟨c, hc, hname⟩
        rw [List.foldlM_cons, enter_of_unknown hunknown]
        apply ih
        intro a ha
        obtain ⟨o, ho⟩ := htakes a ha
        rw [valuesAt_cons_of_ne (hunknown a ha).symm] at ho
        exact ⟨o, ho⟩

/-- An object is entered slot by slot, each with its own values. -/
theorem Partition.foldlM_eq_some_iff (h : Partition slots) : ms.foldlM (enter slots) d = some d' ↔
    ∀ a ∈ slots, a.Takes (a.content d) (valuesAt a.name ms) (a.content d') := by
  constructor
  · intro hms a ha
    exact h.takes_of_foldlM hms ha
  · intro htakes
    obtain ⟨d'', hms⟩ := h.exists_foldlM_eq_some fun a ha => ⟨_, htakes a ha⟩
    have hsame : d'' = d' :=
      h.ext d'' d' fun a ha => (h.takes_of_foldlM hms ha).unique (htakes a ha)
    rw [hms, hsame]

end Slot

end LutFixture.Json
