import LutFixture.Proofs.Json.Record

/-!
# Records of optional fields

Where every field of a record has a default, a value settles the record field by field: an object
that does not give a field leaves it at its default, and one that gives it once settles it
(`Settles`). An array is read as the object of its items under the names of the first fields
(`Value.membersFor?`), so what a record means is said for both forms at once
(`Record.meaning_eq_some_iff`).
-/

namespace LutFixture.Json

variable {α σ : Type} {slots as : List (Slot σ)} {d : σ} {v : Value} {vs : List Value}

/-- What the values that are given for a field make of it: the default holds if there are none, and
a single one counts for what it stands for. -/
inductive Settles (stands : Value → α → Prop) (default : α) : List Value → α → Prop
  | absent : Settles stands default [] default
  | given {v : Value} {a : α} (h : stands v a) : Settles stands default [v] a

/-- The members by which a value gives the fields of a record: those of an object, or the items of
an array under the names of the fields in their order, of which there have to be enough. -/
def Value.membersFor? (names : List String) : Value → Option (List (String × Value))
  | .object members => some members
  | .array items => if items.length ≤ names.length then some (names.zip items) else none
  | _ => none

/-- The value is neither an array nor an object. -/
def Value.IsScalar : Value → Prop
  | .array _ | .object _ => False
  | _ => True

/-- A value is wrong for a record with the given keys: it is neither an array nor an object; or it
is an object with two values for one of the keys, or with a value that is wrong for its key. -/
def Misgiven (wrong : List (String × (Value → Prop))) (v : Value) : Prop :=
  v.IsScalar ∨ ∃ members, v = .object members ∧ ∃ key ∈ wrong,
    1 < (valuesAt key.1 members).length ∨ ∃ w ∈ valuesAt key.1 members, key.2 w

theorem Value.IsScalar.membersFor?_eq_none (h : v.IsScalar) (names : List String) :
    v.membersFor? names = none := by
  cases v with
  | array items => exact h.elim
  | object members => exact h.elim
  | _ => rfl

theorem Misgiven.exists_of_membersFor? {wrong : List (String × (Value → Prop))}
    {names : List String} {members : List (String × Value)} (h : Misgiven wrong v)
    (hmembers : v.membersFor? names = some members) : ∃ key ∈ wrong,
      1 < (valuesAt key.1 members).length ∨ ∃ w ∈ valuesAt key.1 members, key.2 w := by
  rcases h with hscalar | ⟨members', rfl, hwrong⟩
  · rw [hscalar.membersFor?_eq_none] at hmembers
    cases hmembers
  · obtain rfl := Option.some.inj hmembers
    exact hwrong

/-! ### Fields -/

theorem Settles.not_misgiven {stands : Value → α → Prop} {default a : α} {wrong : Value → Prop}
    (h : Settles stands default vs a) (hwrong : ∀ v, wrong v → ∀ b, ¬stands v b) :
    ¬(1 < vs.length ∨ ∃ v ∈ vs, wrong v) := by
  cases h with
  | absent => simp
  | given h =>
      rintro (hlength | ⟨v, hv, hbad⟩)
      · exact Nat.lt_irrefl 1 hlength
      · obtain rfl := List.mem_singleton.1 hv
        exact hwrong v hbad _ h

theorem Slot.Takes.settles {a : Slot σ} {o : Option a.Content} {stands : Value → a.Content → Prop}
    (h : a.Takes none vs o) (hstands : ∀ v b, a.meaning v = some b ↔ stands v b)
    (default : a.Content) : Settles stands default vs (o.getD default) := by
  cases h with
  | kept => exact .absent
  | filled hb => exact .given ((hstands _ _).1 hb)

theorem Settles.exists_takes {a : Slot σ} {stands : Value → a.Content → Prop}
    {default x : a.Content} (h : Settles stands default vs x)
    (hstands : ∀ v b, a.meaning v = some b ↔ stands v b) :
    ∃ o, a.Takes none vs o ∧ o.getD default = x := by
  cases h with
  | absent => exact ⟨none, .kept none, rfl⟩
  | given hv => exact ⟨some x, .filled ((hstands _ _).2 hv), rfl⟩

/-- A slot that makes up a draft by itself. -/
theorem Slot.partition_singleton {a : Slot σ} (hput : ∀ b d, a.content (a.put b d) = some b)
    (hext : ∀ d d', a.content d = a.content d' → d = d') : Slot.Partition [a] where
  content_put := List.forall_mem_singleton.2 hput
  apart := List.pairwise_singleton _ _
  ext d d' h := hext d d' (h a List.mem_cons_self)

/-! ### Arrays as objects -/

theorem Slot.fill_eq_none (h : as.length < vs.length) : fill as d vs = none := by
  induction as generalizing d vs with
  | nil =>
      cases vs with
      | nil => simp at h
      | cons v vs => rfl
  | cons a as ih =>
      cases vs with
      | nil => simp at h
      | cons v vs =>
          rw [fill]
          cases a.meaning v with
          | none => rfl
          | some b => exact ih (Nat.lt_of_succ_lt_succ h)

/-- Items are entered in empty slots as members of the names of the slots. -/
theorem Slot.Partition.fill_eq (h : Partition slots) (has : as.Sublist slots)
    (hempty : ∀ a ∈ as, a.content d = none) (hlength : vs.length ≤ as.length) :
    fill as d vs = ((as.map Slot.name).zip vs).foldlM (enter slots) d := by
  induction as generalizing d vs with
  | nil =>
      obtain rfl := List.length_eq_zero_iff.1 (Nat.le_zero.1 hlength)
      rfl
  | cons a as ih =>
      cases vs with
      | nil => rfl
      | cons v vs =>
          have ha : a ∈ slots := has.subset List.mem_cons_self
          have hapart := List.pairwise_cons.1 (h.apart.sublist has)
          have henter : enter slots d (a.name, v) = (a.meaning v).map fun b => a.put b d := by
            rw [h.enter_eq ha, hempty a List.mem_cons_self]
            rfl
          rw [fill, List.map_cons, List.zip_cons_cons, List.foldlM_cons, henter]
          cases a.meaning v with
          | none => rfl
          | some b =>
              apply ih (List.Sublist.trans (List.sublist_cons_self a as) has) _
                (Nat.le_of_succ_le_succ hlength)
              -- The slots that are left are apart from the one that is filled now: still empty.
              intro c hc
              rw [(hapart.1 c hc).2.2]
              exact hempty c (List.mem_cons_of_mem a hc)

namespace Record

variable {r : Record σ α} {amount : σ → α}

theorem meaning_eq_bind (h : Slot.Partition slots) (hblank : ∀ a ∈ slots, a.content r.blank = none)
    (hcomplete : ∀ form d, r.complete form d = .ok (amount d)) (v : Value) :
    r.meaning slots v = (v.membersFor? (slots.map Slot.name)).bind fun members =>
      (members.foldlM (Slot.enter slots) r.blank).map amount := by
  have hamount : ∀ (form : Form) (o : Option σ),
      (o.bind fun d => (r.complete form d).toOption) = o.map amount := by
    intro form o
    simp only [hcomplete]
    cases o <;> rfl
  cases v with
  | object members => exact hamount _ _
  | array items =>
      rw [meaning, hamount, Value.membersFor?, List.length_map]
      by_cases hlength : items.length ≤ slots.length
      · rw [if_pos hlength, h.fill_eq (List.Sublist.refl slots) hblank hlength]
        rfl
      · rw [if_neg hlength, Slot.fill_eq_none (Nat.lt_of_not_le hlength)]
        rfl
  | _ => rfl

/-- A record of optional fields means what its slots hold when each of them has taken its own
values. -/
theorem meaning_eq_some_iff (h : Slot.Partition slots)
    (hblank : ∀ a ∈ slots, a.content r.blank = none)
    (hcomplete : ∀ form d, r.complete form d = .ok (amount d)) {x : α} :
    r.meaning slots v = some x ↔ ∃ members, v.membersFor? (slots.map Slot.name) = some members ∧
      ∃ d, (∀ a ∈ slots, a.Takes none (valuesAt a.name members) (a.content d)) ∧ amount d = x := by
  rw [meaning_eq_bind h hblank hcomplete]
  simp only [Option.bind_eq_some_iff, Option.map_eq_some_iff, h.foldlM_eq_some_iff]
  have hnone : ∀ (members : List (String × Value)) (d : σ),
      (∀ a ∈ slots, a.Takes (a.content r.blank) (valuesAt a.name members) (a.content d)) ↔
        ∀ a ∈ slots, a.Takes none (valuesAt a.name members) (a.content d) := by
    intro members d
    refine forall₂_congr fun a ha => ?_
    rw [hblank a ha]
  simp only [hnone]

end Record

end LutFixture.Json
