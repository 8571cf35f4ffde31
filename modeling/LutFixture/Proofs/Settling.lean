import LutFixture.Proofs.CommandWords
import Mathlib.Data.List.TakeWhile

/-!
# Settling values early

A value is checked only when the next option begins. Whether a side can be read, and what it gives,
does not depend on when: a pending value may be settled before any argument, except where the
argument is itself the value that is waited for.

An argument is taken apart by its form, and each form is written in one way only.
-/

namespace LutFixture.CommandLine

theorem bind_eq_ok_iff {ε α β : Type} {x : Except ε α} {k : α → Except ε β} {b : β} :
    (x >>= k) = .ok b ↔ ∃ a, x = .ok a ∧ k a = .ok b := by
  cases x with
  | error e => exact ⟨nofun, nofun⟩
  | ok a =>
      constructor
      · intro h
        exact ⟨a, rfl, h⟩
      · rintro ⟨_, ⟨⟩, h⟩
        exact h

namespace Given

variable {side : Side} {g g' : Given} {arg : String}

theorem settle_of_nothing (hg : g.pending = .nothing) : g.settle = .ok g := by
  obtain ⟨flags, config, operand, pending⟩ := g
  obtain rfl : pending = .nothing := hg
  rfl

theorem pending_of_withConfig {value : String} (hg : g.pending = .nothing)
    (h : g.withConfig value = .ok g') : g'.pending = .nothing := by
  unfold withConfig at h
  split at h
  · cases h
  · split at h
    · cases h
    · obtain rfl := Except.ok.inj h
      exact hg

theorem pending_of_settle (h : g.settle = .ok g') : g'.pending = .nothing := by
  obtain ⟨flags, config, operand, pending⟩ := g
  cases pending with
  | nothing =>
      obtain rfl := Except.ok.inj h
      rfl
  | config value =>
      cases value with
      | none => cases h
      | some value => exact pending_of_withConfig rfl h
  | operand kind value =>
      simp only [settle] at h
      split at h
      · obtain rfl := Except.ok.inj h
        rfl
      · cases h

/-- What is done with a value that has not been settled is done once it is. -/
def SettlesFirst {α : Type} (op : Given → Except Halt α) : Prop :=
  ∀ g a, op g = .ok a ↔ ∃ g', g.settle = .ok g' ∧ op g' = .ok a

theorem settlesFirst_settle {α : Type} (k : Given → Except Halt α) :
    SettlesFirst fun g => g.settle >>= k := by
  intro g a
  constructor
  · intro h
    obtain ⟨g', hg', ha⟩ := bind_eq_ok_iff.1 h
    have hsettled := settle_of_nothing (pending_of_settle hg')
    exact ⟨g', hg', bind_eq_ok_iff.2 ⟨g', hsettled, ha⟩⟩
  · rintro ⟨g', hg', h⟩
    obtain ⟨g'', hg'', ha⟩ := bind_eq_ok_iff.1 h
    rw [settle_of_nothing (pending_of_settle hg')] at hg''
    obtain rfl := Except.ok.inj hg''
    exact bind_eq_ok_iff.2 ⟨g', hg', ha⟩

theorem SettlesFirst.bind {α β : Type} {op : Given → Except Halt α} (h : SettlesFirst op)
    (k : α → Except Halt β) : SettlesFirst fun g => op g >>= k := by
  intro g b
  simp only [bind_eq_ok_iff, h g]
  constructor
  · rintro ⟨a, ⟨g', hg', ha⟩, hb⟩
    exact ⟨g', hg', a, ha, hb⟩
  · rintro ⟨g', hg', a, ha, hb⟩
    exact ⟨a, ⟨g', hg', ha⟩, hb⟩

theorem settlesFirst_error {α : Type} (x : Halt) :
    SettlesFirst fun _ : Given => (.error x : Except Halt α) := by
  intro g a
  constructor
  · nofun
  · rintro ⟨_, -, ⟨⟩⟩

theorem operand_of_withConfig {value : String} (h : g.withConfig value = .ok g') :
    g'.operand = g.operand := by
  unfold withConfig at h
  split at h
  · cases h
  · split at h
    · cases h
    · obtain rfl := Except.ok.inj h
      rfl

/-- There is an operand, whether it has been settled or not. -/
def HasOperand (g : Given) : Prop :=
  g.operand ≠ none ∨ ∃ kind value, g.pending = .operand kind value

theorem hasOperand_iff_of_settle (h : g.settle = .ok g') : g.HasOperand ↔ g'.operand ≠ none := by
  obtain ⟨flags, config, operand, pending⟩ := g
  cases pending with
  | nothing =>
      obtain rfl := Except.ok.inj h
      simp [HasOperand]
  | config value =>
      cases value with
      | none => cases h
      | some value =>
          rw [operand_of_withConfig h]
          simp [HasOperand]
  | operand kind value =>
      simp only [settle] at h
      split at h
      · obtain rfl := Except.ok.inj h
        simp [HasOperand]
      · cases h

theorem withOperand_eq_ok_iff {r : Given} :
    g.withOperand side arg = .ok r ↔
      ¬g.HasOperand ∧ ∃ kind g', side.operand = some kind ∧ g.settle = .ok g' ∧
        { g' with pending := .operand kind arg } = r := by
  obtain ⟨flags, config, operand, pending⟩ := g
  unfold withOperand HasOperand
  cases side.operand <;> cases operand <;> cases pending <;>
    simp [bind_eq_ok_iff, pure, Except.pure]

theorem settlesFirst_withOperand (side : Side) (arg : String) :
    SettlesFirst fun g => g.withOperand side arg := by
  intro g r
  simp only [withOperand_eq_ok_iff]
  constructor
  · rintro ⟨hnew, kind, g', hkind, hg', hr⟩
    have hnothing := pending_of_settle hg'
    rw [hasOperand_iff_of_settle hg'] at hnew
    rw [← hasOperand_iff_of_settle (settle_of_nothing hnothing)] at hnew
    exact ⟨g', hg', hnew, kind, g', hkind, settle_of_nothing hnothing, hr⟩
  · rintro ⟨g', hg', hnew, kind, g'', hkind, hg'', hr⟩
    have hnothing := settle_of_nothing (pending_of_settle hg')
    rw [hasOperand_iff_of_settle hnothing, ← hasOperand_iff_of_settle hg'] at hnew
    rw [hnothing] at hg''
    obtain rfl := Except.ok.inj hg''
    exact ⟨hnew, kind, g', hkind, hg', hr⟩

theorem settlesFirst_withLetters (side : Side) (arg : String) (c : Char) (s : List Char) :
    SettlesFirst fun g => g.withLetters side arg (c :: s) := by
  unfold withLetters
  split
  · exact (settlesFirst_settle _).bind _
  · split
    · unfold withConfigLetters
      split
      · exact settlesFirst_settle _
      · exact settlesFirst_settle _
      · exact settlesFirst_settle _
    · split
      · exact settlesFirst_settle _
      · split
        · exact settlesFirst_settle _
        · exact settlesFirst_error _

theorem settlesFirst_withLong (side : Side) (arg name : String) (value : Option String) :
    SettlesFirst fun g => g.withLong side arg name value := by
  unfold withLong
  split
  · exact settlesFirst_settle _
  · exact settlesFirst_error _
  · split
    · split
      · exact settlesFirst_settle _
      · exact settlesFirst_settle _
    · split
      · exact settlesFirst_settle _
      · split
        · exact settlesFirst_settle _
        · exact settlesFirst_error _

end Given

/-! ### The form of an argument -/

/-- How arguments of each form are written. -/
inductive HasShape : String → Shape → Prop
  | endOfOptions : HasShape "--" .endOfOptions
  | long {name : List Char} (hne : name ≠ []) (hname : '=' ∉ name) :
    HasShape (String.ofList ('-' :: '-' :: name)) (.long (String.ofList name) none)
  | longValue {name value : List Char} (hname : '=' ∉ name) :
    HasShape (String.ofList ('-' :: '-' :: (name ++ '=' :: value)))
      (.long (String.ofList name) (some (String.ofList value)))
  | letters {c : Char} {s : List Char} (hc : c ≠ '-') :
    HasShape (String.ofList ('-' :: c :: s)) (.letters (c :: s))
  | plain {arg : String} (h : IsValue arg) : HasShape arg .plain

theorem Shape.ofLong_of_notMem {s : List Char} (h : '=' ∉ s) :
    ofLong s = .long (String.ofList s) none := by
  have hall : ∀ c ∈ s, (c != '=') = true := by
    intro c hc
    exact bne_iff_ne.2 fun heq => h (heq ▸ hc)
  have htake : s.takeWhile (· != '=') = s := List.takeWhile_eq_self_iff.2 hall
  have hdrop : s.dropWhile (· != '=') = [] := List.dropWhile_eq_nil_iff.2 hall
  rw [ofLong, hdrop, htake]

theorem Shape.ofLong_append {name : List Char} (h : '=' ∉ name) (value : List Char) :
    ofLong (name ++ '=' :: value) =
      .long (String.ofList name) (some (String.ofList value)) := by
  have hall : ∀ c ∈ name, (c != '=') = true := by
    intro c hc
    exact bne_iff_ne.2 fun heq => h (heq ▸ hc)
  rw [ofLong, List.takeWhile_append_of_pos hall, List.dropWhile_append_of_pos hall]
  simp

theorem Shape.ofArgument_ofList (s : List Char) : ofArgument (String.ofList s) = ofChars s := by
  rw [ofArgument, String.toList_ofList]

theorem hasShape_ofArgument (arg : String) : HasShape arg (Shape.ofArgument arg) := by
  obtain ⟨s, rfl⟩ : ∃ s, arg = String.ofList s := ⟨arg.toList, String.ofList_toList.symm⟩
  rw [Shape.ofArgument_ofList]
  unfold Shape.ofChars
  split
  · exact .endOfOptions
  · rename_i s hend
    by_cases hmem : '=' ∈ s
    · obtain ⟨name, value, rfl, hname⟩ := List.eq_append_cons_of_mem hmem
      rw [Shape.ofLong_append hname]
      exact .longValue hname
    · rw [Shape.ofLong_of_notMem hmem]
      exact .long hend hmem
  · rename_i c s hend hlong
    exact .letters hlong
  · rename_i hend hlong hletters
    apply HasShape.plain
    rw [IsValue, String.toList_ofList]
    by_cases hhead : s.head? = some '-'
    · obtain ⟨more, rfl⟩ := List.head?_eq_some_iff.1 hhead
      cases more with
      | nil => exact .inr rfl
      | cons c more => exact absurd rfl (hletters c more)
    · exact .inl hhead

theorem HasShape.ofArgument_eq {arg : String} {x : Shape} (h : HasShape arg x) :
    Shape.ofArgument arg = x := by
  cases h with
  | endOfOptions => rfl
  | @long name hne hname =>
      rw [Shape.ofArgument_ofList]
      cases name with
      | nil => exact absurd rfl hne
      | cons c s => exact Shape.ofLong_of_notMem hname
  | @longValue name value hname =>
      rw [Shape.ofArgument_ofList]
      cases name with
      | nil => exact Shape.ofLong_append hname value
      | cons c s => exact Shape.ofLong_append hname value
  | @letters c s hc =>
      rw [Shape.ofArgument_ofList]
      simp [Shape.ofChars, hc]
  | plain h =>
      rcases h with hhead | rfl
      · rw [Shape.ofArgument]
        unfold Shape.ofChars
        split <;> simp_all
      · rfl

/-! ### Reading one side -/

section Reading

variable {side : Side} {g g' r : Given} {args : List String}
  {rest : Option (TaskName × List String)} {arg : String}

/-- Reading comes to the end of a side, and this has been given when the last value is settled. -/
def ReadsTo (side : Side) (g : Given) (args : List String) (r : Given)
    (rest : Option (TaskName × List String)) : Prop :=
  ∃ g', readSide side g args = .ok (g', rest) ∧ g'.settle = .ok r

/-- The next argument is not the value that is waited for. -/
def Ready (g : Given) (args : List String) : Prop :=
  g.pending = .config none → ∀ arg ∈ args.head?, ¬IsValue arg

theorem ready_of_settle (h : g.settle = .ok g') : Ready g' args := by
  intro hwaits
  rw [Given.pending_of_settle h] at hwaits
  cases hwaits

theorem ready_of_ne (h : g.pending ≠ .config none) : Ready g args := fun hwaits => absurd hwaits h

/-- What is pending may be settled before some arguments are read, unless it waits for the first of
them. -/
def SettlesBefore (side : Side) (args : List String) : Prop :=
  ∀ g r rest, Ready g args →
    (ReadsTo side g args r rest ↔ ∃ g', g.settle = .ok g' ∧ ReadsTo side g' args r rest)

theorem settlesBefore_of_settlesFirst
    {op : Given → Except Halt (Given × Option (TaskName × List String))}
    (hop : Given.SettlesFirst op)
    (hread : ∀ g, Ready g args → readSide side g args = op g) :
    SettlesBefore side args := by
  intro g r rest hg
  constructor
  · rintro ⟨x, hx, hr⟩
    rw [hread g hg] at hx
    obtain ⟨g', hg', hx⟩ := (hop g _).1 hx
    exact ⟨g', hg', x, (hread g' (ready_of_settle hg')).trans hx, hr⟩
  · rintro ⟨g', hg', x, hx, hr⟩
    rw [hread g' (ready_of_settle hg')] at hx
    exact ⟨x, (hread g hg).trans ((hop g _).2 ⟨g', hg', hx⟩), hr⟩

theorem readsTo_iff_of_stop {x : Option (TaskName × List String)}
    (hread : readSide side g args = .ok (g, x)) :
    ReadsTo side g args r rest ↔ rest = x ∧ g.settle = .ok r := by
  rw [ReadsTo, hread]
  constructor
  · rintro ⟨g', hg', hr⟩
    obtain ⟨rfl, rfl⟩ := Prod.mk.inj (Except.ok.inj hg')
    exact ⟨rfl, hr⟩
  · rintro ⟨rfl, hr⟩
    exact ⟨g, rfl, hr⟩

theorem readsTo_nil_iff : ReadsTo side g [] r rest ↔ rest = none ∧ g.settle = .ok r :=
  readsTo_iff_of_stop rfl

theorem settlesBefore_of_stop {x : Option (TaskName × List String)}
    (hread : ∀ g, Ready g args → readSide side g args = .ok (g, x)) :
    SettlesBefore side args := by
  intro g r rest hg
  rw [readsTo_iff_of_stop (hread g hg)]
  constructor
  · rintro ⟨hrest, hr⟩
    have hnothing := Given.settle_of_nothing (Given.pending_of_settle hr)
    exact ⟨r, hr, (readsTo_iff_of_stop (hread r (ready_of_settle hr))).2 ⟨hrest, hnothing⟩⟩
  · rintro ⟨g', hg', h⟩
    obtain ⟨hrest, hr⟩ := (readsTo_iff_of_stop (hread g' (ready_of_settle hg'))).1 h
    rw [Given.settle_of_nothing (Given.pending_of_settle hg')] at hr
    obtain rfl := Except.ok.inj hr
    exact ⟨hrest, hg'⟩

theorem readSide_of_endOfOptions (h : Shape.ofArgument arg = .endOfOptions) :
    readSide side g (arg :: args) = readOperands side g args >>= fun g => .ok (g, none) := by
  rw [readSide, h]
  rfl

theorem readSide_of_long {name : String} {value : Option String}
    (h : Shape.ofArgument arg = .long name value) :
    readSide side g (arg :: args) =
      g.withLong side arg name value >>= fun g => readSide side g args := by
  rw [readSide, h]

theorem readSide_of_letters {s : List Char} (h : Shape.ofArgument arg = .letters s) :
    readSide side g (arg :: args) =
      g.withLetters side arg s >>= fun g => readSide side g args := by
  rw [readSide, h]

theorem readSide_of_value (h : IsValue arg) :
    readSide side g (arg :: args) =
      if g.pending = .config none then readSide side { g with pending := .config (some arg) } args
      else if side.endsInTask then endInTask g arg args
      else g.withOperand side arg >>= fun g => readSide side g args := by
  rw [readSide, (HasShape.plain h).ofArgument_eq]

theorem settlesBefore (side : Side) (args : List String) : SettlesBefore side args := by
  cases args with
  | nil => exact settlesBefore_of_stop fun g _ => rfl
  | cons arg args =>
      have hshape := hasShape_ofArgument arg
      generalize hx : Shape.ofArgument arg = x at hshape
      cases hshape with
      | endOfOptions =>
          cases args with
          | nil => exact settlesBefore_of_stop fun g _ => rfl
          | cons arg args =>
              apply settlesBefore_of_settlesFirst
                (((Given.settlesFirst_withOperand side arg).bind fun g =>
                  readOperands side g args).bind fun g => .ok (g, none))
              intro g _
              rw [readSide_of_endOfOptions hx]
              rfl
      | long hne hname =>
          exact settlesBefore_of_settlesFirst ((Given.settlesFirst_withLong _ _ _ _).bind _)
            fun g _ => readSide_of_long hx
      | longValue hname =>
          exact settlesBefore_of_settlesFirst ((Given.settlesFirst_withLong _ _ _ _).bind _)
            fun g _ => readSide_of_long hx
      | letters hc =>
          exact settlesBefore_of_settlesFirst ((Given.settlesFirst_withLetters _ _ _ _).bind _)
            fun g _ => readSide_of_letters hx
      | plain harg =>
          have hread : ∀ g : Given, Ready g (arg :: args) → readSide side g (arg :: args) = _ :=
            fun g hg => (readSide_of_value harg).trans (if_neg fun hwaits => hg hwaits arg rfl harg)
          by_cases hend : side.endsInTask
          · simp only [if_pos hend, endInTask] at hread
            cases htask : TaskName.named? arg with
            | some task =>
                simp only [htask] at hread
                exact settlesBefore_of_stop hread
            | none =>
                simp only [htask] at hread
                split at hread
                · exact settlesBefore_of_settlesFirst (Given.settlesFirst_error _) hread
                · exact settlesBefore_of_settlesFirst (Given.settlesFirst_error _) hread
          · simp only [if_neg hend] at hread
            exact settlesBefore_of_settlesFirst
              ((Given.settlesFirst_withOperand side arg).bind _) hread

end Reading

end LutFixture.CommandLine
