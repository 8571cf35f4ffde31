import LutFixture.Proofs.Settling

/-!
# One argument after another

What it takes to read on behind an argument, for each form of it, where nothing is pending: a
word for an option, a value in the next argument or in the same one, an operand, the name of a
task, and the two hyphens that end the options.
-/

namespace LutFixture.CommandLine

section Rules

variable {side : Side} {g g' r : Given} {args : List String}
  {rest : Option (TaskName × List String)} {arg : String} {f : Flag}

theorem withFlag_eq_ok_iff (hg : g.pending = .nothing) :
    g.withFlag f = .ok g' ↔ f ∉ g.flags ∧ { g with flags := f :: g.flags } = g' := by
  rw [Given.withFlag, Given.settle_of_nothing hg]
  by_cases hf : f ∈ g.flags
  · simp [hf, bind, Except.bind, throw, throwThe, MonadExceptOf.throw]
  · simp [hf, bind, Except.bind, pure, Except.pure]

theorem withConfig_eq_ok_iff {path : String} :
    g.withConfig path = .ok g' ↔
      path ≠ "" ∧ g.config = none ∧ { g with config := some path } = g' := by
  rw [Given.withConfig]
  cases g.config with
  | some value => simp
  | none =>
      by_cases hpath : path = ""
      · simp [hpath]
      · simp [hpath]

theorem settle_operand_eq_ok_iff {kind : OperandKind} (hg : g.pending = .nothing) :
    ({ g with pending := .operand kind arg } : Given).settle = .ok g' ↔
      ∃ x, Operand.ofArgument kind arg = .ok x ∧ { g with operand := some x } = g' := by
  cases hx : Operand.ofArgument kind arg with
  | error f => simp [Given.settle, hx]
  | ok x => simp [Given.settle, hx, hg]

theorem readsTo_iff_of_bind {x : Except Halt Given}
    (hread : readSide side g (arg :: args) = x >>= fun g => readSide side g args) :
    ReadsTo side g (arg :: args) r rest ↔ ∃ g', x = .ok g' ∧ ReadsTo side g' args r rest := by
  simp only [ReadsTo, hread, bind_eq_ok_iff]
  constructor
  · rintro ⟨y, ⟨g', hg', hy⟩, hr⟩
    exact ⟨g', hg', y, hy, hr⟩
  · rintro ⟨g', hg', y, hy, hr⟩
    exact ⟨y, ⟨g', hg', hy⟩, hr⟩

/-- Where a value is waited for, the next argument has to be it. -/
theorem readsTo_waiting_iff (hg : g.pending = .nothing) :
    ReadsTo side { g with pending := .config none } args r rest ↔
      ∃ path more, args = path :: more ∧ IsValue path ∧ path ≠ "" ∧ g.config = none ∧
        ReadsTo side { g with config := some path } more r rest := by
  have hread : ∀ {path more}, IsValue path →
      (ReadsTo side { g with pending := .config none } (path :: more) r rest ↔
        path ≠ "" ∧ g.config = none ∧ ReadsTo side { g with config := some path } more r rest) := by
    intro path more hpath
    have hready : Ready { g with pending := .config (some path) } more := ready_of_ne nofun
    rw [ReadsTo, readSide_of_value hpath, if_pos rfl]
    refine (settlesBefore side more _ r rest hready).trans ?_
    simp only [Given.settle, withConfig_eq_ok_iff, ← hg]
    constructor
    · rintro ⟨_, ⟨hne, hnew, rfl⟩, h⟩
      exact ⟨hne, hnew, h⟩
    · rintro ⟨hne, hnew, h⟩
      exact ⟨_, ⟨hne, hnew, rfl⟩, h⟩
  constructor
  · intro h
    by_cases hready : Ready { g with pending := .config none } args
    · obtain ⟨_, hsettle, -⟩ := (settlesBefore side args _ r rest hready).1 h
      cases hsettle
    · simp only [Ready, true_implies, not_forall, not_not, exists_prop] at hready
      obtain ⟨path, hhead, hpath⟩ := hready
      obtain ⟨more, rfl⟩ := List.head?_eq_some_iff.1 hhead
      exact ⟨path, more, rfl, hpath, (hread hpath).1 h⟩
  · rintro ⟨path, more, rfl, hpath, h⟩
    exact (hread hpath).2 h

theorem Flag.name_injective : Function.Injective name := by
  intro f f' h
  cases f <;> cases f' <;> first | rfl | exact absurd h (by decide)

theorem find?_name_eq {fs : List Flag} (h : f ∈ fs) :
    fs.find? (fun x => x.name == f.name) = some f := by
  have hsome : (fs.find? fun x => x.name == f.name).isSome :=
    List.find?_isSome.2 ⟨f, h, beq_self_eq_true f.name⟩
  obtain ⟨x, hx⟩ := Option.isSome_iff_exists.1 hsome
  have hname : x.name = f.name := by simpa using List.find?_some hx
  rw [hx, Flag.name_injective hname]

theorem find?_name_config (fs : List Flag) : fs.find? (fun x => x.name == "config") = none := by
  apply List.find?_eq_none.2
  rintro (_ | _ | _ | _) - <;> decide

theorem withLong_of_mem (h : f ∈ side.flags) :
    g.withLong side arg f.name none = g.withFlag f := by
  rw [Given.withLong]
  simp only [find?_name_eq h]

theorem withLong_config (value : Option String) :
    g.withLong side arg "config" value =
      match value with
      | none => g.awaitingConfig
      | some path => g.withAttachedConfig path := by
  unfold Given.withLong
  simp only [find?_name_config]
  cases value <;> rfl

/-- A word for an option is taken for it. -/
theorem readSide_of_word {word : String} (hword : word ∈ f.words) (hflag : f ∈ side.flags) :
    readSide side g (word :: args) = g.withFlag f >>= fun g => readSide side g args := by
  rcases Flag.mem_words_iff.1 hword with rfl | ⟨rfl, rfl⟩
  · have hshape : Shape.ofArgument ("--" ++ f.name) = .long f.name none := by
      cases f <;> decide
    rw [readSide_of_long hshape, withLong_of_mem hflag]
  · have hshape : Shape.ofArgument "-v" = .letters ['v'] := by decide
    rw [readSide_of_letters hshape]
    change (g.withFlag .verbose >>= fun g => .ok g) >>= _ = _
    cases g.withFlag .verbose <;> rfl

theorem readsTo_flag_iff {word : String} (hg : g.pending = .nothing) (hword : word ∈ f.words)
    (hflag : f ∈ side.flags) :
    ReadsTo side g (word :: args) r rest ↔
      f ∉ g.flags ∧ ReadsTo side { g with flags := f :: g.flags } args r rest := by
  rw [readsTo_iff_of_bind (readSide_of_word hword hflag)]
  simp only [withFlag_eq_ok_iff hg]
  constructor
  · rintro ⟨_, ⟨hnew, rfl⟩, h⟩
    exact ⟨hnew, h⟩
  · rintro ⟨hnew, h⟩
    exact ⟨_, ⟨hnew, rfl⟩, h⟩

theorem withLetters_verbose {s : List Char} :
    g.withLetters side arg ('v' :: s) =
      g.withFlag .verbose >>= fun g => g.withLetters side arg s := rfl

/-- The argument itself is shown in a complaint only. -/
theorem withLetters_eq_ok_iff_of_word (word : String) {s : List Char} :
    g.withLetters side arg s = .ok r ↔ g.withLetters side word s = .ok r := by
  induction s generalizing g with
  | nil => rfl
  | cons c s ih =>
      by_cases hv : c = 'v'
      · subst hv
        simp only [withLetters_verbose, bind_eq_ok_iff, ih]
      · unfold Given.withLetters
        rw [if_neg hv, if_neg hv]
        split
        · rfl
        · split
          · rfl
          · split
            · rfl
            · simp

/-- The first of several letters is taken as if it had a hyphen of its own. -/
theorem readsTo_letters_iff {c : Char} {s : List Char} (hg : g.pending = .nothing) (hc : c ≠ '-') :
    ReadsTo side g (String.ofList ('-' :: 'v' :: c :: s) :: args) r rest ↔
      .verbose ∉ g.flags ∧
        ReadsTo side { g with flags := .verbose :: g.flags }
          (String.ofList ('-' :: c :: s) :: args) r rest := by
  have hv : Shape.ofArgument (String.ofList ('-' :: 'v' :: c :: s)) = .letters ('v' :: c :: s) :=
    (HasShape.letters (by decide)).ofArgument_eq
  have hmore : Shape.ofArgument (String.ofList ('-' :: c :: s)) = .letters (c :: s) :=
    (HasShape.letters hc).ofArgument_eq
  rw [readsTo_iff_of_bind (readSide_of_letters hv), readsTo_iff_of_bind (readSide_of_letters hmore)]
  simp only [withLetters_verbose, bind_eq_ok_iff, withFlag_eq_ok_iff hg]
  constructor
  · rintro ⟨g', ⟨_, ⟨hnew, rfl⟩, hg'⟩, h⟩
    exact ⟨hnew, g', (withLetters_eq_ok_iff_of_word _).1 hg', h⟩
  · rintro ⟨hnew, g', hg', h⟩
    exact ⟨g', ⟨_, ⟨hnew, rfl⟩, (withLetters_eq_ok_iff_of_word _).1 hg'⟩, h⟩

theorem readsTo_config_iff {word : String} (hg : g.pending = .nothing)
    (hword : word ∈ ["-c", "--config"]) :
    ReadsTo side g (word :: args) r rest ↔
      ∃ path more, args = path :: more ∧ IsValue path ∧ path ≠ "" ∧ g.config = none ∧
        ReadsTo side { g with config := some path } more r rest := by
  have hread : readSide side g (word :: args) =
      g.awaitingConfig >>= fun g => readSide side g args := by
    rcases List.mem_cons.1 hword with rfl | hlong
    · exact readSide_of_letters (s := ['c']) (by decide)
    · obtain rfl := List.mem_singleton.1 hlong
      have hshape : Shape.ofArgument "--config" = .long "config" none := by decide
      rw [readSide_of_long hshape, withLong_config]
  have hawaiting : g.awaitingConfig = .ok { g with pending := .config none } := by
    rw [Given.awaitingConfig, Given.settle_of_nothing hg]
    rfl
  rw [← readsTo_waiting_iff hg, readsTo_iff_of_bind hread, hawaiting]
  simp

theorem readsTo_attached_iff {word path : String} (hg : g.pending = .nothing)
    (hword : word ∈ ["-c=", "--config="] ∨
      word = "-c" ∧ path ≠ "" ∧ path.toList.head? ≠ some '=') :
    ReadsTo side g ((word ++ path) :: args) r rest ↔
      path ≠ "" ∧ g.config = none ∧ ReadsTo side { g with config := some path } args r rest := by
  have hletters : ∀ s, g.withLetters side (word ++ path) ('c' :: s) = g.withConfigLetters s :=
    fun s => rfl
  have hattached : g.withAttachedConfig path = g.withConfig path := by
    rw [Given.withAttachedConfig, Given.settle_of_nothing hg]
    rfl
  have hread : readSide side g ((word ++ path) :: args) =
      g.withAttachedConfig path >>= fun g => readSide side g args := by
    rcases hword with hword | ⟨rfl, hne, hhead⟩
    · rcases List.mem_cons.1 hword with rfl | hlong
      · have hshape : Shape.ofArgument ("-c=" ++ path) = .letters ('c' :: '=' :: path.toList) := by
          rw [Shape.ofArgument, String.toList_append]
          rfl
        rw [readSide_of_letters hshape, hletters, Given.withConfigLetters, String.ofList_toList]
      · obtain rfl := List.mem_singleton.1 hlong
        have hshape : Shape.ofArgument ("--config=" ++ path) = .long "config" (some path) := by
          have hmark : '=' ∉ "config".toList := by decide
          have hname := Shape.ofLong_append hmark path.toList
          rw [String.ofList_toList, String.ofList_toList] at hname
          rw [Shape.ofArgument, String.toList_append]
          exact hname
        rw [readSide_of_long hshape, withLong_config]
    · have hshape : Shape.ofArgument ("-c" ++ path) = .letters ('c' :: path.toList) := by
        rw [Shape.ofArgument, String.toList_append]
        rfl
      rw [readSide_of_letters hshape, hletters]
      unfold Given.withConfigLetters
      split
      · rename_i hnil
        exact absurd (String.toList_eq_nil_iff.1 hnil) hne
      · rename_i heq
        rw [heq] at hhead
        exact absurd rfl hhead
      · rw [String.ofList_toList]
  rw [readsTo_iff_of_bind hread, hattached]
  simp only [withConfig_eq_ok_iff]
  constructor
  · rintro ⟨_, ⟨hne, hnew, rfl⟩, h⟩
    exact ⟨hne, hnew, h⟩
  · rintro ⟨hne, hnew, h⟩
    exact ⟨_, ⟨hne, hnew, rfl⟩, h⟩

theorem readsTo_operand_iff (hg : g.pending = .nothing) (hend : side.endsInTask = false)
    (harg : IsValue arg) :
    ReadsTo side g (arg :: args) r rest ↔
      ∃ kind x, side.operand = some kind ∧ Operand.ofArgument kind arg = .ok x ∧
        g.operand = none ∧ ReadsTo side { g with operand := some x } args r rest := by
  have hread := @readSide_of_value side g args arg harg
  have hready : ∀ kind, Ready { g with pending := .operand kind arg } args :=
    fun kind => ready_of_ne (by simp)
  rw [if_neg (by rw [hg]; nofun), hend, if_neg Bool.false_ne_true] at hread
  rw [readsTo_iff_of_bind hread]
  have hsettled := Given.settle_of_nothing hg
  simp only [Given.withOperand_eq_ok_iff, Given.hasOperand_iff_of_settle hsettled, hsettled]
  constructor
  · rintro ⟨_, ⟨hnew, kind, _, hkind, ⟨⟩, rfl⟩, h⟩
    obtain ⟨_, hsettle, h⟩ := (settlesBefore side args _ r rest (hready kind)).1 h
    obtain ⟨x, hx, rfl⟩ := (settle_operand_eq_ok_iff hg).1 hsettle
    exact ⟨kind, x, hkind, hx, not_not.1 hnew, h⟩
  · rintro ⟨kind, x, hkind, hx, hnew, h⟩
    refine ⟨_, ⟨not_not.2 hnew, kind, g, hkind, rfl, rfl⟩, ?_⟩
    exact (settlesBefore side args _ r rest (hready kind)).2
      ⟨_, (settle_operand_eq_ok_iff hg).2 ⟨x, hx, rfl⟩, h⟩

/-- In front of a task, its name ends the side. -/
theorem readsTo_task_iff (hg : g.pending = .nothing) (hend : side.endsInTask = true)
    (harg : IsValue arg) :
    ReadsTo side g (arg :: args) r rest ↔
      ∃ name : TaskName, arg = name.word ∧ rest = some (name, args) ∧ g = r := by
  have hread := @readSide_of_value side g args arg harg
  rw [if_neg (by rw [hg]; nofun), if_pos hend, endInTask] at hread
  cases htask : TaskName.named? arg with
  | none =>
      rw [htask] at hread
      constructor
      · rintro ⟨g', hg', -⟩
        rw [hread] at hg'
        dsimp only at hg'
        split at hg' <;> cases hg'
      · rintro ⟨name, hname, -⟩
        rw [named?_eq_some_iff.2 hname] at htask
        cases htask
  | some name =>
      rw [htask] at hread
      rw [readsTo_iff_of_stop hread, Given.settle_of_nothing hg, Except.ok.injEq]
      constructor
      · rintro ⟨hrest, hr⟩
        exact ⟨name, named?_eq_some_iff.1 htask, hrest, hr⟩
      · rintro ⟨name', hname, hrest, hr⟩
        rw [named?_eq_some_iff.2 hname] at htask
        obtain rfl := Option.some.inj htask
        exact ⟨hrest, hr⟩

/-- Behind two hyphens there is at most an operand. -/
theorem readsTo_endOfOptions_iff (hg : g.pending = .nothing) :
    ReadsTo side g ("--" :: args) r rest ↔ rest = none ∧ ((args = [] ∧ g = r) ∨
      ∃ arg kind x, args = [arg] ∧ side.operand = some kind ∧ Operand.ofArgument kind arg = .ok x ∧
        g.operand = none ∧ { g with operand := some x } = r) := by
  have hsettled := Given.settle_of_nothing hg
  have hread : ReadsTo side g ("--" :: args) r rest ↔
      rest = none ∧ ∃ g', readOperands side g args = .ok g' ∧ g'.settle = .ok r := by
    rw [ReadsTo, readSide_of_endOfOptions (by decide)]
    simp only [bind_eq_ok_iff]
    constructor
    · rintro ⟨_, ⟨g', hg', hx⟩, hr⟩
      obtain ⟨rfl, rfl⟩ := Prod.mk.inj (Except.ok.inj hx)
      exact ⟨rfl, g', hg', hr⟩
    · rintro ⟨rfl, g', hg', hr⟩
      exact ⟨g', ⟨g', hg', rfl⟩, hr⟩
  rw [hread]
  apply and_congr_right
  intro _
  cases args with
  | nil => simp [readOperands, hsettled, pure, Except.pure]
  | cons arg more =>
      have hoperands : ∀ g', readOperands side g (arg :: more) = .ok g' ↔
          ∃ g₁, g.withOperand side arg = .ok g₁ ∧ readOperands side g₁ more = .ok g' := by
        intro g'
        rw [readOperands, List.foldlM_cons, bind_eq_ok_iff]
        rfl
      simp only [hoperands, Given.withOperand_eq_ok_iff, Given.hasOperand_iff_of_settle hsettled,
        hsettled]
      constructor
      · rintro ⟨g', ⟨_, ⟨hnew, kind, _, hkind, ⟨⟩, rfl⟩, hmore⟩, hr⟩
        cases more with
        | nil =>
            obtain rfl := Except.ok.inj hmore
            obtain ⟨x, hx, hr⟩ := (settle_operand_eq_ok_iff hg).1 hr
            exact .inr ⟨arg, kind, x, rfl, hkind, hx, not_not.1 hnew, hr⟩
        | cons second more =>
            rw [readOperands, List.foldlM_cons, bind_eq_ok_iff] at hmore
            obtain ⟨_, hsecond, -⟩ := hmore
            exact absurd (.inr ⟨kind, arg, rfl⟩) (Given.withOperand_eq_ok_iff.1 hsecond).1
      · rintro (⟨⟨⟩, -⟩ | ⟨_, kind, x, ⟨⟩, hkind, hx, hnew, hr⟩)
        exact ⟨_, ⟨_, ⟨not_not.2 hnew, kind, g, hkind, rfl, rfl⟩, rfl⟩,
          (settle_operand_eq_ok_iff hg).2 ⟨x, hx, hr⟩⟩

end Rules

end LutFixture.CommandLine
