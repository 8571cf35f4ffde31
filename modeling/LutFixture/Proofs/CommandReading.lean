import LutFixture.Proofs.ArgumentRules

/-!
# Reading is what the words say

One side of a command line is read to the end exactly if its words say something, and what is
given in the end is what they say. Hence arguments are read as an invocation exactly if their
words make that invocation.
-/

namespace LutFixture.CommandLine

/-- The arguments that are left where one side ends. -/
def remaining : Option (TaskName × List String) → List String
  | none => []
  | some (name, args) => name.word :: args

section Reading

variable {side : Side} {g g' r : Given} {args : List String}
  {rest : Option (TaskName × List String)} {arg : String} {f : Flag} (place : Option TaskName)

theorem readsTo_of_says (hg : g.pending = .nothing) (hplace : place = none ↔ rest ≠ none)
    (h : Says place g args r) : ReadsTo (sideAt place) g (args ++ remaining rest) r rest := by
  have hend : place ≠ none → rest = none ∧ (sideAt place).endsInTask = false := by
    intro hbehind
    exact ⟨not_not.1 (mt hplace.2 hbehind), endsInTask_sideAt hbehind⟩
  induction h with
  | nil =>
      cases rest with
      | none => exact readsTo_nil_iff.2 ⟨rfl, Given.settle_of_nothing hg⟩
      | some x =>
          obtain ⟨name, more⟩ := x
          obtain rfl : place = none := hplace.2 nofun
          have hvalue : IsValue name.word := .inl (head?_word_ne name)
          exact (readsTo_task_iff hg rfl hvalue).2 ⟨name, rfl, rfl, rfl⟩
  | flag hword hflag hnew _ ih =>
      rw [← flags_sideAt] at hflag
      exact (readsTo_flag_iff hg hword hflag).2 ⟨hnew, ih hg⟩
  | letters hc hnew _ ih => exact (readsTo_letters_iff hg hc).2 ⟨hnew, ih hg⟩
  | config hword hvalue hne hnew _ ih =>
      exact (readsTo_config_iff hg hword).2 ⟨_, _, rfl, hvalue, hne, hnew, ih hg⟩
  | attached hword hne hnew _ ih =>
      have hword' := hword.imp_right fun h => And.intro h.1 (And.intro hne h.2)
      exact (readsTo_attached_iff hg hword').2 ⟨hne, hnew, ih hg⟩
  | operand hvalue hoperand hnew _ ih =>
      obtain ⟨kind, hkind, hx⟩ := isOperand_iff.1 hoperand
      have hbehind : place ≠ none := by
        rintro rfl
        cases hoperand
      exact (readsTo_operand_iff hg (hend hbehind).2 hvalue).2 ⟨kind, _, hkind, hx, hnew, ih hg⟩
  | endOfOptions hbehind =>
      rw [(hend hbehind).1]
      exact (readsTo_endOfOptions_iff hg).2 ⟨rfl, .inl ⟨rfl, rfl⟩⟩
  | lastOperand hoperand hnew =>
      obtain ⟨kind, hkind, hx⟩ := isOperand_iff.1 hoperand
      have hbehind : place ≠ none := by
        rintro rfl
        cases hoperand
      rw [(hend hbehind).1]
      exact (readsTo_endOfOptions_iff hg).2 ⟨rfl, .inr ⟨_, kind, _, rfl, hkind, hx, hnew, rfl⟩⟩

/-! ### From reading to the words -/

theorem halting_ne_ok (x : Halt) : g.halting x ≠ .ok r := by
  rw [Given.halting]
  cases g.settle <;> nofun

theorem withLetters_ne_ok {c : Char} {s : List Char} (hv : c ≠ 'v') (hc : c ≠ 'c') :
    g.withLetters side arg (c :: s) ≠ .ok r := by
  unfold Given.withLetters
  rw [if_neg hv, if_neg hc]
  split
  · exact halting_ne_ok _
  · split
    · exact halting_ne_ok _
    · simp

/-- The letters behind a hyphen begin with that of an option. -/
theorem letter_of_readsTo {c : Char} {s : List Char} (hc : c ≠ '-')
    (h : ReadsTo side g (String.ofList ('-' :: c :: s) :: args) r rest) : c = 'v' ∨ c = 'c' := by
  have hshape : Shape.ofArgument (String.ofList ('-' :: c :: s)) = .letters (c :: s) :=
    (HasShape.letters hc).ofArgument_eq
  obtain ⟨g', hg', -⟩ := (readsTo_iff_of_bind (readSide_of_letters hshape)).1 h
  by_contra hne
  obtain ⟨hv, hc'⟩ := not_or.1 hne
  exact withLetters_ne_ok hv hc' hg'

/-- A second hyphen is not among the letters. -/
theorem ne_hyphen_of_readsTo {d : Char} {s : List Char}
    (h : ReadsTo side g (String.ofList ('-' :: 'v' :: d :: s) :: args) r rest) : d ≠ '-' := by
  have hshape : Shape.ofArgument (String.ofList ('-' :: 'v' :: d :: s)) =
      .letters ('v' :: d :: s) := (HasShape.letters (by decide)).ofArgument_eq
  obtain ⟨g', hg', -⟩ := (readsTo_iff_of_bind (readSide_of_letters hshape)).1 h
  rw [withLetters_verbose] at hg'
  obtain ⟨_, -, hletters⟩ := bind_eq_ok_iff.1 hg'
  rintro rfl
  exact withLetters_ne_ok (by decide) (by decide) hletters

/-- A long option that is read is one without a value, or names the configuration file. -/
theorem withLong_eq_ok {name : String} {value : Option String}
    (h : g.withLong side arg name value = .ok r) :
    (∃ f ∈ side.flags, name = f.name ∧ value = none) ∨ name = "config" := by
  unfold Given.withLong at h
  split at h
  · rename_i f hf
    have hname : f.name = name := by simpa using List.find?_some hf
    exact .inl ⟨f, List.mem_of_find?_eq_some hf, hname.symm, rfl⟩
  · cases h
  · split at h
    · rename_i hconfig
      exact .inr hconfig
    · split at h
      · exact absurd h (halting_ne_ok _)
      · split at h
        · exact absurd h (halting_ne_ok _)
        · cases h

theorem verbose_mem_flags (place : Option TaskName) : .verbose ∈ (sideAt place).flags := by
  rcases place with _ | (_ | _ | _ | _ | _) <;> decide

theorem ofList_append_eq (front s : List Char) {word : String} (h : word = String.ofList front) :
    String.ofList (front ++ s) = word ++ String.ofList s := by
  rw [h, String.ofList_append]

/-- The name of a task does not begin with a hyphen. -/
theorem remaining_ne_letters (s : List Char) :
    String.ofList ('-' :: s) :: args ≠ remaining rest := by
  rcases rest with _ | ⟨name, more⟩
  · nofun
  · intro h
    apply head?_word_ne name
    rw [← (List.cons.inj h).1, String.toList_ofList]
    rfl

/-- The words up to the end of the side say what is given in the end. -/
def Said (place : Option TaskName) (g : Given) (args : List String) (r : Given)
    (rest : Option (TaskName × List String)) : Prop :=
  ∃ front, args = front ++ remaining rest ∧ Says place g front r

/-- Fewer than so many arguments are read as the words say. -/
def SaidBelow (place : Option TaskName) (n : Nat) (r : Given)
    (rest : Option (TaskName × List String)) : Prop :=
  ∀ {args : List String} {g : Given}, args.length < n → ReadsTo (sideAt place) g args r rest →
    g.pending = .nothing → Said place g args r rest

section Below

variable {n : Nat} {word path : String} {place}

theorem said_of_flag (hbelow : SaidBelow place n r rest) (hlt : args.length < n)
    (hword : word ∈ f.words) (hflag : f ∈ (sideAt place).flags)
    (h : ReadsTo (sideAt place) g (word :: args) r rest) (hg : g.pending = .nothing) :
    Said place g (word :: args) r rest := by
  obtain ⟨hnew, h⟩ := (readsTo_flag_iff hg hword hflag).1 h
  obtain ⟨front, rfl, hfront⟩ := hbelow hlt h hg
  exact ⟨word :: front, rfl, .flag hword (flags_sideAt place ▸ hflag) hnew hfront⟩

theorem said_of_config (hbelow : SaidBelow place n r rest) (hlt : args.length < n)
    (hword : word ∈ ["-c", "--config"]) (h : ReadsTo (sideAt place) g (word :: args) r rest)
    (hg : g.pending = .nothing) : Said place g (word :: args) r rest := by
  obtain ⟨path, more, rfl, hvalue, hne, hnew, h⟩ := (readsTo_config_iff hg hword).1 h
  obtain ⟨front, rfl, hfront⟩ := hbelow (Nat.lt_of_succ_lt hlt) h hg
  exact ⟨word :: path :: front, rfl, .config hword hvalue hne hnew hfront⟩

theorem said_of_attached (hbelow : SaidBelow place n r rest) (hlt : args.length < n)
    (hword : word ∈ ["-c=", "--config="] ∨
      word = "-c" ∧ path ≠ "" ∧ path.toList.head? ≠ some '=')
    (h : ReadsTo (sideAt place) g ((word ++ path) :: args) r rest) (hg : g.pending = .nothing) :
    Said place g ((word ++ path) :: args) r rest := by
  obtain ⟨hne, hnew, h⟩ := (readsTo_attached_iff hg hword).1 h
  obtain ⟨front, rfl, hfront⟩ := hbelow hlt h hg
  have hword' := hword.imp_right fun h => And.intro h.1 h.2.2
  exact ⟨(word ++ path) :: front, rfl, .attached hword' hne hnew hfront⟩

/-- The letter of the option for the configuration file takes the letters behind it for the name of
the file, if there are any. -/
theorem said_of_configLetters {s : List Char} (hbelow : SaidBelow place n r rest)
    (hlt : args.length < n)
    (h : ReadsTo (sideAt place) g (String.ofList ('-' :: 'c' :: s) :: args) r rest)
    (hg : g.pending = .nothing) :
    Said place g (String.ofList ('-' :: 'c' :: s) :: args) r rest := by
  cases s with
  | nil => exact said_of_config hbelow hlt (.head _) h hg
  | cons d s =>
      by_cases hd : d = '='
      · subst hd
        have hword : String.ofList ('-' :: 'c' :: '=' :: s) = "-c=" ++ String.ofList s :=
          ofList_append_eq ['-', 'c', '='] s rfl
        rw [hword] at h ⊢
        exact said_of_attached hbelow hlt (.inl (.head _)) h hg
      · have hword : String.ofList ('-' :: 'c' :: d :: s) = "-c" ++ String.ofList (d :: s) :=
          ofList_append_eq ['-', 'c'] (d :: s) rfl
        have hne : String.ofList (d :: s) ≠ "" := by simp
        have hhead : (String.ofList (d :: s)).toList.head? ≠ some '=' := by simpa using hd
        rw [hword] at h ⊢
        exact said_of_attached hbelow hlt (.inr ⟨rfl, hne, hhead⟩) h hg

/-- An argument of letters that is read says what its letters say, one after the other. -/
theorem said_of_letters {c : Char} {s : List Char} (hbelow : SaidBelow place n r rest)
    (hlt : args.length < n) (hc : c ≠ '-')
    (h : ReadsTo (sideAt place) g (String.ofList ('-' :: c :: s) :: args) r rest)
    (hg : g.pending = .nothing) : Said place g (String.ofList ('-' :: c :: s) :: args) r rest := by
  induction s generalizing g c with
  | nil =>
      rcases letter_of_readsTo hc h with rfl | rfl
      · have hword : "-v" ∈ Flag.verbose.words := .head _
        exact said_of_flag hbelow hlt hword (verbose_mem_flags place) h hg
      · exact said_of_configLetters hbelow hlt h hg
  | cons d s ih =>
      rcases letter_of_readsTo hc h with rfl | rfl
      · have hd := ne_hyphen_of_readsTo h
        obtain ⟨hnew, h⟩ := (readsTo_letters_iff hg hd).1 h
        obtain ⟨front, hfront, hmore⟩ := ih hd h hg
        cases front with
        | nil => exact absurd hfront (remaining_ne_letters _)
        | cons arg front =>
            obtain ⟨rfl, rfl⟩ := List.cons.inj hfront
            exact ⟨_ :: front, rfl, .letters hd hnew hmore⟩
      · exact said_of_configLetters hbelow hlt h hg

theorem said_of_long {name : List Char} (hbelow : SaidBelow place n r rest)
    (hlt : args.length < n)
    (hshape : Shape.ofArgument (String.ofList ('-' :: '-' :: name)) =
      .long (String.ofList name) none)
    (h : ReadsTo (sideAt place) g (String.ofList ('-' :: '-' :: name) :: args) r rest)
    (hg : g.pending = .nothing) :
    Said place g (String.ofList ('-' :: '-' :: name) :: args) r rest := by
  have hhyphens : String.ofList ('-' :: '-' :: name) = "--" ++ String.ofList name :=
    ofList_append_eq ['-', '-'] name rfl
  obtain ⟨g', hg', -⟩ := (readsTo_iff_of_bind (readSide_of_long hshape)).1 h
  rcases withLong_eq_ok hg' with ⟨f, hflag, hname, -⟩ | hconfig
  · rw [hhyphens, hname] at h ⊢
    exact said_of_flag hbelow hlt (Flag.mem_words_iff.2 (.inl rfl)) hflag h hg
  · rw [hhyphens, hconfig] at h ⊢
    exact said_of_config hbelow hlt (.tail _ (.head _)) h hg

theorem said_of_longValue {name value : List Char} (hbelow : SaidBelow place n r rest)
    (hlt : args.length < n)
    (hshape : Shape.ofArgument (String.ofList ('-' :: '-' :: (name ++ '=' :: value))) =
      .long (String.ofList name) (some (String.ofList value)))
    (h : ReadsTo (sideAt place) g
      (String.ofList ('-' :: '-' :: (name ++ '=' :: value)) :: args) r rest)
    (hg : g.pending = .nothing) :
    Said place g (String.ofList ('-' :: '-' :: (name ++ '=' :: value)) :: args) r rest := by
  obtain ⟨g', hg', -⟩ := (readsTo_iff_of_bind (readSide_of_long hshape)).1 h
  rcases withLong_eq_ok hg' with ⟨_, -, -, ⟨⟩⟩ | hconfig
  have hname : name = "config".toList := by rw [← hconfig, String.toList_ofList]
  have hword : String.ofList ('-' :: '-' :: (name ++ '=' :: value)) =
      "--config=" ++ String.ofList value := by
    rw [hname]
    exact ofList_append_eq "--config=".toList value String.ofList_toList.symm
  rw [hword] at h ⊢
  exact said_of_attached hbelow hlt (.inl (.tail _ (.head _))) h hg

end Below

theorem said_of_readsTo (hplace : place = none ↔ rest ≠ none)
    (h : ReadsTo (sideAt place) g args r rest) (hg : g.pending = .nothing) :
    Said place g args r rest := by
  -- An option may take two arguments at once, so what is left may be shorter by more than one.
  induction hn : args.length using Nat.strongRecOn generalizing args g with
  | ind n ih =>
      have hbelow : SaidBelow place n r rest := fun hlt h hg => ih _ hlt h hg rfl
      cases args with
      | nil =>
          obtain ⟨rfl, hr⟩ := readsTo_nil_iff.1 h
          rw [Given.settle_of_nothing hg] at hr
          obtain rfl := Except.ok.inj hr
          exact ⟨[], rfl, .nil⟩
      | cons arg more =>
          have hlt : more.length < n := hn ▸ Nat.lt_succ_self _
          have hshape := hasShape_ofArgument arg
          generalize hx : Shape.ofArgument arg = x at hshape
          cases hshape with
          | endOfOptions =>
              obtain ⟨rfl, hmore⟩ := (readsTo_endOfOptions_iff hg).1 h
              have hbehind : place ≠ none := fun hnone => hplace.1 hnone rfl
              rcases hmore with ⟨rfl, rfl⟩ | ⟨arg, kind, x, rfl, hkind, hx, hnew, rfl⟩
              · exact ⟨["--"], rfl, .endOfOptions hbehind⟩
              · exact ⟨["--", arg], rfl, .lastOperand (isOperand_iff.2 ⟨kind, hkind, hx⟩) hnew⟩
          | long hne hname => exact said_of_long hbelow hlt hx h hg
          | longValue hname => exact said_of_longValue hbelow hlt hx h hg
          | letters hc => exact said_of_letters hbelow hlt hc h hg
          | plain hvalue =>
              by_cases hnone : place = none
              · subst hnone
                obtain ⟨name, rfl, rfl, rfl⟩ := (readsTo_task_iff hg rfl hvalue).1 h
                exact ⟨[], rfl, .nil⟩
              · have hend := endsInTask_sideAt hnone
                obtain ⟨kind, x, hkind, hx, hnew, h⟩ := (readsTo_operand_iff hg hend hvalue).1 h
                obtain ⟨front, rfl, hfront⟩ := hbelow hlt h hg
                exact ⟨arg :: front, rfl,
                  .operand hvalue (isOperand_iff.2 ⟨kind, hkind, hx⟩) hnew hfront⟩

/-- A side is read to its end exactly if its words say what is given in the end. -/
theorem readsTo_iff_said (hplace : place = none ↔ rest ≠ none) (hg : g.pending = .nothing) :
    ReadsTo (sideAt place) g args r rest ↔ Said place g args r rest := by
  constructor
  · intro h
    exact said_of_readsTo place hplace h hg
  · rintro ⟨front, rfl, hfront⟩
    exact readsTo_of_says place hg hplace hfront

/-- Behind a task no side ends in another one. -/
theorem rest_eq_none_of_readSide (hend : side.endsInTask = false)
    (h : readSide side g args = .ok (g', rest)) : rest = none := by
  induction args generalizing g with
  | nil => exact (Prod.mk.inj (Except.ok.inj h)).2.symm
  | cons arg args ih =>
      rw [readSide] at h
      split at h
      · obtain ⟨_, -, hrest⟩ := bind_eq_ok_iff.1 h
        exact (Prod.mk.inj (Except.ok.inj hrest)).2.symm
      · obtain ⟨_, -, h⟩ := bind_eq_ok_iff.1 h
        exact ih h
      · obtain ⟨_, -, h⟩ := bind_eq_ok_iff.1 h
        exact ih h
      · split at h
        · exact ih h
        · rw [hend, if_neg Bool.false_ne_true] at h
          obtain ⟨_, -, h⟩ := bind_eq_ok_iff.1 h
          exact ih h

end Reading

/-! ### Invocations -/

variable {args : List String} {i : Invocation}

/-- An invocation is read from what stands on the two sides of the name of a task. -/
theorem readInvocation_eq_ok_iff :
    readInvocation args = .ok i ↔
      ∃ (x y : Given) (name : TaskName) (back : List String) (task : Task),
        ReadsTo outerSide {} args x (some (name, back)) ∧ ReadsTo name.side {} back y none ∧
        taskOf y name = .ok task ∧
        i = { verbose := (x.flags ++ y.flags).contains .verbose
              config := y.config <|> x.config
              task } := by
  have htask : ∀ {name g task},
      (taskOf g name).mapError Halt.fault = .ok task ↔ taskOf g name = .ok task := by
    intro name g task
    cases taskOf g name <;> simp [Except.mapError]
  rw [readInvocation, bind_eq_ok_iff]
  constructor
  · rintro ⟨⟨outer, rest⟩, houter, h⟩
    cases rest with
    | none => obtain ⟨_, -, ⟨⟩⟩ := bind_eq_ok_iff.1 h
    | some rest =>
        obtain ⟨name, back⟩ := rest
        obtain ⟨⟨inner, stop⟩, hinner, h⟩ := bind_eq_ok_iff.1 h
        obtain ⟨y, hy, h⟩ := bind_eq_ok_iff.1 h
        obtain ⟨task, hmakes, h⟩ := bind_eq_ok_iff.1 h
        obtain ⟨x, hx, h⟩ := bind_eq_ok_iff.1 h
        have hi := (Except.ok.inj h).symm
        have hend := endsInTask_sideAt (Option.some_ne_none name)
        obtain rfl := rest_eq_none_of_readSide hend hinner
        exact ⟨x, y, name, back, task, ⟨outer, houter, hx⟩, ⟨inner, hinner, hy⟩, htask.1 hmakes, hi⟩
  · rintro ⟨x, y, name, back, task, ⟨outer, houter, hx⟩, ⟨inner, hinner, hy⟩, hmakes, rfl⟩
    refine ⟨_, houter, bind_eq_ok_iff.2 ⟨_, hinner, bind_eq_ok_iff.2 ⟨y, hy, ?_⟩⟩⟩
    exact bind_eq_ok_iff.2 ⟨task, htask.2 hmakes, bind_eq_ok_iff.2 ⟨x, hx, rfl⟩⟩

/-- Arguments are read as an invocation exactly if their words make it. -/
theorem readRequest_eq_task_iff : readRequest args = .ok (.task i) ↔ Means args i := by
  have hread : readRequest args = .ok (.task i) ↔ readInvocation args = .ok i := by
    rw [readRequest]
    split <;> simp_all
  have hverbose : ∀ x y : Given, (x.flags ++ y.flags).contains .verbose =
      decide (Flag.verbose ∈ x.flags ∨ Flag.verbose ∈ y.flags) := by
    intro x y
    simp
  rw [hread, readInvocation_eq_ok_iff]
  constructor
  · rintro ⟨x, y, name, _, task, hfront, hback, hmakes, rfl⟩
    obtain ⟨front, rfl, hx⟩ := (readsTo_iff_said none (by simp) rfl).1 hfront
    obtain ⟨back, rfl, hy⟩ := (readsTo_iff_said (some name) (by simp) rfl).1 hback
    rw [remaining, remaining, List.append_nil, hverbose]
    exact .mk hx hy (makesTask_iff.1 hmakes)
  · rintro ⟨hfront, hback, hmakes⟩
    rename_i front back name x y task
    refine ⟨x, y, name, back, task, ?_, ?_, makesTask_iff.2 hmakes, ?_⟩
    · exact (readsTo_iff_said none (by simp) rfl).2 ⟨front, rfl, hfront⟩
    · have hall : back = back ++ remaining none := (List.append_nil back).symm
      exact (readsTo_iff_said (some name) (by simp) rfl).2 ⟨back, hall, hback⟩
    · rw [hverbose]

/-- Letters and a file behind one hyphen, and an operand in front of an option. -/
example : Means ["-vcc.json", "run", "s.txt", "--stats"]
    ⟨true, some "c.json", .run "s.txt" false true⟩ := readRequest_eq_task_iff.1 rfl

end LutFixture.CommandLine
