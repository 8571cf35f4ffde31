import LutFixture.CommandLine.Arguments

/-!
# What the words of a command line say

The grammar of a command line, said without reading it: which words stand for which option, what
may follow the name of a task or precede it, and which invocation all of that makes. An option
is given once on each side of the name of the task, its value in the next argument or in its own.

The tables from which arguments are read have the same options at the same places.
-/

namespace LutFixture.CommandLine

/-- The argument can be the value of an option: it has no hyphen at its beginning, or is one. -/
def IsValue (arg : String) : Prop := arg.toList.head? ≠ some '-' ∨ arg = "-"

/-- The words for an option without a value. -/
def Flag.words : Flag → List String
  | .verbose => ["-v", "--verbose"]
  | .traceJson => ["--trace-json"]
  | .stats => ["--stats"]
  | .json => ["--json"]

/-- The word for a task. -/
def TaskName.word : TaskName → String
  | .run => "run"
  | .evaluate => "eval"
  | .table => "table"
  | .sweep => "sweep"
  | .info => "info"

/-- The options without a value that may stand behind a task or, without one, in front of it. -/
def flagsAt : Option TaskName → List Flag
  | some .run => [.verbose, .traceJson, .stats]
  | some .sweep => [.verbose, .json]
  | _ => [.verbose]

/-- What an argument stands for as the operand of a task. -/
inductive IsOperand : Option TaskName → String → Operand → Prop
  | file {path : String} (hne : path ≠ "") : IsOperand (some .run) path (.file path)
  | pattern {arg : String} {p : Pattern} (hp : patternOf arg = .ok p) :
    IsOperand (some .evaluate) arg (.pattern p)

/-- What words add to what has been given, behind a task or in front of it. No option may be given
twice, and no operand. -/
inductive Says (place : Option TaskName) : Given → List String → Given → Prop
  | nil {g : Given} : Says place g [] g
  | flag {g r : Given} {f : Flag} {word : String} {args : List String} (hword : word ∈ f.words)
      (hplace : f ∈ flagsAt place) (hnew : f ∉ g.flags)
      (h : Says place { g with flags := f :: g.flags } args r) : Says place g (word :: args) r
  /-- Letters behind one hyphen, of which the first one is the short form of an option. -/
  | letters {g r : Given} {c : Char} {s : List Char} {args : List String} (hc : c ≠ '-')
      (hnew : .verbose ∉ g.flags)
      (h : Says place { g with flags := .verbose :: g.flags }
        (String.ofList ('-' :: c :: s) :: args) r) :
      Says place g (String.ofList ('-' :: 'v' :: c :: s) :: args) r
  | config {g r : Given} {word path : String} {args : List String}
      (hword : word ∈ ["-c", "--config"]) (hvalue : IsValue path) (hne : path ≠ "")
      (hnew : g.config = none) (h : Says place { g with config := some path } args r) :
      Says place g (word :: path :: args) r
  /-- The name of the file in the same argument. -/
  | attached {g r : Given} {word path : String} {args : List String}
      (hword : word ∈ ["-c=", "--config="] ∨ word = "-c" ∧ path.toList.head? ≠ some '=')
      (hne : path ≠ "") (hnew : g.config = none)
      (h : Says place { g with config := some path } args r) :
      Says place g ((word ++ path) :: args) r
  | operand {g r : Given} {arg : String} {x : Operand} {args : List String} (hvalue : IsValue arg)
      (hoperand : IsOperand place arg x) (hnew : g.operand = none)
      (h : Says place { g with operand := some x } args r) : Says place g (arg :: args) r
  /-- Behind two hyphens nothing is taken for an option. -/
  | endOfOptions {g : Given} (hplace : place ≠ none) : Says place g ["--"] g
  | lastOperand {g : Given} {arg : String} {x : Operand} (hoperand : IsOperand place arg x)
      (hnew : g.operand = none) : Says place g ["--", arg] { g with operand := some x }

/-- What is said behind a task makes it. -/
inductive MakesTask : TaskName → Given → Task → Prop
  | run {g : Given} {path : String} (h : g.operand = some (.file path)) :
    MakesTask .run g (.run path (Flag.traceJson ∈ g.flags) (Flag.stats ∈ g.flags))
  | evaluate {g : Given} {p : Pattern} (h : g.operand = some (.pattern p)) :
    MakesTask .evaluate g (.evaluate p)
  | table {g : Given} : MakesTask .table g .table
  | sweep {g : Given} : MakesTask .sweep g (.sweep (Flag.json ∈ g.flags))
  | info {g : Given} : MakesTask .info g .info

/-- The words make an invocation: the name of a task, with something behind it and in front of it.
The option for the configuration file counts behind the task, and in front of it if it is not given
behind. -/
inductive Means : List String → Invocation → Prop
  | mk {front back : List String} {name : TaskName} {x y : Given} {task : Task}
    (hfront : Says none {} front x) (hback : Says (some name) {} back y)
    (htask : MakesTask name y task) :
    Means (front ++ name.word :: back)
      { verbose := Flag.verbose ∈ x.flags ∨ Flag.verbose ∈ y.flags
        config := y.config <|> x.config
        task }

/-! ### The tables of the reading -/

/-- What may stand behind a task or in front of it, as reading knows it. -/
def sideAt : Option TaskName → Side
  | none => outerSide
  | some name => name.side

section Tables

variable {place : Option TaskName} {arg : String}

theorem flags_sideAt (place : Option TaskName) : (sideAt place).flags = flagsAt place := by
  rcases place with _ | (_ | _ | _ | _ | _) <;> rfl

theorem endsInTask_sideAt (hplace : place ≠ none) : (sideAt place).endsInTask = false := by
  rcases place with _ | (_ | _ | _ | _ | _)
  · exact absurd rfl hplace
  all_goals rfl

theorem isOperand_iff {x : Operand} :
    IsOperand place arg x ↔
      ∃ kind, (sideAt place).operand = some kind ∧ Operand.ofArgument kind arg = .ok x := by
  constructor
  · rintro (hne | hp)
    · refine ⟨.file, rfl, ?_⟩
      simp [Operand.ofArgument, hne]
    · refine ⟨.pattern, rfl, ?_⟩
      simp [Operand.ofArgument, hp]
  · rintro ⟨kind, hkind, hx⟩
    rcases place with _ | (_ | _ | _ | _ | _) <;> cases hkind
    · rw [Operand.ofArgument] at hx
      split at hx
      · cases hx
      · rename_i hne
        obtain rfl := Except.ok.inj hx
        exact .file (by simpa using hne)
    · rw [Operand.ofArgument] at hx
      split at hx
      · rename_i p hp
        obtain rfl := Except.ok.inj hx
        exact .pattern hp
      · cases hx

theorem Flag.mem_words_iff {f : Flag} {word : String} :
    word ∈ f.words ↔ word = "--" ++ f.name ∨ f = .verbose ∧ word = "-v" := by
  cases f <;> simp [words, name, or_comm]

theorem head?_word_ne (name : TaskName) : name.word.toList.head? ≠ some '-' := by
  cases name <;> decide

theorem named?_eq_some_iff {name : TaskName} :
    TaskName.named? arg = some name ↔ arg = name.word := by
  constructor
  · intro h
    obtain rfl : name.name = arg := by simpa using List.find?_some h
    cases name <;> rfl
  · rintro rfl
    cases name <;> rfl

theorem makesTask_iff {name : TaskName} {g : Given} {task : Task} :
    taskOf g name = .ok task ↔ MakesTask name g task := by
  constructor
  · intro h
    cases name with
    | run =>
        rw [taskOf] at h
        split at h
        · rename_i path hpath
          obtain rfl := Except.ok.inj h
          exact .run hpath
        · cases h
    | evaluate =>
        rw [taskOf] at h
        split at h
        · rename_i p hp
          obtain rfl := Except.ok.inj h
          exact .evaluate hp
        · cases h
    | table =>
        obtain rfl := Except.ok.inj h
        exact .table
    | sweep =>
        obtain rfl := Except.ok.inj h
        exact .sweep
    | info =>
        obtain rfl := Except.ok.inj h
        exact .info
  · rintro (hpath | hp | _ | _ | _)
    · rw [taskOf, hpath]
    · rw [taskOf, hp]
    · rfl
    · rfl
    · rfl

end Tables

end LutFixture.CommandLine
