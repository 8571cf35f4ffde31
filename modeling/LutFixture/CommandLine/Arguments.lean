import LutFixture.CommandLine.Operand

/-!
# Reading the command line

An invocation names a task, and perhaps a configuration file and a wish for a talkative log. The
two options that hold for every task may stand before the name of the task or behind it, once on
each side; the one behind wins.

Arguments are read from left to right. A value is checked only when it is settled: when the next
option begins, or at the end of its side. Until then an argument that nothing takes is the fault
to be reported.
-/

namespace LutFixture.CommandLine

/-- What a user wants done. -/
inductive Task where
  /-- Run the stimulus in a file. -/
  | run (path : String) (traceJson stats : Bool)
  /-- Ask for the response to a pattern. -/
  | evaluate (p : Pattern)
  /-- Print the reference table. -/
  | table
  /-- Check all patterns. -/
  | sweep (json : Bool)
  /-- Print the placement. -/
  | info
deriving DecidableEq, Repr

/-- What a command line asks for. -/
structure Invocation where
  /-- The log is to tell more. -/
  verbose : Bool := false
  /-- The configuration file. -/
  config : Option String := none
  /-- What is to be done. -/
  task : Task
deriving DecidableEq, Repr

/-- What a command line amounts to. -/
inductive Request where
  /-- A task. -/
  | task (i : Invocation)
  /-- The version is asked for. -/
  | version
  /-- Help is asked for. -/
  | help
deriving DecidableEq, Repr

/-- An option without a value. -/
inductive Flag where
  | verbose
  | traceJson
  | stats
  | json
deriving DecidableEq, Repr

namespace Flag

/-- The name of the option. -/
def name : Flag → String
  | .verbose => "verbose"
  | .traceJson => "trace-json"
  | .stats => "stats"
  | .json => "json"

end Flag

/-- The name of a task. -/
inductive TaskName where
  | run
  | evaluate
  | table
  | sweep
  | info
deriving DecidableEq, Repr

/-- What may stand on one side of the name of the task. -/
structure Side where
  /-- The options without a value. -/
  flags : List Flag
  /-- The operand, if there is one. -/
  operand : Option OperandKind := none
  /-- The name of a task ends the side. -/
  endsInTask : Bool := false

namespace TaskName

/-- All tasks. -/
def all : List TaskName := [.run, .evaluate, .table, .sweep, .info]

/-- The name on the command line. -/
def name : TaskName → String
  | .run => "run"
  | .evaluate => "eval"
  | .table => "table"
  | .sweep => "sweep"
  | .info => "info"

/-- The task with a name. -/
def named? (arg : String) : Option TaskName := all.find? fun t => t.name == arg

/-- What may stand behind the name of a task. -/
def side : TaskName → Side
  | .run => { flags := [.verbose, .traceJson, .stats], operand := some .file }
  | .evaluate => { flags := [.verbose], operand := some .pattern }
  | .table => { flags := [.verbose] }
  | .sweep => { flags := [.verbose, .json] }
  | .info => { flags := [.verbose] }

end TaskName

/-- What may stand before the name of a task. -/
def outerSide : Side := { flags := [.verbose], endsInTask := true }

/-- A value that has not been settled. -/
inductive Pending where
  /-- None. -/
  | nothing
  /-- The value of the option for the configuration file, if it has come already. -/
  | config (value : Option String)
  /-- The operand. -/
  | operand (kind : OperandKind) (value : String)
deriving DecidableEq, Repr

/-- What has been given on one side so far. -/
structure Given where
  /-- The options without a value. -/
  flags : List Flag := []
  /-- The configuration file. -/
  config : Option String := none
  /-- The operand. -/
  operand : Option Operand := none
  /-- A value that has not been settled. -/
  pending : Pending := .nothing
deriving DecidableEq, Repr

/-- Why reading ends before the arguments do. -/
inductive Halt where
  /-- Something is wrong. -/
  | fault (f : ArgumentFault)
  /-- The version is asked for. -/
  | version
  /-- Help is asked for. -/
  | help
deriving DecidableEq, Repr

namespace Given

/-- Takes a configuration file. -/
def withConfig (g : Given) (value : String) : Except Halt Given :=
  if g.config.isSome then .error (.fault (.repeated "--config <CONFIG>"))
  else if value.isEmpty then .error (.fault (.badValue "--config <CONFIG>"))
  else .ok { g with config := some value }

/-- Settles the value that is pending. -/
def settle (g : Given) : Except Halt Given :=
  let settled := { g with pending := .nothing }
  match g.pending with
  | .nothing => .ok settled
  | .config none => .error (.fault (.badValue "--config <CONFIG>"))
  | .config (some value) => settled.withConfig value
  | .operand kind value =>
    match Operand.ofArgument kind value with
    | .ok operand => .ok { settled with operand := some operand }
    | .error f => .error (.fault f)

/-- Takes an option without a value. -/
def withFlag (g : Given) (f : Flag) : Except Halt Given := do
  let g ← g.settle
  if f ∈ g.flags then throw (.fault (.repeated ("--" ++ f.name)))
  else return { g with flags := f :: g.flags }

/-- Takes a configuration file that stands in the same argument as its option. -/
def withAttachedConfig (g : Given) (value : String) : Except Halt Given := do
  (← g.settle).withConfig value

/-- Takes the option for the configuration file; its value has to follow. -/
def awaitingConfig (g : Given) : Except Halt Given := do
  return { (← g.settle) with pending := .config none }

/-- Takes an argument that is no option, where nothing waits for a value. -/
def withOperand (side : Side) (g : Given) (arg : String) : Except Halt Given :=
  let unexpected : Except Halt Given := .error (.fault (.unexpected arg))
  match side.operand, g.operand, g.pending with
  | some _, none, .operand _ _ => unexpected
  | some kind, none, _ => do return { (← g.settle) with pending := .operand kind arg }
  | _, _, _ => unexpected

/-- The end of what has been asked for, once the values before are settled. -/
def halting (g : Given) (h : Halt) : Except Halt Given := do
  let _ ← g.settle
  throw h

/-- Takes what stands behind the letter of the option for the configuration file. -/
def withConfigLetters (g : Given) : List Char → Except Halt Given
  | [] => g.awaitingConfig
  | '=' :: value => g.withAttachedConfig (String.ofList value)
  | value => g.withAttachedConfig (String.ofList value)

/-- Takes the letters of an argument that begins with one hyphen. -/
def withLetters (side : Side) (arg : String) (g : Given) : List Char → Except Halt Given
  | [] => .ok g
  | c :: s =>
    if c = 'v' then do (← g.withFlag .verbose).withLetters side arg s
    else if c = 'c' then g.withConfigLetters s
    else if c = 'h' then g.halting .help
    else if c = 'V' ∧ side.endsInTask then g.halting .version
    else .error (.fault (.unexpected arg))

/-- Takes an argument that begins with two hyphens, by its name and its value. -/
def withLong (side : Side) (arg : String) (g : Given) (name : String) (value : Option String) :
    Except Halt Given :=
  match side.flags.find? (fun f => f.name == name), value with
  | some f, none => g.withFlag f
  | some f, some _ => .error (.fault (.badValue ("--" ++ f.name)))
  | none, _ =>
    if name = "config" then
      match value with
      | none => g.awaitingConfig
      | some value => g.withAttachedConfig value
    else if name = "help" ∧ value = none then g.halting .help
    else if name = "version" ∧ value = none ∧ side.endsInTask then g.halting .version
    else .error (.fault (.unexpected arg))

end Given

/-- An argument by its form. -/
inductive Shape where
  /-- Everything behind this argument is an operand. -/
  | endOfOptions
  /-- Two hyphens, a name and perhaps a value behind an equals sign. -/
  | long (name : String) (value : Option String)
  /-- One hyphen and letters. -/
  | letters (letters : List Char)
  /-- No option. -/
  | plain
deriving DecidableEq, Repr

namespace Shape

/-- The form of an argument by what it has behind two hyphens. -/
def ofLong (s : List Char) : Shape :=
  let name := String.ofList (s.takeWhile (· != '='))
  match s.dropWhile (· != '=') with
  | [] => .long name none
  | _ :: value => .long name (some (String.ofList value))

/-- The form of an argument by its characters. A lone hyphen is no option. -/
def ofChars : List Char → Shape
  | ['-', '-'] => .endOfOptions
  | '-' :: '-' :: s => ofLong s
  | '-' :: c :: s => .letters (c :: s)
  | _ => .plain

/-- The form of an argument. -/
def ofArgument (arg : String) : Shape := ofChars arg.toList

end Shape

/-- Takes arguments behind the end of the options. -/
def readOperands (side : Side) (g : Given) (args : List String) : Except Halt Given :=
  args.foldlM (Given.withOperand side) g

/-- What is given on a side that an argument ends as the name of a task. -/
def endInTask (g : Given) (arg : String) (args : List String) :
    Except Halt (Given × Option (TaskName × List String)) :=
  match TaskName.named? arg with
  | some task => .ok (g, some (task, args))
  | none => if arg = "help" then .error .help else .error (.fault (.unexpected arg))

/-- What is given on one side, with the name of the task that ends it and the arguments behind. -/
def readSide (side : Side) (g : Given) :
    List String → Except Halt (Given × Option (TaskName × List String))
  | [] => .ok (g, none)
  | arg :: args =>
    match Shape.ofArgument arg with
    | .endOfOptions => do return (← readOperands side g args, none)
    | .long name value => do readSide side (← g.withLong side arg name value) args
    | .letters letters => do readSide side (← g.withLetters side arg letters) args
    | .plain =>
      if g.pending = .config none then
        readSide side { g with pending := .config (some arg) } args
      else if side.endsInTask then endInTask g arg args
      else do readSide side (← g.withOperand side arg) args

/-- The task with a name, as what is given behind the name makes it. -/
def taskOf (g : Given) : TaskName → Except ArgumentFault Task
  | .run =>
    match g.operand with
    | some (.file path) => .ok (.run path (.traceJson ∈ g.flags) (.stats ∈ g.flags))
    | _ => .error .missingOperand
  | .evaluate =>
    match g.operand with
    | some (.pattern p) => .ok (.evaluate p)
    | _ => .error .missingOperand
  | .table => .ok .table
  | .sweep => .ok (.sweep (.json ∈ g.flags))
  | .info => .ok .info

/-- The invocation that arguments make, if reading does not halt before. -/
def readInvocation (args : List String) : Except Halt Invocation := do
  let (outer, task) ← readSide outerSide {} args
  match task with
  | none =>
    let _ ← outer.settle
    throw (.fault .missingCommand)
  | some (name, args) =>
    let (inner, _) ← readSide name.side {} args
    let inner ← inner.settle
    let task ← (taskOf inner name).mapError Halt.fault
    let outer ← outer.settle
    return {
      verbose := (outer.flags ++ inner.flags).contains .verbose
      config := inner.config <|> outer.config
      task }

/-- The request that arguments make. -/
def readRequest (args : List String) : Except ArgumentFault Request :=
  match readInvocation args with
  | .ok i => .ok (.task i)
  | .error .version => .ok .version
  | .error .help => .ok .help
  | .error (.fault f) => .error f

end LutFixture.CommandLine
