import LutFixture.CommandLine.Arguments
import LutFixture.Bench.Command
import LutFixture.File
import LutFixture.Log
import LutFixture.Placement
import LutFixture.Report

/-!
# Carrying out an invocation

A command line amounts to an exit status, a text for the standard output, log lines, and a
complaint if the arguments were wrong. Files are looked up by name in a function, and the standard
output is a function of the wall clock, so the whole is a function of its inputs.

The exit status is 2 if the arguments are wrong or the configuration cannot be read, 1 if the task
fails, and else 0. What a task prints before it fails would stay printed; no task prints anything
before it is sure to go through.
-/

namespace LutFixture.CommandLine

/-- What a command line amounts to. -/
structure Outcome where
  /-- The exit status. -/
  exit : Nat
  /-- The text on the standard output. -/
  stdout : WallClock → String := fun _ => ""
  /-- The lines of the log. -/
  log : List LogLine := []
  /-- What is wrong with the arguments. -/
  complaint : Option ArgumentFault := none

/-- What a task prints, why it failed, if it did, and what happened meanwhile. -/
structure Performance where
  /-- The text on the standard output. -/
  stdout : WallClock → String := fun _ => ""
  /-- What went wrong. -/
  fault : Option Fault := none
  /-- What happened, in order. -/
  events : List Event := []

/-- The name and version of the program. -/
def versionText : String := "roi-harness 0.3.0\n"

/-- A summary of the command line. -/
def helpText : String :=
  "Usage: roi-harness [-v] [-c FILE] COMMAND\n\n"
    ++ "Commands:\n"
    ++ "  run FILE [--trace-json] [--stats]\n"
    ++ "  eval VECTOR\n"
    ++ "  table\n"
    ++ "  sweep [--json]\n"
    ++ "  info\n"

/-- The log line in which the program itself tells of a fault. -/
def errorLine (message : String) : LogLine where
  level := .error
  target := "roi_harness"
  message

/-- A bit in a text. -/
def bitText (b : Bool) : String := Bits.text [b]

/-- A number in at least two places. -/
def twoPlaces (n : Nat) : String := if n < 10 then " " ++ toString n else toString n

/-- Runs the stimulus in a file and prints its output, or its trace. -/
def performRun (config : Configuration) (files : String → File) (path : String)
    (traceJson stats : Bool) : Performance :=
  match (files path).stimulus path with
  | .error f => { fault := some f }
  | .ok edges =>
    let bench := Bench.reference (config.tracing traceJson)
    let x := bench.runOrRefuse edges bench.powerOn
    match x.result with
    | .error f => { fault := some f, events := x.events }
    | .ok bits =>
      let shown : String :=
        if traceJson then
          String.join ((x.session.trace.getD #[]).toList.map fun r => r.json.compact ++ "\n")
        else Bits.text bits ++ "\n"
      let report (clock : WallClock) : String :=
        if stats then x.session.counters.report clock config.statistics.sections else ""
      { stdout := fun clock => shown ++ report clock, events := x.events }

/-- Prints the response to a pattern, asked for directly and over the serial lines. -/
def performEvaluate (config : Configuration) (p : Pattern) : Performance :=
  let bench := Bench.reference config
  let x := bench.evaluate p bench.powerOn
  let text :=
    "vector   " ++ p.text ++ " (" ++ toString p.toNat ++ ")\n"
      ++ "direct   " ++ bitText (bench.block p) ++ "\n"
      ++ "serial   " ++ bitText x.result ++ " (" ++ toString x.session.counters.ticks ++ " ticks)\n"
  { stdout := fun _ => text, events := x.events }

/-- The reference table, a line for each pattern. -/
def tableText : String :=
  let t := TruthTable.reference
  "INIT = " ++ t.init.hexText ++ "\n"
    ++ String.join (t.rows.map fun row =>
      row.1.text ++ " " ++ twoPlaces row.1.toNat ++ " -> " ++ bitText row.2 ++ "\n")

/-- Checks all patterns and prints what came out. -/
def performSweep (config : Configuration) (json : Bool) : Performance :=
  let bench := Bench.reference config
  let x := bench.sweep bench.powerOn
  match x.result with
  | .error m => { fault := some (.mismatch m), events := x.events }
  | .ok r =>
    let text : String :=
      if json then r.json.pretty ++ "\n"
      else
        "sweep ok: " ++ toString r.responses.length ++ " vectors, " ++ toString r.ones ++ " ones, "
          ++ toString r.ticks ++ " ticks, INIT = " ++ r.initWord.hexText ++ "\n"
    { stdout := fun _ => text, events := x.events }

/-- The placement and the word of the reference table. -/
def infoText : String :=
  let p := Placement.reference
  let info : Json.Value := .object [
    ("placement", p.json),
    ("attribute", .string p.text),
    ("init", .string TruthTable.reference.init.hexText)]
  info.pretty ++ "\n"

/-- Carries out a task. -/
def perform (config : Configuration) (files : String → File) : Task → Performance
  | .run path traceJson stats => performRun config files path traceJson stats
  | .evaluate p => performEvaluate config p
  | .table => { stdout := fun _ => tableText }
  | .sweep json => performSweep config json
  | .info => { stdout := fun _ => infoText }

/-- The configuration that an invocation names, or the one that holds without any. -/
def configurationOf (i : Invocation) (files : String → File) : Except Fault Configuration :=
  match i.config with
  | none => .ok {}
  | some path => (files path).configuration

/-- Carries out an invocation: first the configuration is read, then the task is done. The log has
all its lines, however urgent. -/
def execute (files : String → File) (i : Invocation) : Outcome :=
  match configurationOf i files with
  | .error f =>
    { exit := 2
      log := [errorLine ("failed to load configuration: " ++ f.message)] }
  | .ok config =>
    let x := perform config files i.task
    let log := x.events.flatMap Event.logLines
    match x.fault with
    | some f =>
      { exit := 1, stdout := x.stdout, log := log ++ [errorLine f.message] }
    | none => { exit := 0, stdout := x.stdout, log }

/-- The threshold of the log: the one that the environment names, and else as the invocation says.
A name that is none lets nothing through. -/
def threshold (named : Option String) (verbose : Bool) : LogThreshold :=
  match named with
  | some name => (LogThreshold.named? name).getD none
  | none => some (if verbose then .debug else .warn)

/-- What a command line amounts to, where the environment may name a threshold for the log. -/
def outcome (files : String → File) (logName : Option String) (args : List String) : Outcome :=
  match readRequest args with
  | .error f => { exit := 2, complaint := some f }
  | .ok .version => { exit := 0, stdout := fun _ => versionText }
  | .ok .help => { exit := 0, stdout := fun _ => helpText }
  | .ok (.task i) =>
    let x := execute files i
    { x with log := x.log.filter fun l => (threshold logName i.verbose).takes l.level }

end LutFixture.CommandLine
