import LutFixture.Fault
import LutFixture.Bench.Sweep

/-!
# Commands

A use of a bench is a sequence of commands. `Bench.execute` is one command and `Bench.session` the
session that a sequence of them leaves, starting from power-on; the sessions of this form are the
reachable ones.
-/

namespace LutFixture

/-- What can be asked of a bench. -/
inductive Command where
  | tick (edge : Edge)
  | run (edges : Stimulus)
  | load (p : Pattern)
  | unload
  | evaluate (p : Pattern)
  | sweep
  | reset
deriving DecidableEq, Repr

/-- The answer to a command that was not refused. -/
inductive Answer where
  | done
  | bit (b : Bool)
  /-- The bit on the serial output after each edge. -/
  | bits (bits : List Bool)
  | report (r : SweepReport)
deriving DecidableEq, Repr

namespace Bench

/-- A stimulus, or the fault that it is too long. -/
def runOrRefuse (b : Bench) (edges : Stimulus) (s : Session) : Step (Except Fault (List Bool)) :=
  (b.run edges s).map fun
    | some bits => .ok bits
    | none => .error (.tickLimitExceeded b.config.general.maxTicks.toNat)

/-- One command. -/
def execute (b : Bench) (s : Session) : Command → Step (Except Fault Answer)
  | .tick e => (b.tick e s).map fun bit => .ok (.bit bit)
  | .run edges => (b.runOrRefuse edges s).map fun r => r.map .bits
  | .load p => (b.load p s).map fun bit => .ok (.bit bit)
  | .unload => (b.unload s).map fun bit => .ok (.bit bit)
  | .evaluate p => (b.evaluate p s).map fun bit => .ok (.bit bit)
  | .sweep => (b.sweep s).map fun r => (r.map Answer.report).mapError .mismatch
  | .reset => (b.reset s).map fun _ => .ok .done

/-- The session that a sequence of commands leaves behind a given one. -/
def sessionAfter (b : Bench) (s : Session) (commands : List Command) : Session :=
  commands.foldl (fun s c => (b.execute s c).session) s

/-- The session that a sequence of commands leaves behind power-on. -/
def session (b : Bench) (commands : List Command) (alwaysTrace : Bool := false) : Session :=
  b.sessionAfter (b.powerOn alwaysTrace) commands

@[simp] theorem sessionAfter_nil (b : Bench) (s : Session) : b.sessionAfter s [] = s := rfl

@[simp] theorem sessionAfter_cons (b : Bench) (s : Session) (c : Command) (cs : List Command) :
    b.sessionAfter s (c :: cs) = b.sessionAfter (b.execute s c).session cs := rfl

theorem sessionAfter_append (b : Bench) (s : Session) (c d : List Command) :
    b.sessionAfter s (c ++ d) = b.sessionAfter (b.sessionAfter s c) d := by
  simp [sessionAfter, List.foldl_append]

@[simp] theorem session_execute_reset (b : Bench) (s : Session) :
    (b.execute s .reset).session = s.cleared := rfl

end Bench

end LutFixture
