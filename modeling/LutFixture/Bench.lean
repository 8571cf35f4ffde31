import LutFixture.Configuration
import LutFixture.Step
import LutFixture.Stimulus

/-!
# Benches

A bench is a block on the fixture together with a configuration; neither ever changes. Its
operations take a session and answer with a step. A session begins at power-on, and a reset clears
it in place. Single edges make up everything else: a stimulus is driven edge by edge, either as it
is (`Bench.drive`) or under the limit of the configuration (`Bench.run`), which refuses a stimulus
that is too long as a whole.
-/

namespace LutFixture

/-- A block on the fixture, and how it is to be used. -/
structure Bench where
  /-- The block between the latch and the output register. -/
  block : Block
  config : Configuration := {}

namespace Bench

/-- The bench with the region under test. -/
def reference (config : Configuration) : Bench := ⟨TruthTable.reference.lookup, config⟩

/-- The session at power-on. A trace is kept if the configuration asks for one, and also if the
program has been built so as to keep one always. -/
def powerOn (b : Bench) (alwaysTrace : Bool := false) : Session :=
  { trace := if b.config.general.traceTicks || alwaysTrace then some #[] else none }

/-- Clears the session in place: the registers, the counters and the trace, if there is one. -/
def reset (_ : Bench) (s : Session) : Step Unit := ⟨(), [], s.cleared⟩

/-- The sample of the next edge of a session. -/
def sample (b : Bench) (e : Edge) (s : Session) : Sample :=
  .take b.block s.counters.ticks s.registers e

/-- One edge; the answer is the bit on the serial output after it. -/
def tick (b : Bench) (e : Edge) (s : Session) : Step Bool :=
  let x := b.sample e s
  ⟨x.out, [.edge x s.trace.isSome], s.record x⟩

/-- Edge after edge, behind what has been done before; that is given, and kept, in reverse. -/
def driveOnto (b : Bench) (bits : List Bool) (events : List Event) :
    Stimulus → Session → Step (List Bool)
  | [], s => ⟨bits.reverse, events.reverse, s⟩
  | e :: es, s =>
    let x := b.tick e s
    b.driveOnto (x.result :: bits) (x.events.reverse ++ events) es x.session

/-- Edge after edge, without a limit; the answer has one bit for each. -/
def drive (b : Bench) (edges : Stimulus) (s : Session) : Step (List Bool) :=
  b.driveOnto [] [] edges s

/-- A stimulus is driven as a whole, unless it has more edges than the configuration allows; then
nothing happens. -/
def run (b : Bench) (edges : Stimulus) (s : Session) : Step (Option (List Bool)) :=
  if b.config.general.maxTicks.toNat < edges.length then ⟨none, [], s⟩
  else
    let driven := b.drive edges s
    ⟨some driven.result, .accepted edges.length :: driven.events, driven.session⟩

@[simp] theorem cleared_powerOn (b : Bench) {alwaysTrace : Bool} :
    (b.powerOn alwaysTrace).cleared = b.powerOn alwaysTrace := by
  unfold powerOn Session.cleared
  split <;> rfl

@[simp] theorem session_tick (b : Bench) (e : Edge) (s : Session) :
    (b.tick e s).session = s.record (b.sample e s) := rfl

theorem registers_tick (b : Bench) (e : Edge) (s : Session) :
    (b.tick e s).session.registers = s.registers.next b.block e := rfl

@[simp] theorem drive_nil (b : Bench) (s : Session) : b.drive [] s = ⟨[], [], s⟩ := rfl

theorem driveOnto_eq (b : Bench) (bits : List Bool) (events : List Event) (edges : Stimulus)
    (s : Session) :
    b.driveOnto bits events edges s
      = ⟨bits.reverse ++ (b.drive edges s).result, events.reverse ++ (b.drive edges s).events,
          (b.drive edges s).session⟩ := by
  unfold drive
  induction edges generalizing bits events s with
  | nil => simp [driveOnto]
  | cons e es ih => simp only [driveOnto]; rw [ih, ih [_]]; simp

theorem drive_cons (b : Bench) (e : Edge) (es : Stimulus) (s : Session) :
    b.drive (e :: es) s
      = (b.tick e s).bind fun bit s => (b.drive es s).map (bit :: ·) := by
  conv => lhs; unfold drive
  rw [driveOnto, driveOnto_eq]
  simp [Step.bind, Step.map]

theorem registers_drive (b : Bench) (edges : Stimulus) (s : Session) :
    (b.drive edges s).session.registers = s.registers.run b.block edges := by
  induction edges generalizing s with
  | nil => rfl
  | cons e es ih => simp [drive_cons, ih, Sample.take, sample]

theorem result_drive (b : Bench) (edges : Stimulus) (s : Session) :
    (b.drive edges s).result = s.registers.outputs b.block edges := by
  induction edges generalizing s with
  | nil => rfl
  | cons e es ih => simp [drive_cons, ih, Registers.outputs, tick, sample, Sample.take, Sample.out]

theorem run_eq_none_iff (b : Bench) (edges : Stimulus) (s : Session) :
    (b.run edges s).result = none ↔ b.config.general.maxTicks.toNat < edges.length := by
  unfold run; split <;> simp_all

end Bench

end LutFixture
