import LutFixture.Proofs.Commands

/-!
# The edges since the last reset

How edges were grouped into commands does not show in a session. `Bench.history` is the list of all
edges since power-on or the last reset, and a drive of these edges from power-on leaves the same
registers, counters and trace as the commands did. So a property of sessions that holds at power-on
and survives one more edge holds of every session (`Bench.session_induction`), and what a session
has come to is read off its history.
-/

namespace LutFixture

@[simp] theorem Registers.serialOut_reset : reset.serialOut = false := rfl

namespace Bench

variable (b : Bench) (s : Session) {alwaysTrace : Bool}

@[simp] theorem registers_powerOn : (b.powerOn alwaysTrace).registers = .reset := rfl

/-- The edges since the last reset, after one more command. -/
def extend (b : Bench) (edges : Stimulus) (c : Command) : Stimulus :=
  if c = .reset then [] else edges ++ b.edgesOf c

/-- The edges that a sequence of commands applies from its last reset on. -/
def history (b : Bench) (commands : List Command) : Stimulus := commands.foldl b.extend []

theorem history_append_singleton (commands : List Command) (c : Command) :
    b.history (commands ++ [c]) =
      if c = .reset then [] else b.history commands ++ b.edgesOf c := by
  rw [history, List.foldl_append]
  rfl

theorem session_append_singleton (commands : List Command) (c : Command) :
    b.session (commands ++ [c]) alwaysTrace =
      (b.execute (b.session commands alwaysTrace) c).session := by
  rw [session, sessionAfter_append]
  rfl

theorem session_drive (edges : Stimulus) :
    (b.drive edges s).session = s.recordAll (b.samplesOf edges s) :=
  (b.drive_applies s edges).session_eq

theorem session_drive_append (x y : Stimulus) :
    (b.drive (x ++ y) s).session = (b.drive y (b.drive x s).session).session := by
  rw [session_drive, session_drive, session_drive, samplesOf_append, Session.recordAll_append]

theorem session_drive_append_singleton (edges : Stimulus) (e : Edge) :
    (b.drive (edges ++ [e]) s).session =
      (b.drive edges s).session.record (b.sample e (b.drive edges s).session) := by
  rw [session_drive_append, drive_cons]
  rfl

/-- Commands leave the session that their edges since the last reset make of power-on. -/
theorem session_eq_drive (commands : List Command) :
    b.session commands alwaysTrace =
      (b.drive (b.history commands) (b.powerOn alwaysTrace)).session := by
  -- A history grows at its end, so the induction takes the last command off.
  induction commands using List.reverseRecOn with
  | nil => rfl
  | append_singleton commands c ih =>
      rw [session_append_singleton, history_append_singleton]
      by_cases hc : c = .reset
      · -- The drive so far began at power-on, and clearing sees no more of it than its beginning.
        rw [if_pos hc, hc, session_execute_reset, ih, session_drive, Session.cleared_recordAll,
          cleared_powerOn]
        rfl
      · rw [if_neg hc, session_drive_append, ← ih, (b.execute_applies _ hc).session_eq,
          session_drive]

/-- The samples since the last reset are all that a session has recorded. -/
theorem session_eq_recordAll (commands : List Command) :
    b.session commands alwaysTrace =
      (b.powerOn alwaysTrace).recordAll
        (b.samplesOf (b.history commands) (b.powerOn alwaysTrace)) := by
  rw [session_eq_drive, session_drive]

/-- What holds at power-on and survives every edge holds of every session. -/
theorem session_induction {motive : Session → Prop} (powerOn : motive (b.powerOn alwaysTrace))
    (record : ∀ s e, motive s → motive (s.record (b.sample e s))) (commands : List Command) :
    motive (b.session commands alwaysTrace) := by
  rw [session_eq_drive]
  induction b.history commands using List.reverseRecOn with
  | nil => exact powerOn
  | append_singleton edges e ih =>
      rw [session_drive_append_singleton]
      exact record _ e ih

theorem registers_session (commands : List Command) :
    (b.session commands alwaysTrace).registers =
      Registers.reset.run b.block (b.history commands) := by
  rw [session_eq_drive, registers_drive, registers_powerOn]

/-- Samples are taken from the registers and the number of edges; a trace is not looked at. -/
theorem samplesOf_congr {s s' : Session} (hregisters : s.registers = s'.registers)
    (hcounters : s.counters = s'.counters) (edges : Stimulus) :
    b.samplesOf edges s = b.samplesOf edges s' := by
  induction edges generalizing s s' with
  | nil => rfl
  | cons e es ih =>
      have hsample : b.sample e s = b.sample e s' := by
        rw [sample, sample, hregisters, hcounters]
      rw [samplesOf, samplesOf, hsample]
      apply congrArg
      apply ih
      · rfl
      · rw [Session.counters_record, Session.counters_record, hcounters]

theorem samplesOf_powerOn (edges : Stimulus) :
    b.samplesOf edges (b.powerOn alwaysTrace) = b.samplesOf edges b.powerOn := by
  apply samplesOf_congr
  · rfl
  · rfl

/-- A program that always keeps a trace counts like any other. -/
theorem counters_session_alwaysTrace (commands : List Command) :
    (b.session commands alwaysTrace).counters = (b.session commands).counters := by
  rw [session_eq_recordAll, session_eq_recordAll, Session.counters_recordAll,
    Session.counters_recordAll, samplesOf_powerOn]
  rfl

/-- A command but a reset adds to the history the edges that it applies, and to the bits on the
serial output those that it samples. -/
theorem history_append_singleton_eq_samples (commands : List Command) (c : Command) :
    let xs := Event.samples (b.execute (b.session commands) c).events
    let edges := b.history (commands ++ [c])
    edges = (if c = .reset then [] else b.history commands ++ xs.map Sample.edge) ∧
    Registers.reset.outputs b.block edges =
      (if c = .reset then []
        else Registers.reset.outputs b.block (b.history commands) ++ xs.map Sample.out) := by
  intro xs edges
  have hedges : edges = if c = .reset then [] else b.history commands ++ b.edgesOf c :=
    b.history_append_singleton commands c
  have hxs : xs = b.samplesOf (b.edgesOf c) (b.session commands) := b.samples_execute _ c
  constructor
  · rw [hedges, hxs, map_edge_samplesOf]
  · rw [hedges, hxs, map_out_samplesOf, registers_session]
    by_cases hc : c = .reset
    · rw [if_pos hc, if_pos hc]
      rfl
    · rw [if_neg hc, if_neg hc, Registers.outputs_append]

end Bench

end LutFixture
