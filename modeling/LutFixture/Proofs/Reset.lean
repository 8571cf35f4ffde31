import LutFixture.Proofs.EdgeHistory

/-!
# A reset is a full power-on

A reset clears a session in place: it knows neither the configuration nor what a fresh session would
look like, and a trace that it finds it empties and keeps. Still nothing survives it. No edge makes
or drops a trace, so what is left of a session after clearing is what was left at power-on
(`Bench.cleared_session`), and all commands behind the reset run as on a bench just switched on.
-/

namespace LutFixture

namespace Bench

variable (b : Bench) (s : Session)

theorem result_perform_append (xs ys : List Command) :
    (b.perform (xs ++ ys) s).result =
      (b.perform xs s).result ++ (b.perform ys (b.sessionAfter s xs)).result := by
  induction xs generalizing s with
  | nil => rfl
  | cons c xs ih =>
      rw [List.cons_append, result_perform_cons, result_perform_cons, ih, List.cons_append,
        sessionAfter_cons]

theorem length_result_perform (commands : List Command) :
    (b.perform commands s).result.length = commands.length := by
  induction commands generalizing s with
  | nil => rfl
  | cons c cs ih => rw [result_perform_cons, List.length_cons, ih, List.length_cons]

/-- Whatever a session has been through, clearing it leads back to power-on. -/
theorem cleared_session (commands : List Command) :
    (b.session commands).cleared = b.powerOn := by
  apply b.session_induction (motive := fun s => s.cleared = b.powerOn)
  · exact b.cleared_powerOn
  · intro s e h
    rw [Session.cleared_record, h]

theorem session_append_reset (before after : List Command) :
    b.session (before ++ .reset :: after) = b.session after := by
  have hreset : (b.execute (b.session before) .reset).session = b.powerOn := by
    rw [session_execute_reset, cleared_session]
  calc
    b.session (before ++ .reset :: after) =
        b.sessionAfter (b.execute (b.session before) .reset).session after := by
      rw [session, sessionAfter_append, sessionAfter_cons, session]
    _ = b.session after := by rw [hreset, session]

/-- Commands behind a reset answer as they do behind power-on. Each of them is the same step there:
it answers the same, leaves the same registers, counters and trace, and the same happens in between.
-/
theorem reset_restores_powerOn (before after : List Command) :
    let x := b.perform (before ++ .reset :: after) b.powerOn
    let y := b.perform after b.powerOn
    x.result.drop (before.length + 1) = y.result ∧ x.session = y.session ∧
    ∀ i (h : i < after.length),
      b.execute (b.session (before ++ .reset :: after.take i)) after[i] =
        b.execute (b.session (after.take i)) after[i] := by
  intro x y
  have hsplit : before ++ .reset :: after = (before ++ [.reset]) ++ after := by
    rw [List.append_assoc, List.singleton_append]
  have hlength : (b.perform (before ++ [.reset]) b.powerOn).result.length = before.length + 1 := by
    rw [length_result_perform, List.length_append, List.length_singleton]
  refine ⟨?_, ?_, ?_⟩
  · have hpowerOn : b.sessionAfter b.powerOn (before ++ [.reset]) = b.powerOn :=
      b.session_append_reset before []
    calc
      x.result.drop (before.length + 1) =
          ((b.perform (before ++ [.reset]) b.powerOn).result ++
            (b.perform after (b.sessionAfter b.powerOn (before ++ [.reset]))).result).drop
              (before.length + 1) := by
        rw [← result_perform_append, ← hsplit]
      _ = y.result := by
        rw [hpowerOn, List.drop_left' hlength]
  · calc
      x.session = b.session (before ++ .reset :: after) := b.session_perform b.powerOn _
      _ = b.session after := b.session_append_reset before after
      _ = y.session := (b.session_perform b.powerOn after).symm
  · intro i h
    rw [session_append_reset]

end Bench

end LutFixture
