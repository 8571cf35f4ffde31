import LutFixture.Proofs.Sweep

/-!
# The edges of a command

Every command but a reset comes down to a list of edges that the bench and the command alone
determine (`Bench.edgesOf`); what the session was before has no say in it. A refused stimulus
applies none, and a sweep those up to its first mismatch.
-/

namespace LutFixture

namespace Bench

variable (b : Bench) (s : Session)

/-- The edges by which a command is carried out. -/
def edgesOf (b : Bench) : Command → Stimulus
  | .tick e => [e]
  | .run edges => if b.config.general.maxTicks.toNat < edges.length then [] else edges
  | .load p => Stimulus.load p
  | .unload => b.unloadEdges
  | .evaluate p => b.evaluationEdges p
  | .sweep => b.sweepEdges Pattern.all
  | .reset => []

theorem run_applies (edges : Stimulus) :
    (b.run edges s).Applies b (b.edgesOf (.run edges)) s := by
  rw [run, edgesOf]
  by_cases h : b.config.general.maxTicks.toNat < edges.length
  · rw [if_pos h, if_pos h]
    exact .nil rfl
  · rw [if_neg h, if_neg h]
    obtain ⟨hsamples, hsession⟩ := b.drive_applies s edges
    exact ⟨hsamples, hsession⟩

variable {b} in
/-- A stimulus over the limit is refused before anything happens. -/
theorem runOrRefuse_of_lt {edges : Stimulus}
    (h : b.config.general.maxTicks.toNat < edges.length) :
    b.runOrRefuse edges s =
      ⟨.error (.tickLimitExceeded b.config.general.maxTicks.toNat), [], s⟩ := by
  rw [runOrRefuse, run, if_pos h]
  rfl

variable {b} in
theorem result_runOrRefuse_of_not_lt {edges : Stimulus}
    (h : ¬ b.config.general.maxTicks.toNat < edges.length) :
    (b.runOrRefuse edges s).result = .ok (s.registers.outputs b.block edges) := by
  rw [runOrRefuse, Step.result_map, run, if_neg h, ← result_drive]

theorem execute_applies {c : Command} (h : c ≠ .reset) :
    (b.execute s c).Applies b (b.edgesOf c) s := by
  cases c with
  | tick e =>
      rw [execute, edgesOf]
      exact (b.tick_applies s e).map _
  | run edges =>
      rw [execute, runOrRefuse]
      exact ((b.run_applies s edges).map _).map _
  | load p => exact b.execute_load_applies s p
  | unload => exact b.execute_unload_applies s
  | evaluate p => exact b.execute_evaluate_applies s p
  | sweep =>
      rw [execute, edgesOf]
      exact (b.sweep_applies s).map _
  | reset => exact absurd rfl h

theorem samples_execute (c : Command) :
    Event.samples (b.execute s c).events = b.samplesOf (b.edgesOf c) s := by
  by_cases hc : c = .reset
  · rw [hc]
    rfl
  · exact (b.execute_applies s hc).samples_eq

end Bench

end LutFixture
