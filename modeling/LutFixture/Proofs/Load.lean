import LutFixture.Proofs.Applied
import LutFixture.Proofs.History

/-!
# Loading patterns one behind the other

A strobe leaves the registers settled at a pattern: it stands in the input register, it is latched,
and the serial output carries the response to the pattern latched before (`Registers.settled`).
A load settles them at its pattern from anywhere. So in a chain of loads each strobe hands out the
response to the pattern before, and one strobe more the last response; an evaluation, which is a
load and such a strobe, latches a leftover that the next load overwrites unread. The two protocols
give the same responses, at six and at seven edges a pattern.
-/

namespace LutFixture

namespace Stimulus

theorem strobingLast_cons {bits : List Bool} (c : Bool) (h : bits ≠ []) :
    strobingLast (c :: bits) = Edge.shift c :: strobingLast bits := by
  cases bits with
  | nil => exact absurd rfl h
  | cons d bits => rfl

theorem strobingLast_append_singleton (bits : List Bool) (b : Bool) :
    strobingLast (bits ++ [b]) = bits.map Edge.shift ++ [Edge.latch b] := by
  induction bits with
  | nil => rfl
  | cons c bits ih =>
      rw [List.cons_append, strobingLast_cons c (List.append_ne_nil_of_right_ne_nil _ (by simp)),
        ih, List.map_cons, List.cons_append]

theorem strobe_of_mem_shifts {bits : List Bool} {e : Edge} (h : e ∈ bits.map Edge.shift) :
    e.strobe = false := by
  obtain ⟨c, -, rfl⟩ := List.mem_map.1 h
  rfl

/-- A load shifts all bits of the pattern but the least one and latches with that. -/
theorem exists_load_eq (p : Pattern) :
    ∃ bits b, Bits.msbFirst p = bits ++ [b] ∧
      load p = bits.map Edge.shift ++ [Edge.latch b] := by
  have hne : Bits.msbFirst p ≠ [] := by
    apply List.ne_nil_of_length_pos
    rw [Bits.length_msbFirst]
    exact Nat.succ_pos 5
  refine ⟨(Bits.msbFirst p).dropLast, (Bits.msbFirst p).getLast hne,
    (List.dropLast_concat_getLast hne).symm, ?_⟩
  rw [← strobingLast_append_singleton, List.dropLast_concat_getLast hne, load]

theorem countP_strobe_load (p : Pattern) : (load p).countP (·.strobe) = 1 := by
  obtain ⟨bits, b, -, hload⟩ := exists_load_eq p
  have hshift : (fun e : Edge => e.strobe) ∘ Edge.shift = fun _ => false := rfl
  rw [hload, List.countP_append, List.countP_map, hshift]
  simp [Edge.latch]

end Stimulus

namespace Registers

/-- The registers with a pattern both in the input register and latched, and a bit on the serial
output. -/
def settled (out : Bool) (p : Pattern) : Registers := ⟨⟨p⟩, ⟨BitVec.ofBool out⟩, p⟩

@[simp] theorem serialOut_settled (out : Bool) (p : Pattern) :
    (settled out p).serialOut = out := by
  change (BitVec.ofBool out).msb = out
  cases out <;> rfl

theorem next_of_strobe (f : Block) (r : Registers) {e : Edge} (h : e.strobe = true) :
    r.next f e = settled (f r.latched) (r.input.shift e.serialIn).bits := by
  have hout : (ShiftRegister.ofWord ((BitVec.ofBool (f r.latched)).setWidth 64)
      : ShiftRegister outputWidth) = ⟨BitVec.ofBool (f r.latched)⟩ := by
    cases f r.latched <;> rfl
  rw [next, if_pos h, ShiftRegister.load_eq_ofWord, hout]
  rfl

theorem run_load (f : Block) (r : Registers) (p : Pattern) :
    r.run f (Stimulus.load p) = settled (f r.latched) p := by
  obtain ⟨bits, b, hp, hload⟩ := Stimulus.exists_load_eq p
  have hserial : (bits.map Edge.shift).map Edge.serialIn = bits := by
    rw [List.map_map]
    exact List.map_id bits
  have hinput : ((r.run f (bits.map Edge.shift)).input.shift b).bits = p := by
    rw [input_run, hserial, ← ShiftRegister.shiftAll_nil (ShiftRegister.shift _ b),
      ← ShiftRegister.shiftAll_cons, ← ShiftRegister.shiftAll_append, ← hp,
      ShiftRegister.bits_shiftAll_msbFirst]
  rw [hload, run_append, run_cons, run_nil, next_of_strobe f _ rfl,
    latched_run_of_noStrobe fun _ => Stimulus.strobe_of_mem_shifts]
  exact congrArg _ hinput

theorem askedOver_of_noStrobe (f : Block) (r : Registers) {edges : List Edge}
    (h : ∀ e ∈ edges, e.strobe = false) : r.askedOver f edges = [] := by
  induction edges generalizing r with
  | nil => rfl
  | cons e es ih =>
      rw [askedOver, ih _ fun x hx => h x (List.mem_cons_of_mem e hx), asked,
        h e List.mem_cons_self]
      rfl

theorem askedOver_latch (f : Block) (r : Registers) (i : Bool) :
    r.askedOver f [Edge.latch i] = [r.latched] := rfl

theorem askedOver_load (f : Block) (r : Registers) (p : Pattern) :
    r.askedOver f (Stimulus.load p) = [r.latched] := by
  obtain ⟨bits, b, -, hload⟩ := Stimulus.exists_load_eq p
  rw [hload, askedOver_append,
    askedOver_of_noStrobe f r fun _ => Stimulus.strobe_of_mem_shifts, List.nil_append,
    askedOver_latch, latched_run_of_noStrobe fun _ => Stimulus.strobe_of_mem_shifts]

end Registers

namespace Bench

variable (b : Bench) (s : Session)

/-! ### The three operations -/

/-- The one edge of an unload. -/
def unloadEdges : Stimulus := [Edge.latch b.config.driver.idleSerialIn]

/-- The edges of a load and an unload. -/
def evaluationEdges (p : Pattern) : Stimulus := Stimulus.load p ++ b.unloadEdges

theorem length_evaluationEdges (p : Pattern) : (b.evaluationEdges p).length = 7 := by
  rw [evaluationEdges, List.length_append, Stimulus.length_load]
  rfl

theorem countP_strobe_evaluationEdges (p : Pattern) :
    (b.evaluationEdges p).countP (·.strobe) = 2 := by
  rw [evaluationEdges, List.countP_append, Stimulus.countP_strobe_load]
  rfl

theorem load_applies (p : Pattern) : (b.load p s).Applies b (Stimulus.load p) s := by
  rw [load_eq_drive]
  exact (b.drive_applies s _).map _

theorem registers_load_eq (p : Pattern) :
    (b.load p s).session.registers = .settled (b.block s.registers.latched) p := by
  rw [registers_load, Registers.run_load]

theorem result_load_eq (p : Pattern) : (b.load p s).result = b.block s.registers.latched := by
  rw [result_load, registers_load_eq, Registers.serialOut_settled]

theorem latched_load (p : Pattern) : (b.load p s).session.registers.latched = p := by
  rw [registers_load_eq]
  rfl

theorem unload_applies :
    (b.unload s).Applies b b.unloadEdges s :=
  b.tick_applies s _

theorem registers_unload_eq :
    (b.unload s).session.registers = .settled (b.block s.registers.latched)
      (s.registers.input.shift b.config.driver.idleSerialIn).bits := by
  rw [registers_unload]
  exact Registers.next_of_strobe _ _ rfl

theorem result_unload_eq : (b.unload s).result = b.block s.registers.latched := by
  have hout : (b.unload s).result = (b.unload s).session.registers.serialOut := rfl
  rw [hout, registers_unload_eq, Registers.serialOut_settled]

theorem evaluate_applies (p : Pattern) :
    (b.evaluate p s).Applies b
      (b.evaluationEdges p) s :=
  (b.load_applies s p).bind (b.unload_applies _)

theorem registers_evaluate_eq (p : Pattern) :
    (b.evaluate p s).session.registers =
      .settled (b.block p) (p.shiftConcat b.config.driver.idleSerialIn) := by
  rw [evaluate, Step.session_bind, registers_unload_eq, registers_load_eq]
  rfl

theorem result_evaluate_eq (p : Pattern) : (b.evaluate p s).result = b.block p := by
  rw [evaluate, Step.result_bind, result_unload_eq, registers_load_eq]
  rfl

/-! ### Chains -/

/-- The edges of a chain of loads with an unload behind it. -/
def chainEdges (ps : List Pattern) : Stimulus :=
  ps.flatMap Stimulus.load ++ b.unloadEdges

theorem execute_load_applies (p : Pattern) :
    (b.execute s (.load p)).Applies b (Stimulus.load p) s := by
  unfold execute
  exact (b.load_applies s p).map _

theorem execute_unload_applies :
    (b.execute s .unload).Applies b b.unloadEdges s := by
  unfold execute
  exact (b.unload_applies s).map _

theorem execute_evaluate_applies (p : Pattern) :
    (b.execute s (.evaluate p)).Applies b
      (b.evaluationEdges p) s := by
  unfold execute
  exact (b.evaluate_applies s p).map _

theorem perform_chain_applies (ps : List Pattern) :
    (b.perform (ps.map Command.load ++ [.unload]) s).Applies b (b.chainEdges ps) s := by
  induction ps generalizing s with
  | nil =>
      have hrest : (b.perform [] (b.execute s .unload).session).Applies b []
          (b.execute s .unload).session := .nil rfl
      have hall := b.perform_cons_applies s (b.execute_unload_applies s) hrest
      rwa [List.append_nil] at hall
  | cons p ps ih =>
      rw [chainEdges, List.flatMap_cons, List.append_assoc, List.map_cons, List.cons_append]
      exact b.perform_cons_applies s (b.execute_load_applies s p) (ih _)

/-- A chain answers with the pattern that was there before it, and then with its own. -/
theorem result_perform_chain (ps : List Pattern) :
    (b.perform (ps.map Command.load ++ [.unload]) s).result =
      (s.registers.latched :: ps).map fun p => .ok (.bit (b.block p)) := by
  induction ps generalizing s with
  | nil =>
      rw [List.map_nil, List.nil_append, result_perform_cons, execute, Step.result_map,
        result_unload_eq]
      rfl
  | cons p ps ih =>
      rw [List.map_cons, List.cons_append, result_perform_cons, ih, execute, Step.result_map,
        Step.session_map, result_load_eq, registers_load_eq]
      rfl

theorem perform_evaluations_applies (ps : List Pattern) :
    (b.perform (ps.map Command.evaluate) s).Applies b (ps.flatMap b.evaluationEdges) s := by
  induction ps generalizing s with
  | nil => exact .nil rfl
  | cons p ps ih =>
      rw [List.flatMap_cons, List.map_cons]
      exact b.perform_cons_applies s (b.execute_evaluate_applies s p) (ih _)

theorem result_perform_evaluations (ps : List Pattern) :
    (b.perform (ps.map Command.evaluate) s).result =
      ps.map fun p => .ok (.bit (b.block p)) := by
  induction ps generalizing s with
  | nil => rfl
  | cons p ps ih =>
      rw [List.map_cons, result_perform_cons, ih, execute, Step.result_map,
        result_evaluate_eq, List.map_cons]

theorem length_flatMap_load (ps : List Pattern) :
    (ps.flatMap Stimulus.load).length = 6 * ps.length := by
  induction ps with
  | nil => rfl
  | cons p ps ih =>
      have hload : (Stimulus.load p).length = 6 := Stimulus.length_load p
      rw [List.flatMap_cons, List.length_append, ih, hload, List.length_cons]
      omega

theorem countP_strobe_flatMap_load (ps : List Pattern) :
    (ps.flatMap Stimulus.load).countP (·.strobe) = ps.length := by
  induction ps with
  | nil => rfl
  | cons p ps ih =>
      rw [List.flatMap_cons, List.countP_append, ih, Stimulus.countP_strobe_load,
        List.length_cons, Nat.add_comm]

theorem length_chainEdges (ps : List Pattern) :
    (b.chainEdges ps).length = 6 * ps.length + 1 := by
  rw [chainEdges, List.length_append, length_flatMap_load]
  rfl

theorem countP_strobe_chainEdges (ps : List Pattern) :
    (b.chainEdges ps).countP (·.strobe) = ps.length + 1 := by
  rw [chainEdges, List.countP_append, countP_strobe_flatMap_load]
  rfl

theorem length_flatMap_evaluationEdges (ps : List Pattern) :
    (ps.flatMap b.evaluationEdges).length = 7 * ps.length := by
  induction ps with
  | nil => rfl
  | cons p ps ih =>
      rw [List.flatMap_cons, List.length_append, ih, length_evaluationEdges,
        List.length_cons]
      omega

theorem countP_strobe_flatMap_evaluationEdges (ps : List Pattern) :
    (ps.flatMap b.evaluationEdges).countP (·.strobe) = 2 * ps.length := by
  induction ps with
  | nil => rfl
  | cons p ps ih =>
      rw [List.flatMap_cons, List.countP_append, ih, countP_strobe_evaluationEdges,
        List.length_cons]
      omega

/-- A chain of loads and an unload gives, one answer late, what one evaluation after the other
gives: the responses of the block, whatever the session was before. -/
theorem chain_agrees_with_evaluations (ps : List Pattern) :
    let chain := b.perform (ps.map Command.load ++ [.unload]) s
    let evaluations := b.perform (ps.map Command.evaluate) s
    chain.result = (s.registers.latched :: ps).map (fun p => .ok (.bit (b.block p))) ∧
    chain.Costs (6 * ps.length + 1) (ps.length + 1) s ∧
    evaluations.result = ps.map (fun p => .ok (.bit (b.block p))) ∧
    evaluations.Costs (7 * ps.length) (2 * ps.length) s ∧
    evaluations.result = chain.result.tail ∧
    ∀ (t : Session) (p : Pattern), (b.load p t).session.registers.input.bits = p ∧
      (b.load p t).session.registers.latched = p := by
  intro chain evaluations
  have hchain := (b.perform_chain_applies s ps).costs
  have hevaluations := (b.perform_evaluations_applies s ps).costs
  rw [length_flatMap_evaluationEdges, countP_strobe_flatMap_evaluationEdges] at hevaluations
  rw [length_chainEdges, countP_strobe_chainEdges] at hchain
  refine ⟨b.result_perform_chain s ps, hchain, b.result_perform_evaluations s ps,
    hevaluations, ?_, ?_⟩
  · rw [b.result_perform_chain s ps, b.result_perform_evaluations s ps, List.map_cons,
      List.tail_cons]
  · intro t p
    rw [registers_load_eq]
    exact ⟨rfl, rfl⟩

end Bench

end LutFixture
