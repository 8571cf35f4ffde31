import LutFixture.Proofs.Commands

/-!
# Whole patterns as the steps of a machine with one register

As long as a bench is used by whole patterns, without single edges and stimuli, the input register
and the latch agree whenever a call is over. So the bench is a machine that holds one pattern: a
load puts a pattern there, an unload shifts the idle bit in, an evaluation does both, a sweep
leaves what its last load or its unload leaves, and a reset leaves zero. Every answer is a function
of that pattern.

Within a call the two registers disagree. They agree again after its last edge, since that edge is
a strobe (`Registers.next_of_strobe`).
-/

namespace LutFixture

/-- A use of a bench by whole patterns. -/
inductive PatternCall where
  | load (p : Pattern)
  | unload
  | evaluate (p : Pattern)
  | sweep
  | reset
deriving DecidableEq, Repr

namespace PatternCall

/-- The call as a command. -/
def command : PatternCall → Command
  | .load p => .load p
  | .unload => .unload
  | .evaluate p => .evaluate p
  | .sweep => .sweep
  | .reset => .reset

theorem command_ne_reset {c : PatternCall} (h : c ≠ .reset) : c.command ≠ .reset := by
  cases c with
  | reset => exact absurd rfl h
  | _ => nofun

end PatternCall

namespace PatternMachine

/-- What the machine holds after a call, where `idle` is the idle bit. -/
def next (f : Block) (idle : Bool) (p : Pattern) : PatternCall → Pattern
  | .load q => q
  | .unload => BitVec.ofNat inputWidth (2 * p.toNat + idle.toNat)
  | .evaluate q => BitVec.ofNat inputWidth (2 * q.toNat + idle.toNat)
  | .sweep =>
    match Mismatch.first? f Pattern.all with
    | some m =>
      BitVec.ofNat inputWidth
        (if m.pattern.toNat < 63 then m.pattern.toNat + 1 else 62 + idle.toNat)
    | none => BitVec.ofNat inputWidth (62 + idle.toNat)
  | .reset => 0

/-- The answer to a call. -/
def answer (f : Block) (p : Pattern) : PatternCall → Except Fault Answer
  | .load _ => .ok (.bit (f p))
  | .unload => .ok (.bit (f p))
  | .evaluate q => .ok (.bit (f q))
  | .sweep =>
    match Mismatch.first? f Pattern.all with
    | some m => .error (.mismatch m)
    | none => .ok (.report (.ofBlock f))
  | .reset => .ok .done

/-- The pattern whose response a call reads last, if it reads any. -/
def lastRead (f : Block) (p : Pattern) : PatternCall → Option Pattern
  | .load _ => some p
  | .unload => some p
  | .evaluate q => some q
  | .sweep => some (((Mismatch.first? f Pattern.all).map Mismatch.pattern).getD 63)
  | .reset => none

/-- What the machine holds after some calls from power-on. -/
def run (f : Block) (idle : Bool) (calls : List PatternCall) : Pattern :=
  calls.foldl (next f idle) 0

theorem run_append_singleton (f : Block) (idle : Bool) (calls : List PatternCall)
    (c : PatternCall) : run f idle (calls ++ [c]) = next f idle (run f idle calls) c := by
  rw [run, List.foldl_append]
  rfl

end PatternMachine

namespace Registers

theorem shiftConcat_eq_ofNat (p : Pattern) (i : Bool) :
    p.shiftConcat i = BitVec.ofNat inputWidth (2 * p.toNat + i.toNat) := by
  apply BitVec.eq_of_toNat_eq
  rw [BitVec.toNat_shiftConcat, BitVec.toNat_ofNat, Nat.shiftLeft_eq, pow_one, Nat.mul_comm]

/-- Of a row of loads only the last two show in the registers. -/
theorem run_flatMap_load (f : Block) (r : Registers) (ps : List Pattern) (p q : Pattern) :
    r.run f ((ps ++ [p, q]).flatMap Stimulus.load) = settled (f p) q := by
  rw [List.flatMap_append, run_append, List.flatMap_cons, List.flatMap_cons, List.flatMap_nil,
    List.append_nil, run_append, run_load, run_load]
  rfl

end Registers

theorem Pattern.take_all_add_two {i : ℕ} (h : i < 63) :
    all.take (i + 2) =
      all.take i ++ [BitVec.ofNat inputWidth i, BitVec.ofNat inputWidth (i + 1)] := by
  have hlength : all.length = 64 := length_all
  rw [List.take_add_one, List.take_add_one, List.getElem?_eq_getElem (by omega),
    List.getElem?_eq_getElem (by omega), getElem_all, getElem_all, List.append_assoc]
  rfl

namespace Bench

variable (b : Bench) (s : Session)

theorem run_chainEdges_all (r : Registers) :
    r.run b.block (b.chainEdges Pattern.all) =
      .settled (b.block 63)
        (BitVec.ofNat inputWidth (62 + b.config.driver.idleSerialIn.toNat)) := by
  have hall : Pattern.all = Pattern.all.take 62 ++ [62, 63] := by decide
  have hlast : (BitVec.shiftConcat (63 : Pattern) b.config.driver.idleSerialIn) =
      BitVec.ofNat inputWidth (62 + b.config.driver.idleSerialIn.toNat) := by
    cases b.config.driver.idleSerialIn <;> rfl
  rw [chainEdges, hall, Registers.run_append, Registers.run_flatMap_load, unloadEdges,
    Registers.run_cons, Registers.run_nil, Registers.next_of_strobe _ _ rfl, ← hlast]
  rfl

/-- What a sweep leaves: its last load if it ended before the unload, and else its unload. -/
theorem registers_sweep (p : Pattern) :
    (b.sweep s).session.registers =
      .settled (b.block (((Mismatch.first? b.block Pattern.all).map Mismatch.pattern).getD 63))
        (PatternMachine.next b.block b.config.driver.idleSerialIn p .sweep) := by
  rw [(b.sweep_applies s).registers, PatternMachine.next]
  cases h : Mismatch.first? b.block Pattern.all with
  | none =>
      have hindex := Mismatch.index_eq_of_first?_all_none h
      rw [b.sweepEdges_all_of_not_lt (by omega), run_chainEdges_all]
      rfl
  | some m =>
      have hindex := Mismatch.index_eq_of_first?_all h
      by_cases hlt : m.pattern.toNat < 63
      · have hpattern : BitVec.ofNat inputWidth m.pattern.toNat = m.pattern := by
          rw [BitVec.ofNat_toNat, BitVec.setWidth_eq]
        rw [b.sweepEdges_all_of_lt (by omega), hindex, Pattern.take_all_add_two hlt,
          Registers.run_flatMap_load, hpattern]
        simp only [if_pos hlt]
        rfl
      · have hpattern : m.pattern = 63 := by
          apply BitVec.eq_of_toNat_eq
          have hbound := m.pattern.isLt
          change m.pattern.toNat = 63
          change m.pattern.toNat < 64 at hbound
          omega
        rw [b.sweepEdges_all_of_not_lt (by omega), run_chainEdges_all]
        simp only [if_neg hlt]
        rw [Option.map_some, Option.getD_some, hpattern]

/-- One call on a settled session is one step of the machine. -/
theorem execute_of_settled {out : Bool} {p : Pattern} (h : s.registers = .settled out p)
    (c : PatternCall) :
    (b.execute s c.command).result = PatternMachine.answer b.block p c ∧
    (b.execute s c.command).session.registers =
      .settled (((PatternMachine.lastRead b.block p c).map b.block).getD false)
        (PatternMachine.next b.block b.config.driver.idleSerialIn p c) := by
  have hlatched : s.registers.latched = p := by
    rw [h]
    rfl
  cases c with
  | load q =>
      rw [PatternCall.command, execute, Step.result_map, Step.session_map, result_load_eq,
        registers_load_eq, hlatched]
      exact ⟨rfl, rfl⟩
  | unload =>
      rw [PatternCall.command, execute, Step.result_map, Step.session_map, result_unload_eq,
        registers_unload_eq, hlatched, h, PatternMachine.next, ← Registers.shiftConcat_eq_ofNat]
      exact ⟨rfl, rfl⟩
  | evaluate q =>
      rw [PatternCall.command, execute, Step.result_map, Step.session_map, result_evaluate_eq,
        registers_evaluate_eq, PatternMachine.next, ← Registers.shiftConcat_eq_ofNat]
      exact ⟨rfl, rfl⟩
  | sweep =>
      rw [PatternCall.command, execute, Step.result_map, Step.session_map, result_sweep,
        b.registers_sweep s p, PatternMachine.answer]
      refine ⟨?_, rfl⟩
      cases Mismatch.first? b.block Pattern.all <;> rfl
  | reset => exact ⟨rfl, rfl⟩

/-- After any calls the session is settled at what the machine holds. -/
theorem exists_settled_session (calls : List PatternCall) :
    ∃ out, (b.session (calls.map PatternCall.command)).registers =
      .settled out (PatternMachine.run b.block b.config.driver.idleSerialIn calls) := by
  -- A session grows at its end, so the induction takes the last call off.
  induction calls using List.reverseRecOn with
  | nil => exact ⟨false, rfl⟩
  | append_singleton calls c ih =>
      obtain ⟨out, hout⟩ := ih
      have hstep := (b.execute_of_settled _ hout c).2
      rw [List.map_append, List.map_singleton, session, sessionAfter_append, sessionAfter_cons,
        sessionAfter_nil, PatternMachine.run_append_singleton]
      exact ⟨_, hstep⟩

theorem edgesOf_command_ne_nil {c : PatternCall} (h : c ≠ .reset) :
    b.edgesOf c.command ≠ [] := by
  apply List.ne_nil_of_length_pos
  cases c with
  | load p =>
      rw [PatternCall.command, edgesOf, Stimulus.length_load]
      decide
  | unload => exact Nat.one_pos
  | evaluate p =>
      rw [PatternCall.command, edgesOf, length_evaluationEdges]
      decide
  | sweep =>
      rw [PatternCall.command, edgesOf, length_sweepEdges_all]
      split <;> omega
  | reset => exact absurd rfl h

/-- A session of calls from power-on is a run of the machine. Whatever calls have been made, both
registers hold what the machine holds; whatever call is made next, it is answered as by the
machine, moves the registers as the machine moves, and leaves on the serial output the last bit
that it sampled, the response to the pattern read last. -/
theorem session_refines_patternMachine (calls : List PatternCall) (c : PatternCall) :
    let f := b.block
    let idle := b.config.driver.idleSerialIn
    let p := PatternMachine.run f idle calls
    let s := b.session (calls.map PatternCall.command)
    let x := b.execute s c.command
    (s.registers.input.bits = p ∧ s.registers.latched = p) ∧
    x.result = PatternMachine.answer f p c ∧
    (x.session.registers.input.bits = PatternMachine.next f idle p c ∧
      x.session.registers.latched = PatternMachine.next f idle p c) ∧
    ((Event.samples x.events).map Sample.out).getLast? =
      (PatternMachine.lastRead f p c).map f ∧
    x.session.registers.serialOut = ((PatternMachine.lastRead f p c).map f).getD false := by
  intro f idle p s x
  obtain ⟨out, hout⟩ := b.exists_settled_session calls
  obtain ⟨hresult, hregisters⟩ := b.execute_of_settled s hout c
  have hserial : x.session.registers.serialOut =
      ((PatternMachine.lastRead f p c).map f).getD false := by
    rw [hregisters, Registers.serialOut_settled]
  refine ⟨?_, hresult, ?_, ?_, hserial⟩
  · rw [hout]
    exact ⟨rfl, rfl⟩
  · rw [hregisters]
    exact ⟨rfl, rfl⟩
  · by_cases hc : c = .reset
    · subst hc
      rfl
    · have happlies := b.execute_applies s (PatternCall.command_ne_reset hc)
      rw [happlies.getLast?_out (b.edgesOf_command_ne_nil hc), hserial]
      cases c with
      | reset => exact absurd rfl hc
      | _ => rfl

end Bench

end LutFixture
