import LutFixture.Proofs.EdgeHistory
import LutFixture.Proofs.ShiftRegister
import Mathlib.Algebra.Ring.Parity

/-!
# What counters and registers say about each other

The registers at hand bound what can have been counted on the way to them. The serial output is low
at power-on, so it has toggled an odd number of times exactly if it is high now; each toggle up
gives a one and each toggle down an edge without, which bounds the toggles from both sides. No more
ones stand in the input register than have come in, and a latch that never changed is still zero.

`Session.Balanced` collects these facts in the form in which one edge keeps them
(`Session.Balanced.record`): the bounds on the toggles need the level of the output at the time, and
say nothing about the next edge without it.
-/

namespace LutFixture

theorem toNat_bne_add (a c : Bool) :
    (a != c).toNat + 2 * (a && c).toNat = a.toNat + c.toNat := by
  cases a <;> cases c <;> rfl

theorem toNat_add_toNat_le (a c : Bool) : a.toNat + c.toNat ≤ 1 + (a && c).toNat := by
  cases a <;> cases c <;> decide

/-- A shift adds its bit to the ones of a register, and may drop one. -/
theorem ShiftRegister.count_msbFirst_shift_le {width : Nat} (r : ShiftRegister width) (b : Bool) :
    (Bits.msbFirst (r.shift b).bits).count true ≤ (Bits.msbFirst r.bits).count true + b.toNat := by
  have hone : [b].count true = b.toNat := by cases b <;> rfl
  calc
    (Bits.msbFirst (r.shift b).bits).count true =
        ((Bits.msbFirst r.bits ++ [b]).drop 1).count true := by rw [msbFirst_shift]
    _ ≤ (Bits.msbFirst r.bits ++ [b]).count true := (List.drop_sublist 1 _).count_le true
    _ = (Bits.msbFirst r.bits).count true + b.toNat := by rw [List.count_append, hone]

/-- A strobe that finds the pattern there already, and any other edge, leaves the latch alone. -/
theorem Bench.latched_after_of_not_relatches {b : Bench} {s : Session} {e : Edge}
    (h : (b.sample e s).relatches = false) :
    (b.sample e s).after.latched = s.registers.latched := by
  have hnext : (b.sample e s).after.latched = _ := Registers.latched_next b.block s.registers e
  cases hs : e.strobe with
  | true =>
      have hne : (e.strobe && s.registers.latched != (b.sample e s).after.latched) = false := h
      rw [hs, Bool.true_and, bne_eq_false_iff_eq] at hne
      exact hne.symm
  | false => rw [hnext, hs, if_neg Bool.false_ne_true]

namespace Session

/-- The bounds on the counters by one another and by the registers, as one edge keeps them. -/
structure Balanced (s : Session) : Prop where
  toggles_mod_two : s.counters.serialOutToggles % 2 = s.registers.serialOut.toNat
  toggles_le_ones :
    s.counters.serialOutToggles + s.registers.serialOut.toNat ≤ 2 * s.counters.serialOutOnes
  toggles_le_zeros :
    s.counters.serialOutToggles + 2 * s.counters.serialOutOnes ≤
      2 * s.counters.ticks + s.registers.serialOut.toNat
  latchChanges_le : s.counters.latchChanges ≤ s.counters.strobes
  strobes_le : s.counters.strobes ≤ s.counters.ticks
  serialInOnes_le : s.counters.serialInOnes ≤ s.counters.ticks
  input_le : (Bits.msbFirst s.registers.input.bits).count true ≤ s.counters.serialInOnes
  latched_eq_zero : s.counters.latchChanges = 0 → s.registers.latched = 0

variable {s : Session}

theorem Balanced.record (h : s.Balanced) (b : Bench) (e : Edge) :
    (s.record (b.sample e s)).Balanced where
  toggles_mod_two := by
    have hold := h.toggles_mod_two
    have hedge := toNat_bne_add s.registers.serialOut (b.sample e s).out
    have hlow := Bool.toNat_le (b.sample e s).out
    change (s.counters.serialOutToggles + (s.registers.serialOut != (b.sample e s).out).toNat) % 2 =
      (b.sample e s).out.toNat
    omega
  toggles_le_ones := by
    have hold := h.toggles_le_ones
    have hedge := toNat_bne_add s.registers.serialOut (b.sample e s).out
    change s.counters.serialOutToggles + (s.registers.serialOut != (b.sample e s).out).toNat +
      (b.sample e s).out.toNat ≤ 2 * (s.counters.serialOutOnes + (b.sample e s).out.toNat)
    omega
  toggles_le_zeros := by
    have hold := h.toggles_le_zeros
    have hedge := toNat_bne_add s.registers.serialOut (b.sample e s).out
    have hboth := toNat_add_toNat_le s.registers.serialOut (b.sample e s).out
    change s.counters.serialOutToggles + (s.registers.serialOut != (b.sample e s).out).toNat +
      2 * (s.counters.serialOutOnes + (b.sample e s).out.toNat) ≤
        2 * (s.counters.ticks + 1) + (b.sample e s).out.toNat
    omega
  latchChanges_le :=
    Nat.add_le_add h.latchChanges_le (Bool.toNat_le_toNat (Bool.and_le_left _ _))
  strobes_le := Nat.add_le_add h.strobes_le (Bool.toNat_le _)
  serialInOnes_le := Nat.add_le_add h.serialInOnes_le (Bool.toNat_le _)
  input_le := by
    rw [← Bench.session_tick, Bench.registers_tick, Registers.input_next]
    exact (ShiftRegister.count_msbFirst_shift_le _ _).trans (Nat.add_le_add_right h.input_le _)
  latched_eq_zero := by
    intro hzero
    obtain ⟨hchanges, hrelatches⟩ := Nat.add_eq_zero_iff.1 hzero
    rw [registers_record, Bench.latched_after_of_not_relatches (Bool.toNat_eq_zero.1 hrelatches),
      h.latched_eq_zero hchanges]

end Session

namespace Bench

variable (b : Bench)

theorem balanced_powerOn : b.powerOn.Balanced := by
  have hlow : Registers.reset.serialOut.toNat = 0 := by
    rw [Registers.serialOut_reset, Bool.toNat_false]
  have hempty : (Bits.msbFirst Registers.reset.input.bits).count true = 0 := by decide
  constructor
  case toggles_mod_two => exact hlow.symm
  case toggles_le_ones => exact (Nat.zero_add _).le.trans hlow.le
  case toggles_le_zeros => exact Nat.zero_le _
  case input_le => exact hempty.le
  case latched_eq_zero =>
    intro _
    rfl
  all_goals exact le_rfl

theorem balanced_session (commands : List Command) : (b.session commands).Balanced :=
  b.session_induction b.balanced_powerOn (fun _ e h => h.record b e) commands

/-- After any commands the counters bound one another and fit the registers at hand. -/
theorem counters_agree_with_registers (commands : List Command) :
    let s := b.session commands
    let n := s.counters
    let out := s.registers.serialOut.toNat
    (Odd n.serialOutToggles ↔ out = 1) ∧
    n.serialOutToggles + out ≤ 2 * n.serialOutOnes ∧
    (n.serialOutOnes ≤ n.ticks ∧ n.serialOutToggles ≤ 2 * (n.ticks - n.serialOutOnes) + out) ∧
    (n.latchChanges ≤ n.strobes ∧ n.strobes ≤ n.ticks) ∧
    n.serialInOnes ≤ n.ticks ∧
    (Bits.msbFirst s.registers.input.bits).count true ≤ n.serialInOnes ∧
    (n.latchChanges = 0 → s.registers.latched = 0) := by
  intro s n out
  have h := b.balanced_session commands
  have hparity : n.serialOutToggles % 2 = out := h.toggles_mod_two
  have hzeros : n.serialOutToggles + 2 * n.serialOutOnes ≤ 2 * n.ticks + out := h.toggles_le_zeros
  -- If the output is high, it has toggled at least once, so its level does not spoil the bound.
  have hticks : n.serialOutOnes ≤ n.ticks := by omega
  refine ⟨?_, h.toggles_le_ones, ⟨hticks, ?_⟩, ⟨h.latchChanges_le, h.strobes_le⟩,
    h.serialInOnes_le, h.input_le, h.latched_eq_zero⟩
  · rw [Nat.odd_iff, hparity]
  · omega

/-- Two strobes have latched zero over zero, and a one has come in behind them. -/
theorem counters_agree_with_registers_unlatched :
    let s := (Bench.reference {}).session [.evaluate 0, .tick ⟨true, false⟩]
    s.counters.strobes = 2 ∧ s.counters.latchChanges = 0 ∧ s.registers.latched = 0 := by
  intro s
  have hunchanged : s.counters.latchChanges = 0 := by rfl
  obtain ⟨-, -, -, -, -, -, hlatched⟩ := (Bench.reference {}).counters_agree_with_registers
    [.evaluate 0, .tick ⟨true, false⟩]
  exact ⟨by rfl, hunchanged, hlatched hunchanged⟩

end Bench

end LutFixture
