import LutFixture.Proofs.History

/-!
# Two runs over the same edges

Two fixtures over one block are put on the same lines, whatever their registers hold. The old
contents are pushed out one register after another. The input registers agree once six bits have
come in, and six edges are also enough for the bits that are handed on without a strobe. The
latched patterns may still be windows on old bits then; they agree from the next strobe on. The
output register keeps nothing of its own, so `Registers.Agrees`, which leaves it out, makes
everything after one more edge equal.
-/

namespace LutFixture

namespace ShiftRegister

variable {width : Nat}

/-- A register that has taken at least as many bits as it is wide holds nothing else. -/
theorem shiftAll_eq_of_width_le (r r' : ShiftRegister width) {bits : List Bool}
    (h : width ≤ bits.length) : r.shiftAll bits = r'.shiftAll bits := by
  have hbits : (r.shiftAll bits).bits = (r'.shiftAll bits).bits := by
    apply Bits.msbFirst_injective
    rw [msbFirst_shiftAll_of_width_le r h, msbFirst_shiftAll_of_width_le r' h]
  exact congrArg ShiftRegister.mk hbits

end ShiftRegister

namespace Registers

variable {f : Block} {r r' : Registers} {edges : List Edge}

/-- The registers agree in everything that an edge reads. -/
structure Agrees (r r' : Registers) : Prop where
  input : r.input = r'.input
  latched : r.latched = r'.latched

theorem Agrees.next_eq (h : r.Agrees r') (f : Block) (e : Edge) : r.next f e = r'.next f e := by
  have hinput : (r.next f e).input = (r'.next f e).input := by
    rw [input_next, input_next, h.input]
  have hout : (r.next f e).serialOut = (r'.next f e).serialOut := by
    rw [serialOut_next, serialOut_next, h.input, h.latched]
  have houtput : (r.next f e).output.bits = (r'.next f e).output.bits := by
    rw [bits_output, bits_output, hout]
  have hlatched : (r.next f e).latched = (r'.next f e).latched := by
    rw [latched_next, latched_next, hinput, h.latched]
  rcases hr : r.next f e with ⟨input, ⟨output⟩, latched⟩
  rcases hr' : r'.next f e with ⟨input', ⟨output'⟩, latched'⟩
  rw [hr, hr'] at hinput houtput hlatched
  dsimp only at hinput houtput hlatched
  rw [hinput, houtput, hlatched]

/-- Registers that agree are equal after any edges, if there is one. -/
theorem Agrees.run_eq (h : r.Agrees r') (f : Block) (hne : edges ≠ []) :
    r.run f edges = r'.run f edges := by
  cases edges with
  | nil => exact absurd rfl hne
  | cons e es => rw [run_cons, run_cons, h.next_eq]

theorem input_run_eq_of_six_le (f : Block) (r r' : Registers) (h : 6 ≤ edges.length) :
    (r.run f edges).input = (r'.run f edges).input := by
  rw [input_run, input_run]
  apply ShiftRegister.shiftAll_eq_of_width_le
  rwa [List.length_map]

/-- A strobe that latches six bits of the common line leaves nothing for the runs to differ in. -/
theorem agrees_run_of_strobe (f : Block) (r r' : Registers) {p : ℕ} (hp : p ∈ strobeTimes edges)
    (hsix : 6 ≤ p) : (r.run f (edges.take p)).Agrees (r'.run f (edges.take p)) := by
  obtain ⟨hpos, e, he, hs⟩ := hp
  have hlt : p - 1 < edges.length := (List.getElem?_eq_some_iff.1 he).1
  have hlen : (edges.take p).length = p := by rw [List.length_take]; omega
  have hinput : (r.run f (edges.take p)).input = (r'.run f (edges.take p)).input := by
    apply input_run_eq_of_six_le
    rwa [hlen]
  have htake : edges.take p = edges.take (p - 1) ++ [e] := by
    rw [show p = p - 1 + 1 by omega, List.take_add_one, he]
    simp
  have hlatched : ∀ x : Registers,
      (x.run f (edges.take p)).latched = (x.run f (edges.take p)).input.bits := by
    intro x
    rw [htake, run_append, run_cons, run_nil, latched_next, if_pos hs]
  exact ⟨hinput, by rw [hlatched, hlatched, hinput]⟩

theorem run_take_eq_of_agrees {p t : ℕ}
    (h : (r.run f (edges.take p)).Agrees (r'.run f (edges.take p))) (hpt : p < t)
    (ht : t ≤ edges.length) : r.run f (edges.take t) = r'.run f (edges.take t) := by
  have hsplit := (List.take_append_drop p (edges.take t)).symm
  rw [List.take_take, Nat.min_eq_left hpt.le] at hsplit
  have hne : (edges.take t).drop p ≠ [] := by
    rw [Ne, List.drop_eq_nil_iff, List.length_take]
    omega
  rw [hsplit, run_append, run_append, h.run_eq f hne]

theorem getElem?_outputs_eq (f : Block) (r : Registers) (edges : List Edge) {t : ℕ}
    (h : t < edges.length) :
    (r.outputs f edges)[t]? = some (r.run f (edges.take (t + 1))).serialOut := by
  have hlt : t < (r.outputs f edges).length := by rwa [length_outputs]
  rw [List.getElem?_eq_getElem hlt, getElem_outputs]

/-- When the input registers, the bits on the serial output and the whole registers of two runs
over the same edges come to agree. Edges are numbered from one. -/
theorem runs_synchronise (f : Block) (r r' : Registers) (edges : List Edge) :
    (∀ t, 6 ≤ t → t ≤ edges.length →
      (r.run f (edges.take t)).input = (r'.run f (edges.take t)).input) ∧
    (∀ (t : ℕ) (h : t < edges.length), 7 ≤ t + 1 → edges[t].strobe = false →
      (r.outputs f edges)[t]? = (r'.outputs f edges)[t]?) ∧
    (∀ p, IsLeast {t ∈ strobeTimes edges | 6 ≤ t} p →
      (r.run f (edges.take p)).input = (r'.run f (edges.take p)).input ∧
      (r.run f (edges.take p)).latched = (r'.run f (edges.take p)).latched ∧
      ∀ t, p < t → t ≤ edges.length →
        r.run f (edges.take t) = r'.run f (edges.take t) ∧
        (r.outputs f edges)[t - 1]? = (r'.outputs f edges)[t - 1]?) := by
  refine ⟨?_, ?_, ?_⟩
  · intro t hsix ht
    apply input_run_eq_of_six_le
    rw [List.length_take]
    omega
  · intro t h hseven hs
    have hline : ∀ x : Registers, x.serialBit edges (t + 1 - 6) =
        ((edges[t - 6]?).map Edge.serialIn).getD false := by
      intro x
      rw [serialBit, if_pos (by omega), show ((t : ℤ) + 1 - 6).toNat - 1 = t - 6 by omega]
    rw [getElem?_outputs_eq f r edges h, getElem?_outputs_eq f r' edges h,
      serialOut_run_take f r edges h, serialOut_run_take f r' edges h, hs,
      if_neg Bool.false_ne_true, if_neg Bool.false_ne_true, hline, hline]
  · rintro p ⟨⟨hp, hsix⟩, -⟩
    have hagrees := agrees_run_of_strobe f r r' hp hsix
    refine ⟨hagrees.input, hagrees.latched, ?_⟩
    intro t hpt ht
    have hrun := run_take_eq_of_agrees hagrees hpt ht
    constructor
    · exact hrun
    · rw [getElem?_outputs_eq f r edges (by omega), getElem?_outputs_eq f r' edges (by omega),
        show t - 1 + 1 = t by omega, hrun]

/-- A strobe on the third edge latches three old bits; the next one, on the seventh edge, none. -/
theorem runs_synchronise_second_strobe :
    let edges : List Edge := [⟨true, false⟩, ⟨false, false⟩, ⟨true, true⟩, ⟨true, false⟩,
      ⟨false, false⟩, ⟨true, false⟩, ⟨false, true⟩, ⟨true, true⟩]
    let r : Registers := ⟨⟨0b101101⟩, ⟨1⟩, 0b011011⟩
    let f : Block := fun x => x.msb
    (reset.run f (edges.take 3)).latched ≠ (r.run f (edges.take 3)).latched ∧
    IsLeast {t ∈ strobeTimes edges | 6 ≤ t} 7 ∧
    reset.run f (edges.take 8) = r.run f (edges.take 8) := by
  intro edges r f
  have hleast : IsLeast {t ∈ strobeTimes edges | 6 ≤ t} 7 := by
    refine ⟨⟨⟨by decide, ⟨false, true⟩, rfl, rfl⟩, by decide⟩, ?_⟩
    rintro t ⟨⟨-, e, he, hs⟩, hsix⟩
    rcases Nat.eq_or_lt_of_le hsix with rfl | hlt
    · obtain rfl : (⟨true, false⟩ : Edge) = e := Option.some.inj he
      exact absurd hs Bool.false_ne_true
    · exact hlt
  refine ⟨by decide, hleast, ?_⟩
  exact ((runs_synchronise f reset r edges).2.2 7 hleast).2.2 8 (by decide) (by decide) |>.1

end Registers

end LutFixture
