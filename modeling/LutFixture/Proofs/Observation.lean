import LutFixture.Proofs.History

/-!
# What can be seen of the registers from the outside

A driver sees no more of a fixture than the bits on its serial output. Two fixtures over one block
hand out the same bits, whatever is sent to them, exactly if their input registers are equal and the
block responds alike to what they have latched (`Registers.Alike`). The latched patterns themselves
may differ: a strobe shows the response and then latches the input register, which is common to
both. The output register is read by nothing.

The two probes that tell everything else apart are short. Six shifts hand out the input register,
and one strobe the pending response.
-/

namespace LutFixture

namespace Registers

variable {f : Block} {r r' : Registers}

/-- The input registers are equal, and so is the block's response to what is latched. -/
structure Alike (f : Block) (r r' : Registers) : Prop where
  input : r.input = r'.input
  response : f r.latched = f r'.latched

theorem Alike.serialOut_next (h : Alike f r r') (e : Edge) :
    (r.next f e).serialOut = (r'.next f e).serialOut := by
  rw [Registers.serialOut_next, Registers.serialOut_next, h.input, h.response]

theorem Alike.next (h : Alike f r r') (e : Edge) : Alike f (r.next f e) (r'.next f e) := by
  have hinput : (r.next f e).input = (r'.next f e).input := by
    rw [input_next, input_next, h.input]
  refine ⟨hinput, ?_⟩
  rw [latched_next, latched_next, hinput]
  split
  · rfl
  · exact h.response

theorem Alike.outputs_eq (h : Alike f r r') (edges : List Edge) :
    r.outputs f edges = r'.outputs f edges := by
  induction edges generalizing r r' with
  | nil => rfl
  | cons e es ih => rw [outputs, outputs, h.serialOut_next, ih (h.next e)]

/-- The edges that bring out the input register: as many shifts as it has places. -/
def inputProbe : List Edge := List.replicate inputWidth ⟨false, false⟩

/-- The edge that brings out the pending response. -/
def responseProbe : List Edge := [⟨false, true⟩]

theorem outputs_inputProbe (f : Block) (r : Registers) :
    r.outputs f inputProbe = Bits.msbFirst r.input.bits := by
  have hshift : ∀ e ∈ inputProbe, e.strobe = false := by
    intro e he
    rw [List.eq_of_mem_replicate he]
  have hlength : inputProbe.length = (Bits.msbFirst r.input.bits).length := by
    rw [inputProbe, List.length_replicate, Bits.length_msbFirst]
  rw [outputs_of_noStrobe f r hshift, hlength, List.take_left]

theorem outputs_responseProbe (f : Block) (r : Registers) :
    r.outputs f responseProbe = [f r.latched] := by
  rw [responseProbe, outputs, serialOut_next]
  rfl

/-- Registers that no probe tells apart are alike. -/
theorem alike_of_probes (hinput : r.outputs f inputProbe = r'.outputs f inputProbe)
    (hresponse : r.outputs f responseProbe = r'.outputs f responseProbe) : Alike f r r' := by
  rw [outputs_inputProbe, outputs_inputProbe] at hinput
  rw [outputs_responseProbe, outputs_responseProbe] at hresponse
  have hbits : r.input.bits = r'.input.bits := Bits.msbFirst_injective hinput
  exact ⟨congrArg ShiftRegister.mk hbits, List.head_eq_of_cons_eq hresponse⟩

/-- Two fixtures over one block hand out the same bits on all edges exactly if their input registers
are equal and the block responds alike to what they have latched. If not, at most six edges tell
them apart. What the output register holds is never seen again. -/
theorem forall_outputs_eq_iff (f : Block) (r r' : Registers) :
    ((∀ edges, r.outputs f edges = r'.outputs f edges) ↔
      r.input = r'.input ∧ f r.latched = f r'.latched) ∧
    ((∀ edges, edges.length ≤ 6 → r.outputs f edges = r'.outputs f edges) ↔
      r.input = r'.input ∧ f r.latched = f r'.latched) ∧
    ∀ (output : ShiftRegister outputWidth) (edges : List Edge),
      ({ r with output } : Registers).outputs f edges = r.outputs f edges := by
  have hshort : (∀ edges, edges.length ≤ 6 → r.outputs f edges = r'.outputs f edges) →
      r.input = r'.input ∧ f r.latched = f r'.latched := by
    intro h
    have halike : Alike f r r' :=
      alike_of_probes (h inputProbe le_rfl) (h responseProbe (by decide))
    exact ⟨halike.input, halike.response⟩
  have hsame : r.input = r'.input ∧ f r.latched = f r'.latched →
      ∀ edges, r.outputs f edges = r'.outputs f edges := by
    rintro ⟨hinput, hresponse⟩
    exact Alike.outputs_eq ⟨hinput, hresponse⟩
  refine ⟨⟨fun h => hshort fun edges _ => h edges, hsame⟩,
    ⟨hshort, fun h edges _ => hsame h edges⟩, ?_⟩
  intro output
  have halike : Alike f { r with output } r := ⟨rfl, rfl⟩
  exact halike.outputs_eq

end Registers

end LutFixture
