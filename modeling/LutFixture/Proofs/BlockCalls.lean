import LutFixture.Proofs.Counting

/-!
# What the block is asked for

A block is asked on strobes only, once on each, and for the pattern that was latched before the
edge. So the patterns that it is asked for, with the one that is latched in the end behind them, are
zero and what the serial line reads at the strobes, one after the other
(`Registers.map_toNat_askedOver_append_latched`). They are told by the edges alone.

Two things say that nothing else of a block enters a run. A run over a block that writes down its
calls (`Registers.recording`) ends with exactly this list, and so it does for the edges of a command
on the bench (`Bench.asked_execute_eq_recorded`). And two blocks give the same bits exactly if they
agree on it.
-/

namespace LutFixture

namespace Registers

/-! ### A block that writes down its calls -/

/-- One edge over a block that is asked through an effect. -/
def nextVia {m : Type → Type} [Monad m] (ask : Pattern → m Bool) (r : Registers) (e : Edge) :
    m Registers :=
  let input := r.input.shift e.serialIn
  if e.strobe then do
    let bit ← ask r.latched
    return { input, output := r.output.load ((BitVec.ofBool bit).setWidth 64),
             latched := input.bits }
  else
    return { input, output := r.output.shift r.input.msb, latched := r.latched }

/-- A sequence of edges over a block that is asked through an effect. -/
def runVia {m : Type → Type} [Monad m] (ask : Pattern → m Bool) (r : Registers)
    (edges : List Edge) : m Registers :=
  edges.foldlM (nextVia ask) r

/-- A block that writes every pattern it is asked for behind the ones before. -/
def recording (f : Block) (p : Pattern) : StateM (List Pattern) Bool := do
  modify (· ++ [p])
  return f p

variable (f g : Block) (r : Registers)

/-- Where asking has no effect, an edge is that of the registers. -/
theorem nextVia_pure {m : Type → Type} [Monad m] [LawfulMonad m] (e : Edge) :
    r.nextVia (fun p => (pure (f p) : m Bool)) e = pure (r.next f e) := by
  rw [nextVia, next]
  by_cases h : e.strobe
  · rw [if_pos h, if_pos h, pure_bind]
  · rw [if_neg h, if_neg h]

theorem runVia_pure {m : Type → Type} [Monad m] [LawfulMonad m] (edges : List Edge) :
    r.runVia (fun p => (pure (f p) : m Bool)) edges = pure (r.run f edges) := by
  have hnext : nextVia (fun p => (pure (f p) : m Bool)) = fun r e => pure (r.next f e) := by
    funext r e
    exact nextVia_pure f r e
  rw [runVia, hnext]
  exact List.foldlM_pure

theorem run_nextVia_recording (e : Edge) (calls : List Pattern) :
    ((r.nextVia (recording f) e).run calls).run = (r.next f e, calls ++ r.asked e) := by
  rw [nextVia, next, asked]
  by_cases h : e.strobe
  · rw [if_pos h, if_pos h, if_pos h]
    rfl
  · rw [if_neg h, if_neg h, if_neg h, List.append_nil]
    rfl

theorem run_runVia_recording (edges : List Edge) (calls : List Pattern) :
    ((r.runVia (recording f) edges).run calls).run =
      (r.run f edges, calls ++ r.askedOver f edges) := by
  induction edges generalizing r calls with
  | nil =>
      rw [askedOver, List.append_nil]
      rfl
  | cons e es ih =>
      calc
        ((r.runVia (recording f) (e :: es)).run calls).run =
            let x := ((r.nextVia (recording f) e).run calls).run
            ((x.1.runVia (recording f) es).run x.2).run := by
          rw [runVia, List.foldlM_cons, StateT.run_bind]
          rfl
        _ = (r.run f (e :: es), calls ++ r.askedOver f (e :: es)) := by
          rw [run_nextVia_recording, ih, run_cons, askedOver, List.append_assoc]

/-! ### The patterns asked for -/

theorem length_askedOver (edges : List Edge) :
    (r.askedOver f edges).length = edges.countP (·.strobe) := by
  induction edges generalizing r with
  | nil => rfl
  | cons e es ih =>
      rw [askedOver, List.length_append, ih, countP_cons_eq_toNat_add, asked]
      cases e.strobe <;> rfl

theorem askedOver_append_singleton (edges : List Edge) (e : Edge) :
    r.askedOver f (edges ++ [e]) = r.askedOver f edges ++ (r.run f edges).asked e := by
  rw [askedOver_append, askedOver, askedOver, List.append_nil]

/-- The patterns asked for and the one that is latched in the end are the one that was latched at
the start and the windows at the strobes. -/
theorem map_toNat_askedOver_append_latched (edges : List Edge) :
    (r.askedOver f edges ++ [(r.run f edges).latched]).map BitVec.toNat =
      r.latched.toNat :: r.strobeWindows edges := by
  -- The latched pattern is carried along at the end, where the next strobe asks for it.
  induction edges using List.reverseRecOn with
  | nil => rfl
  | append_singleton edges e ih =>
      rw [askedOver_append_singleton, strobeWindows_append_singleton, asked]
      by_cases h : e.strobe
      · rw [if_pos h, if_pos h, List.map_append, ih, List.map_singleton,
          latched_run_append_of_strobe f r edges h, List.cons_append]
      · rw [if_neg h, if_neg h, List.append_nil, List.append_nil,
          latched_run_append_of_not_strobe f r edges h, ih]

theorem toNat_latched_run (edges : List Edge) :
    (r.run f edges).latched.toNat = (r.strobeWindows edges).getLast?.getD r.latched.toNat := by
  have hlast := congrArg List.getLast? (r.map_toNat_askedOver_append_latched f edges)
  rw [List.map_append, List.map_singleton, List.getLast?_concat, List.getLast?_cons] at hlast
  exact Option.some.inj hlast

/-! ### Two blocks -/

variable {f g r}

theorem next_congr {e : Edge} (h : ∀ p ∈ r.asked e, f p = g p) : r.next f e = r.next g e := by
  rw [next, next]
  by_cases hs : e.strobe
  · have hlatched : f r.latched = g r.latched := by
      apply h
      rw [asked, if_pos hs]
      exact List.mem_singleton_self _
    rw [if_pos hs, if_pos hs, hlatched]
  · rw [if_neg hs, if_neg hs]

theorem serialOut_next_eq_iff {e : Edge} :
    (r.next f e).serialOut = (r.next g e).serialOut ↔ ∀ p ∈ r.asked e, f p = g p := by
  rw [serialOut_next, serialOut_next, asked]
  by_cases hs : e.strobe
  · rw [if_pos hs, if_pos hs, if_pos hs, List.forall_mem_singleton]
  · rw [if_neg hs, if_neg hs, if_neg hs]
    exact ⟨fun _ _ hp => absurd hp List.not_mem_nil, fun _ => rfl⟩

theorem outputs_eq_iff_forall_asked {edges : List Edge} :
    r.outputs f edges = r.outputs g edges ↔ ∀ p ∈ r.askedOver f edges, f p = g p := by
  induction edges generalizing r with
  | nil => exact ⟨fun _ _ hp => absurd hp List.not_mem_nil, fun _ => rfl⟩
  | cons e es ih =>
      rw [outputs, outputs, List.cons_eq_cons, askedOver, List.forall_mem_append,
        serialOut_next_eq_iff]
      apply and_congr_right
      intro h
      rw [← next_congr h, ih]

theorem run_congr {edges : List Edge} (h : ∀ p ∈ r.askedOver f edges, f p = g p) :
    r.run f edges = r.run g edges := by
  induction edges generalizing r with
  | nil => rfl
  | cons e es ih =>
      rw [askedOver, List.forall_mem_append] at h
      rw [run_cons, run_cons, ← next_congr h.1, ih h.2]

theorem mem_askedOver_of_mem_take {edges : List Edge} {t : ℕ} {p : Pattern}
    (h : p ∈ r.askedOver f (edges.take t)) : p ∈ r.askedOver f edges := by
  rw [← List.take_append_drop t edges, askedOver_append]
  exact List.mem_append_left _ h

/-- All that is asked for from power-on is zero and what a strobe latched, but for the last one. -/
theorem toNat_mem_of_mem_askedOver {edges : List Edge} {p : Pattern}
    (h : p ∈ reset.askedOver f edges) :
    p.toNat ∈ 0 :: (reset.strobeWindows edges).dropLast := by
  have hcalls : (reset.askedOver f edges).map BitVec.toNat =
      (0 :: reset.strobeWindows edges).dropLast := by
    have hall := congrArg List.dropLast (reset.map_toNat_askedOver_append_latched f edges)
    rw [List.map_append, List.map_singleton, List.dropLast_concat] at hall
    exact hall
  have hp : p.toNat ∈ (0 :: reset.strobeWindows edges).dropLast := by
    rw [← hcalls]
    exact List.mem_map_of_mem h
  cases hw : reset.strobeWindows edges with
  | nil =>
      rw [hw] at hp
      exact absurd hp List.not_mem_nil
  | cons w ws =>
      rw [hw, List.dropLast_cons_of_ne_nil (List.cons_ne_nil w ws)] at hp
      exact hp

/-- From power-on the block is asked on strobes only, and for what the strobe before has latched,
zero on the first one; what the last strobe latched it is not asked for. A block that writes down
its calls finds just these. So two blocks that agree on zero and on all that was latched before the
last strobe run alike edge by edge; and no two blocks give the same bits that differ on a call. -/
theorem asked_is_latched_before (f : Block) (edges : List Edge) :
    ((reset.runVia (recording f) edges).run []).run =
      (reset.run f edges, reset.askedOver f edges) ∧
    (∀ (t : ℕ) (h : t < edges.length),
      ((reset.run f (edges.take t)).asked edges[t]).map BitVec.toNat =
        if edges[t].strobe then [(reset.strobeWindows (edges.take t)).getLast?.getD 0] else []) ∧
    (reset.askedOver f edges ++ [(reset.run f edges).latched]).map BitVec.toNat =
      0 :: reset.strobeWindows edges ∧
    (reset.askedOver f edges).length = edges.countP (·.strobe) ∧
    (∀ g : Block,
      (∀ p : Pattern, p.toNat ∈ 0 :: (reset.strobeWindows edges).dropLast → f p = g p) →
      reset.outputs f edges = reset.outputs g edges ∧
        ∀ t, reset.run f (edges.take t) = reset.run g (edges.take t)) ∧
    ∀ g : Block, reset.outputs f edges = reset.outputs g edges →
      ∀ p ∈ reset.askedOver f edges, f p = g p := by
  refine ⟨run_runVia_recording f reset edges [], ?_,
    reset.map_toNat_askedOver_append_latched f edges, reset.length_askedOver f edges, ?_, ?_⟩
  · intro t h
    rw [asked]
    by_cases hs : edges[t].strobe
    · rw [if_pos hs, if_pos hs, List.map_singleton, toNat_latched_run]
      rfl
    · rw [if_neg hs, if_neg hs, List.map_nil]
  · intro g hagree
    have hcalls : ∀ p ∈ reset.askedOver f edges, f p = g p := by
      intro p hp
      exact hagree p (toNat_mem_of_mem_askedOver hp)
    refine ⟨outputs_eq_iff_forall_asked.2 hcalls, ?_⟩
    intro t
    exact run_congr fun p hp => hcalls p (mem_askedOver_of_mem_take hp)
  · intro g houtputs
    exact outputs_eq_iff_forall_asked.1 houtputs

/-- The second strobe latches the pattern at which the two blocks differ, and asks for the one
before. -/
theorem asked_is_latched_before_unasked_difference :
    let edges : List Edge := [⟨true, true⟩, ⟨true, false⟩, ⟨false, true⟩]
    let f : Block := fun p => p == 1
    let g : Block := fun p => p == 1 || p == 6
    (reset.run f edges).latched = 6 ∧ f 6 ≠ g 6 ∧
      (∀ p : Pattern, p.toNat ∈ 0 :: (reset.strobeWindows edges).dropLast → f p = g p) ∧
      reset.outputs f edges = reset.outputs g edges := by
  intro edges f g
  have hagree : ∀ p : Pattern, p.toNat ∈ 0 :: (reset.strobeWindows edges).dropLast →
      f p = g p := by
    decide
  have houtputs := ((asked_is_latched_before f edges).2.2.2.2.1 g hagree).1
  exact ⟨by decide, by decide, hagree, houtputs⟩

end Registers

namespace Bench

variable (b : Bench) (s : Session)

/-- What a bench tells of the calls of its block in one step is what the block itself writes down
over the edges of the command, and these end in the same registers unless the command is a reset. -/
theorem asked_execute_eq_recorded (c : Command) :
    let recorded := ((s.registers.runVia (Registers.recording b.block) (b.edgesOf c)).run []).run
    Event.asked (b.execute s c).events = recorded.2 ∧
      (c ≠ .reset → (b.execute s c).session.registers = recorded.1) := by
  intro recorded
  have hrecorded : recorded =
      (s.registers.run b.block (b.edgesOf c), s.registers.askedOver b.block (b.edgesOf c)) :=
    Registers.run_runVia_recording b.block s.registers (b.edgesOf c) []
  rw [hrecorded, Event.asked, samples_execute, flatMap_asked_samplesOf]
  exact ⟨rfl, fun hc => (b.execute_applies s hc).registers⟩

end Bench

end LutFixture
