import LutFixture.Proofs.EdgeHistory
import LutFixture.Proofs.History
import Mathlib.Data.BitVec

/-!
# Counters as counts over the history

Every counter is moved on edge by edge, from what the registers hold on both sides of the edge. Over
a whole session it comes to a count over the history alone: edges and bits of one kind, and for the
two counters of changes the places at which a sequence changes its value (`changes`). One is the
sequence of the bits on the serial output, the other the sequence of what the serial line reads at
the strobes (`Registers.strobeWindows`); both begin with the zero of power-on.
-/

namespace LutFixture

section Changes

variable {α β : Type} [BEq α] [BEq β]

/-- The number of places at which a sequence changes its value. -/
def changes (xs : List α) : Nat := (xs.zip xs.tail).countP fun x => x.1 != x.2

theorem changes_cons_cons (a c : α) (xs : List α) :
    changes (a :: c :: xs) = (a != c).toNat + changes (c :: xs) :=
  countP_cons_eq_toNat_add _ _ _

theorem changes_map [LawfulBEq α] [LawfulBEq β] {g : α → β} (hg : Function.Injective g)
    (xs : List α) : changes (xs.map g) = changes xs := by
  have hne : ∀ a c : α, (g a != g c) = (a != c) := by
    intro a c
    rw [Bool.eq_iff_iff, bne_iff_ne, bne_iff_ne]
    exact hg.ne_iff
  rw [changes, changes, ← List.map_tail, List.zip_map, List.countP_map]
  congr 1
  funext x
  exact hne x.1 x.2

end Changes

namespace Registers

/-- What the last six bits of the serial line write at each strobe, one strobe after the other. -/
def strobeWindows (r : Registers) (edges : List Edge) : List ℕ :=
  ((edges.zipIdx 1).filter (·.1.strobe)).map fun x => r.window edges x.2

theorem strobeWindows_append_singleton (r : Registers) (edges : List Edge) (e : Edge) :
    r.strobeWindows (edges ++ [e]) =
      r.strobeWindows edges ++
        if e.strobe then [r.window (edges ++ [e]) (edges.length + 1)] else [] := by
  have hold : ∀ x ∈ (edges.zipIdx 1).filter (·.1.strobe),
      r.window (edges ++ [e]) x.2 = r.window edges x.2 := by
    rintro ⟨e', t⟩ hx
    have ht : t ≤ edges.length :=
      Nat.lt_one_add_iff.1 (List.mem_zipIdx (List.mem_of_mem_filter hx)).2.1
    rw [← window_take ht, List.take_left']
    rfl
  rw [strobeWindows, List.zipIdx_append, List.filter_append, List.map_append,
    List.map_congr_left hold, strobeWindows, Nat.add_comm 1]
  congr 1
  by_cases h : e.strobe
  · simp [h]
  · simp [h]

end Registers

/-- The patterns that the strobes among some samples have latched. -/
def Sample.latches (xs : List Sample) : List Pattern :=
  (xs.filter (·.edge.strobe)).map (·.after.latched)

theorem Sample.latches_cons (x : Sample) (xs : List Sample) :
    latches (x :: xs) = (if x.edge.strobe then [x.after.latched] else []) ++ latches xs := by
  rw [latches, List.filter_cons]
  split <;> rfl

theorem Sample.latches_append (xs ys : List Sample) :
    latches (xs ++ ys) = latches xs ++ latches ys := by
  rw [latches, List.filter_append, List.map_append]
  rfl

namespace Bench

variable (b : Bench) (s : Session)

theorem countP_toggles_samplesOf (edges : Stimulus) :
    (b.samplesOf edges s).countP Sample.toggles =
      changes (s.registers.serialOut :: (b.samplesOf edges s).map Sample.out) := by
  induction edges generalizing s with
  | nil => rfl
  | cons e es ih =>
      rw [samplesOf, countP_cons_eq_toNat_add, ih, List.map_cons, changes_cons_cons]
      rfl

theorem countP_relatches_samplesOf (edges : Stimulus) :
    (b.samplesOf edges s).countP Sample.relatches =
      changes (s.registers.latched :: Sample.latches (b.samplesOf edges s)) := by
  induction edges generalizing s with
  | nil => rfl
  | cons e es ih =>
      rw [samplesOf, countP_cons_eq_toNat_add, ih]
      have hedge : (b.sample e s).edge = e := rfl
      rw [Sample.latches_cons, Sample.relatches, hedge]
      cases h : e.strobe with
      | true =>
          rw [if_pos rfl, List.singleton_append, changes_cons_cons, Bool.true_and]
          rfl
      | false =>
          -- Without a strobe the latch keeps its pattern, so the sequence goes on from there.
          have hkept : (s.record (b.sample e s)).registers.latched = s.registers.latched := by
            rw [← session_tick, registers_tick, Registers.latched_next, h]
            rfl
          rw [if_neg Bool.false_ne_true, List.nil_append, hkept, Bool.false_and, Bool.toNat_false,
            Nat.zero_add]

/-- The strobes latch what the serial line reads at them. -/
theorem map_toNat_latches_samplesOf (edges : Stimulus) :
    (Sample.latches (b.samplesOf edges s)).map BitVec.toNat = s.registers.strobeWindows edges := by
  induction edges using List.reverseRecOn with
  | nil => rfl
  | append_singleton edges e ih =>
      have hedge : (b.sample e (s.recordAll (b.samplesOf edges s))).edge = e := rfl
      have hafter : (b.sample e (s.recordAll (b.samplesOf edges s))).after =
          s.registers.run b.block (edges ++ [e]) := by
        rw [Registers.run_append, ← registers_recordAll_samplesOf]
        rfl
      rw [samplesOf_append, Sample.latches_append, List.map_append, ih,
        Registers.strobeWindows_append_singleton, samplesOf, Sample.latches_cons, hedge, hafter]
      congr 1
      cases h : e.strobe with
      | true =>
          rw [if_pos rfl, if_pos rfl,
            ← Registers.latched_run_append_of_strobe b.block s.registers edges h]
          rfl
      | false => rfl

/-- The counters of a session, each as a count over the samples of its history. -/
theorem counters_session_eq_samples (commands : List Command) :
    let xs := b.samplesOf (b.history commands) b.powerOn
    (b.session commands).counters =
      { ticks := xs.length
        strobes := xs.countP (·.edge.strobe)
        latchChanges := changes (0 :: Sample.latches xs)
        serialInOnes := xs.countP (·.edge.serialIn)
        serialOutOnes := xs.countP Sample.out
        serialOutToggles := changes (false :: xs.map Sample.out) } := by
  intro xs
  have hcount : (b.session commands).counters = Counters.count {} xs := by
    rw [session_eq_recordAll, Session.counters_recordAll]
    rfl
  have htoggles := b.countP_toggles_samplesOf b.powerOn (b.history commands)
  have hrelatches := b.countP_relatches_samplesOf b.powerOn (b.history commands)
  rw [registers_powerOn, Registers.serialOut_reset] at htoggles
  rw [registers_powerOn] at hrelatches
  simp only [hcount, Counters.count, Nat.zero_add, xs, htoggles, hrelatches]
  rfl

/-- The counters of a session, each as a count over the history itself. -/
theorem counters_session (commands : List Command) :
    let edges := b.history commands
    let outs := Registers.reset.outputs b.block edges
    (b.session commands).counters =
      { ticks := edges.length
        strobes := edges.countP (·.strobe)
        latchChanges := changes (0 :: Registers.reset.strobeWindows edges)
        serialInOnes := edges.countP (·.serialIn)
        serialOutOnes := outs.count true
        serialOutToggles := changes (false :: outs) } := by
  intro edges outs
  have houts : (b.samplesOf edges b.powerOn).map Sample.out = outs := b.map_out_samplesOf _ _
  have hones : (b.samplesOf edges b.powerOn).countP Sample.out = outs.count true := by
    rw [← houts, List.count, List.countP_map]
    congr 1
    funext x
    exact (beq_true x.out).symm
  have hwindows : changes (0 :: Registers.reset.strobeWindows edges) =
      changes (0 :: Sample.latches (b.samplesOf edges b.powerOn)) := by
    rw [← changes_map BitVec.toNat_injective, List.map_cons, map_toNat_latches_samplesOf]
    rfl
  rw [counters_session_eq_samples, length_samplesOf, countP_edge_samplesOf, countP_edge_samplesOf,
    hones, houts, hwindows]

/-- The number of edges that a sweep applies before it ends with a mismatch. -/
theorem ticks_sweep_of_error {m : Mismatch} (h : (b.sweep s).result = .error m) :
    (b.execute s .sweep).session.counters.ticks =
      s.counters.ticks + if m.pattern.toNat < 63 then 6 * (m.pattern.toNat + 2) else 385 := by
  have hindex := Mismatch.index_eq_of_first?_all (b.first?_of_result_sweep_eq_error s h)
  have hcosts := (b.execute_applies s (c := .sweep) (by simp)).costs.ticks
  rw [edgesOf, length_sweepEdges_all, hindex] at hcosts
  exact hcosts

theorem session_run_of_lt {edges : Stimulus}
    (h : b.config.general.maxTicks.toNat < edges.length) (commands : List Command) :
    b.session (commands ++ [.run edges]) = b.session commands := by
  have hedges : b.edgesOf (.run edges) = [] := by rw [edgesOf, if_pos h]
  have happlies := b.execute_applies (b.session commands) (c := .run edges) (by simp)
  rw [session_append_singleton, happlies.session_eq, hedges]
  rfl

/-- The counters of a session are counts over the edges since the last reset and over the bits that
stood on the serial output after them. A refused stimulus leaves both as they were, and any other
command, also a sweep that ends early, adds just the edges that it has applied. -/
theorem counters_count_history (commands : List Command) :
    let s := b.session commands
    let edges := b.history commands
    let outs := Registers.reset.outputs b.block edges
    (s.counters.ticks = edges.length ∧
      s.counters.strobes = edges.countP (·.strobe) ∧
      s.counters.serialInOnes = edges.countP (·.serialIn) ∧
      s.counters.serialOutOnes = outs.count true ∧
      s.counters.serialOutToggles = changes (false :: outs) ∧
      s.counters.latchChanges = changes (0 :: Registers.reset.strobeWindows edges)) ∧
    (∀ c, let xs := Event.samples (b.execute s c).events
      b.history (commands ++ [c]) = (if c = .reset then [] else edges ++ xs.map Sample.edge) ∧
      Registers.reset.outputs b.block (b.history (commands ++ [c])) =
        (if c = .reset then [] else outs ++ xs.map Sample.out)) ∧
    (∀ more : Stimulus, b.config.general.maxTicks.toNat < more.length →
      b.session (commands ++ [.run more]) = s ∧ b.history (commands ++ [.run more]) = edges) ∧
    (∀ m, (b.sweep s).result = .error m →
      (b.session (commands ++ [.sweep])).counters.ticks =
        edges.length + if m.pattern.toNat < 63 then 6 * (m.pattern.toNat + 2) else 385) := by
  intro s edges outs
  have hcounters := b.counters_session commands
  refine ⟨?_, b.history_append_singleton_eq_samples commands, ?_, ?_⟩
  · rw [hcounters]
    exact ⟨rfl, rfl, rfl, rfl, rfl, rfl⟩
  · intro more hmore
    refine ⟨b.session_run_of_lt hmore commands, ?_⟩
    rw [history_append_singleton, if_neg (by simp), edgesOf, if_pos hmore, List.append_nil]
  · intro m hm
    rw [session_append_singleton, b.ticks_sweep_of_error s hm, hcounters]

/-- A stimulus of three edges is refused under a limit of two, and a sweep of a block that is always
zero ends with its second load. -/
theorem counters_count_history_refused_and_failed :
    let b : Bench := ⟨fun _ => false, { general := { maxTicks := 2 } }⟩
    let more : Stimulus := [⟨true, false⟩, ⟨true, true⟩, ⟨false, false⟩]
    (2 < more.length ∧ b.session [.load 5, .run more] = b.session [.load 5] ∧
      b.history [.load 5, .run more] = b.history [.load 5]) ∧
    ((b.sweep (b.session [.load 5])).result = .error ⟨0, true, false⟩ ∧
      (b.session [.load 5, .sweep]).counters.ticks = 18) := by
  intro b more
  have hlimit : b.config.general.maxTicks.toNat < more.length := by decide
  have hresult : (b.sweep (b.session [.load 5])).result = .error ⟨0, true, false⟩ := by
    rw [result_sweep]
    rfl
  obtain ⟨-, -, hrefused, hfailed⟩ := b.counters_count_history [.load 5]
  exact ⟨⟨hlimit, hrefused more hlimit⟩, hresult, hfailed _ hresult⟩

end Bench

end LutFixture
