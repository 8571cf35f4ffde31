import LutFixture.Proofs.EdgeHistory

/-!
# Stimuli as a whole

A stimulus within the limit is run as if its edges came one by one, and one over the limit does
nothing at all (`Bench.runOrRefuse_of_lt`). The limit is for one stimulus: nothing but the session is
carried from one run to the next, so a stimulus may be cut anywhere, and its parts may be run where
the whole would be refused (`Bench.run_whole_or_refused`).

A row of patterns may be loaded pattern by pattern or by one stimulus that holds the edges of all
loads. The bits that the loads answer with are then the bits at their last edges
(`Bench.loads_agree_with_stimulus`).
-/

namespace LutFixture

namespace Bench

variable (b : Bench) (s : Session) {edges : Stimulus}

/-! ### Edge by edge -/

theorem sessionAfter_map_tick (edges : Stimulus) :
    b.sessionAfter s (edges.map .tick) = (b.drive edges s).session := by
  induction edges generalizing s with
  | nil => rfl
  | cons e es ih =>
      rw [List.map_cons, sessionAfter_cons, ih, drive_cons]
      rfl

variable {b} in
theorem session_runOrRefuse_of_not_lt (h : ¬ b.config.general.maxTicks.toNat < edges.length) :
    (b.runOrRefuse edges s).session = (b.drive edges s).session := by
  rw [runOrRefuse, Step.session_map, run, if_neg h]

theorem result_runOrRefuse_eq_error_iff :
    (b.runOrRefuse edges s).result = .error (.tickLimitExceeded b.config.general.maxTicks.toNat) ↔
      b.config.general.maxTicks.toNat < edges.length := by
  constructor
  · intro herror
    by_contra hfits
    rw [result_runOrRefuse_of_not_lt s hfits] at herror
    cases herror
  · intro h
    rw [runOrRefuse_of_lt s h]

variable {b} in
/-- A stimulus within the limit may be cut anywhere. -/
theorem runOrRefuse_append_of_not_lt {x y : Stimulus}
    (h : ¬ b.config.general.maxTicks.toNat < (x ++ y).length) :
    let first := b.runOrRefuse x s
    let both := b.runOrRefuse (x ++ y) s
    both.result =
      .ok (s.registers.outputs b.block x ++ first.session.registers.outputs b.block y) ∧
    both.session = (b.runOrRefuse y first.session).session := by
  intro first both
  have hx : ¬ b.config.general.maxTicks.toNat < x.length := by
    rw [List.length_append] at h
    omega
  have hy : ¬ b.config.general.maxTicks.toNat < y.length := by
    rw [List.length_append] at h
    omega
  have hfirst : first.session = (b.drive x s).session := session_runOrRefuse_of_not_lt s hx
  have hboth : both.session = (b.drive (x ++ y) s).session := session_runOrRefuse_of_not_lt s h
  have hresult : both.result = .ok (s.registers.outputs b.block (x ++ y)) :=
    result_runOrRefuse_of_not_lt s h
  constructor
  · rw [hresult, Registers.outputs_append, hfirst, registers_drive]
  · rw [hboth, session_drive_append, session_runOrRefuse_of_not_lt _ hy, hfirst]

/-- A stimulus is refused as a whole if it has more edges than the limit allows, and then the session
is as it was and the block has not been asked. If not, it leaves what its edges leave one by one, and
the answer has one bit for each: the bit on the serial output once this edge and those before it have
been applied. Two stimuli within the limit can always be run one behind the other. If they fit in
together, the one that they make up answers with the bits of both and leaves the same session; if
not, that one is refused. -/
theorem run_whole_or_refused (x y : Stimulus) :
    let limit := b.config.general.maxTicks.toNat
    let first := b.runOrRefuse x s
    let second := b.runOrRefuse y first.session
    let both := b.runOrRefuse (x ++ y) s
    (first.result = .error (.tickLimitExceeded limit) ↔ limit < x.length) ∧
    (limit < x.length → first.session = s ∧ Event.asked first.events = []) ∧
    (x.length ≤ limit → first.session = b.sessionAfter s (x.map .tick) ∧
      ∃ bits, first.result = .ok bits ∧ bits.length = x.length ∧
        ∀ i (h : i < bits.length),
          bits[i] = (b.sessionAfter s ((x.take (i + 1)).map .tick)).registers.serialOut) ∧
    (x.length ≤ limit → y.length ≤ limit →
      ∃ bits more, first.result = .ok bits ∧ second.result = .ok more ∧
        if x.length + y.length ≤ limit
        then both.result = .ok (bits ++ more) ∧ both.session = second.session
        else both.result = .error (.tickLimitExceeded limit) ∧ both.session = s) := by
  intro limit first second both
  refine ⟨b.result_runOrRefuse_eq_error_iff s, ?_, ?_, ?_⟩
  · intro hlong
    have hrefused := runOrRefuse_of_lt s hlong
    refine ⟨congrArg Step.session hrefused, ?_⟩
    rw [show first.events = [] from congrArg Step.events hrefused]
    rfl
  · intro hfits
    constructor
    · rw [sessionAfter_map_tick]
      exact session_runOrRefuse_of_not_lt s (not_lt_of_ge hfits)
    · refine ⟨_, result_runOrRefuse_of_not_lt s (not_lt_of_ge hfits),
        Registers.length_outputs _ _ _, ?_⟩
      intro i h
      rw [Registers.getElem_outputs, sessionAfter_map_tick, registers_drive]
  · intro hx hy
    refine ⟨_, _, result_runOrRefuse_of_not_lt s (not_lt_of_ge hx),
      result_runOrRefuse_of_not_lt first.session (not_lt_of_ge hy), ?_⟩
    rw [← List.length_append]
    by_cases hboth : (x ++ y).length ≤ limit
    · rw [if_pos hboth]
      exact runOrRefuse_append_of_not_lt s (not_lt_of_ge hboth)
    · have hrefused : both = _ := runOrRefuse_of_lt s (Nat.lt_of_not_le hboth)
      rw [if_neg hboth, hrefused]
      exact ⟨rfl, rfl⟩

/-- Under a limit of two, three edges are refused. Two of them and the third are run one behind the
other, though not as one stimulus. -/
theorem run_whole_or_refused_three_edges :
    let b : Bench := ⟨fun p => p == 1, { general := { maxTicks := 2 } }⟩
    let s := b.session [.load 1]
    let x : Stimulus := [⟨true, false⟩, ⟨false, true⟩]
    let y : Stimulus := [⟨true, true⟩]
    (2 < (x ++ y).length ∧ (b.runOrRefuse (x ++ y) s).session = s) ∧
    (x.length ≤ 2 ∧ y.length ≤ 2 ∧ ∃ bits more, (b.runOrRefuse x s).result = .ok bits ∧
      (b.runOrRefuse y (b.runOrRefuse x s).session).result = .ok more) := by
  intro b s x y
  have hlong : b.config.general.maxTicks.toNat < (x ++ y).length := by decide
  have hx : x.length ≤ b.config.general.maxTicks.toNat := by decide
  have hy : y.length ≤ b.config.general.maxTicks.toNat := by decide
  obtain ⟨-, hrefused, -, -⟩ := b.run_whole_or_refused s (x ++ y) []
  obtain ⟨-, -, -, hsplit⟩ := b.run_whole_or_refused s x y
  obtain ⟨bits, more, hbits, hmore, -⟩ := hsplit hx hy
  exact ⟨⟨hlong, (hrefused hlong).1⟩, hx, hy, bits, more, hbits, hmore⟩

/-! ### Loads as a stimulus -/

/-- Among the bits of a chain, the response to each pattern stands at the last edge of the load behind
it, and the last response at the edge of the unload. -/
theorem getElem?_outputs_chainEdges (r : Registers) (ps : List Pattern) {k : ℕ}
    (hk : k ≤ ps.length) :
    (r.outputs b.block (b.chainEdges ps))[min (6 * k + 5) (6 * ps.length)]? =
      ((r.latched :: ps).map b.block)[k]? := by
  induction ps generalizing r k with
  | nil =>
      obtain rfl : k = 0 := Nat.le_zero.1 hk
      rw [chainEdges, List.flatMap_nil, List.nil_append, unloadEdges, Registers.outputs,
        Registers.serialOut_next]
      rfl
  | cons p ps ih =>
      have hedges : b.chainEdges (p :: ps) = Stimulus.load p ++ b.chainEdges ps := by
        rw [chainEdges, List.flatMap_cons, List.append_assoc, chainEdges]
      have hlength : (r.outputs b.block (Stimulus.load p)).length = 6 := by
        rw [Registers.length_outputs, Stimulus.length_load]
      rw [hedges, Registers.outputs_append, List.length_cons]
      cases k with
      | zero =>
          have hlast := Registers.getLast?_outputs b.block r
            (List.ne_nil_of_length_eq_add_one (Stimulus.length_load p))
          rw [List.getLast?_eq_getElem?, hlength, Registers.run_load,
            Registers.serialOut_settled] at hlast
          rw [show min (6 * 0 + 5) (6 * (ps.length + 1)) = 5 by omega,
            List.getElem?_append_left (by omega)]
          exact hlast
      | succ k =>
          have hindex : min (6 * (k + 1) + 5) (6 * (ps.length + 1)) =
              6 + min (6 * k + 5) (6 * ps.length) := by omega
          rw [hindex, List.getElem?_append_right (by omega), hlength, Nat.add_sub_cancel_left,
            ih _ (Nat.le_of_succ_le_succ hk), Registers.run_load]
          rfl

/-- The loads of some patterns and an unload can be run as one stimulus, if the limit allows for so
many edges. It applies the same edges and leaves the same session. Of its bits, every sixth one is
the answer to a load, and the last one is the answer to the unload. -/
theorem loads_agree_with_stimulus (ps : List Pattern)
    (h : 6 * ps.length + 1 ≤ b.config.general.maxTicks.toNat) :
    let edges := ps.flatMap Stimulus.load ++ [Edge.latch b.config.driver.idleSerialIn]
    let run := b.runOrRefuse edges s
    let calls := b.perform (ps.map Command.load ++ [.unload]) s
    run.session = calls.session ∧
    Event.samples run.events = Event.samples calls.events ∧
    ∃ bits answers : List Bool, run.result = .ok bits ∧
      calls.result = answers.map (fun bit => .ok (.bit bit)) ∧
      bits.length = 6 * ps.length + 1 ∧ answers.length = ps.length + 1 ∧
      (∀ k < ps.length, answers[k]? = bits[6 * (k + 1) - 1]?) ∧
      answers.getLast? = bits.getLast? := by
  intro edges run calls
  have hlength : edges.length = 6 * ps.length + 1 := b.length_chainEdges ps
  have hfits : ¬ b.config.general.maxTicks.toNat < edges.length := by omega
  have hcalls : calls.Applies b edges s := b.perform_chain_applies s ps
  have hrun : run.Applies b edges s := by
    have happlies := b.run_applies s edges
    rw [edgesOf, if_neg hfits] at happlies
    exact happlies.map _
  refine ⟨?_, ?_, s.registers.outputs b.block edges, (s.registers.latched :: ps).map b.block,
    result_runOrRefuse_of_not_lt s hfits, ?_, ?_, ?_, ?_, ?_⟩
  · rw [hrun.session_eq, hcalls.session_eq]
  · rw [hrun.samples_eq, hcalls.samples_eq]
  · rw [b.result_perform_chain s ps, List.map_map]
    rfl
  · rw [Registers.length_outputs, hlength]
  · rw [List.length_map, List.length_cons]
  · intro k hk
    have hindex : min (6 * k + 5) (6 * ps.length) = 6 * (k + 1) - 1 := by omega
    rw [← b.getElem?_outputs_chainEdges s.registers ps hk.le, hindex]
    rfl
  · have hlast := b.getElem?_outputs_chainEdges s.registers ps le_rfl
    rw [show min (6 * ps.length + 5) (6 * ps.length) = 6 * ps.length by omega] at hlast
    rw [List.getLast?_eq_getElem?, List.getLast?_eq_getElem?, Registers.length_outputs, hlength,
      List.length_map, List.length_cons, Nat.add_sub_cancel, Nat.add_sub_cancel, ← hlast]
    rfl

/-- Two loads and an unload just fit in a limit of thirteen edges, with a one on the idle line. The
first load still answers for the pattern that was there before. -/
theorem loads_agree_with_stimulus_two :
    let b : Bench :=
      ⟨fun p => p == 5, { general := { maxTicks := 13 }, driver := { idleSerialIn := true } }⟩
    let s := b.session [.load 5]
    let run := b.runOrRefuse (Stimulus.load 33 ++ Stimulus.load 5 ++ [Edge.latch true]) s
    let calls := b.perform [.load 33, .load 5, .unload] s
    6 * 2 + 1 ≤ b.config.general.maxTicks.toNat ∧ run.session = calls.session ∧
      calls.result = [.ok (.bit true), .ok (.bit false), .ok (.bit true)] ∧
      ∃ bits : List Bool, run.result = .ok bits ∧ bits[5]? = some true ∧ bits[11]? = some false ∧
        bits.getLast? = some true := by
  intro b s run calls
  have hfits : 6 * [33, 5].length + 1 ≤ b.config.general.maxTicks.toNat := by decide
  have hlatched : s.registers.latched = 5 := b.latched_load b.powerOn 5
  have hcalls : calls.result = [.ok (.bit true), .ok (.bit false), .ok (.bit true)] := by
    have hchain := b.result_perform_chain s [33, 5]
    rwa [hlatched] at hchain
  obtain ⟨hsession, -, bits, answers, hrun, hresult, -, -, hloads, hlast⟩ :=
    b.loads_agree_with_stimulus s [33, 5] hfits
  have hanswers : answers = [true, false, true] := by
    have hinj : Function.Injective fun bit => (Except.ok (.bit bit) : Except Fault Answer) := by
      intro x y hxy
      exact Answer.bit.inj (Except.ok.inj hxy)
    exact List.map_injective_iff.2 hinj (hresult.symm.trans hcalls)
  subst hanswers
  exact ⟨hfits, hsession, hcalls, bits, hrun, (hloads 0 (by decide)).symm,
    (hloads 1 (by decide)).symm, hlast.symm⟩

end Bench

end LutFixture
