import LutFixture.Proofs.EdgeHistory

/-!
# A bench beside its bare registers

A bench surrounds the registers with counters, a trace and a configuration. None of these reaches
back: after every command the registers are those of a bare fixture that takes the edges of the same
commands one by one (`Bench.clock`), the bits sampled are the ones on its serial output, and the
answer is read off these bits and the command (`Bench.readOff`). So whether a trace is kept, and
which sections of the report are wanted, makes no difference to any of them.

The bits of a sweep that matter are those of its strobes, since a strobe hands out the response to
the pattern that the block is asked for on it (`Registers.strobed_outputs`).
-/

namespace LutFixture

namespace Stimulus

/-- Of one bit for each edge, those that belong to a strobe. -/
def strobed (edges : Stimulus) (bits : List Bool) : List Bool :=
  ((edges.zip bits).filter (·.1.strobe)).map Prod.snd

theorem strobed_cons (e : Edge) (es : Stimulus) (bit : Bool) (bits : List Bool) :
    strobed (e :: es) (bit :: bits) = (if e.strobe then [bit] else []) ++ strobed es bits := by
  rw [strobed, List.zip_cons_cons, List.filter_cons]
  by_cases h : e.strobe
  · rw [if_pos h, if_pos h]
    rfl
  · rw [if_neg h, if_neg h]
    rfl

end Stimulus

/-- A strobe hands out the response to the pattern that the block is asked for. -/
theorem Registers.strobed_outputs (f : Block) (r : Registers) (edges : List Edge) :
    Stimulus.strobed edges (r.outputs f edges) = (r.askedOver f edges).map f := by
  induction edges generalizing r with
  | nil => rfl
  | cons e es ih =>
      rw [outputs, Stimulus.strobed_cons, ih, askedOver, List.map_append, asked, serialOut_next]
      by_cases h : e.strobe
      · rw [if_pos h, if_pos h, if_pos h]
        rfl
      · rw [if_neg h, if_neg h]
        rfl

namespace Mismatch

variable {f : Block}

/-- The patterns up to the first deviation show the first mismatch of all. -/
theorem first?_take_index (f : Block) (ps : List Pattern) :
    first? f (ps.take (index f ps + 1)) = first? f ps := by
  induction ps with
  | nil => rfl
  | cons p ps ih =>
      rw [List.take_succ_cons, first?, first?, List.findSome?_cons, List.findSome?_cons]
      cases hm : find? p (f p) with
      | none =>
          rw [index_cons_of_none ps hm]
          exact ih
      | some m => rfl

/-- The mismatch among some responses, looked for in their order. -/
def among? (responses : Responses) : Option Mismatch :=
  responses.findSome? fun x => find? x.1 x.2

theorem among?_responses (ps : List Pattern) :
    among? (ps.map fun p => (p, f p)) = first? f ps := by
  rw [among?, List.findSome?_map]
  rfl

/-- Responses that stop early belong to the patterns up to there. -/
theorem zip_responses_take (f : Block) (ps : List Pattern) (n : Nat) :
    ps.zip ((ps.take n).map f) = (ps.take n).map fun p => (p, f p) := by
  have hlength : (ps.take n).length = ((ps.take n).map f).length := by rw [List.length_map]
  calc
    ps.zip ((ps.take n).map f) = (ps.take n ++ ps.drop n).zip ((ps.take n).map f ++ []) := by
      rw [List.take_append_drop, List.append_nil]
    _ = (ps.take n).zip ((ps.take n).map f) := by
      rw [List.zip_append hlength, List.zip_nil_right, List.append_nil]
    _ = (ps.take n).map fun p => (p, f p) := List.map_prod_left_eq_zip.symm

end Mismatch

/-- The same configuration with another choice of what is kept and shown of a session. -/
def Configuration.observing (c : Configuration) (traceTicks : Bool) (sections : List String) :
    Configuration :=
  { c with general := { c.general with traceTicks }, statistics := { sections } }

namespace Bench

variable (b : Bench) (s : Session)

/-! ### Bare registers -/

/-- A command on bare registers: a reset clears them, and any other command clocks them through its
edges one by one. -/
def clock (b : Bench) (r : Registers) (c : Command) : Registers :=
  if c = .reset then .reset else r.run b.block (b.edgesOf c)

/-- A sequence of commands on bare registers, from power-on. -/
def clockAll (b : Bench) (commands : List Command) : Registers := commands.foldl b.clock .reset

theorem registers_execute (c : Command) :
    (b.execute s c).session.registers = b.clock s.registers c := by
  rw [clock]
  by_cases hc : c = .reset
  · rw [if_pos hc, hc, session_execute_reset]
    rfl
  · rw [if_neg hc, (b.execute_applies s hc).registers]

theorem registers_session_eq_clockAll (commands : List Command) :
    (b.session commands).registers = b.clockAll commands := by
  induction commands using List.reverseRecOn with
  | nil => rfl
  | append_singleton commands c ih =>
      rw [session_append_singleton, registers_execute, ih, clockAll, clockAll, List.foldl_append]
      rfl

/-! ### Answers -/

/-- The answer to a command as the bits on the serial output give it, one bit for each edge of the
command. A sweep pairs the patterns with the bits of its strobes; the first of these is still the
response to the pattern before the sweep. -/
def readOff (b : Bench) (bits : List Bool) : Command → Except Fault Answer
  | .tick _ | .load _ | .unload | .evaluate _ => .ok (.bit (bits.getLast?.getD false))
  | .run edges =>
    if b.config.general.maxTicks.toNat < edges.length
    then .error (.tickLimitExceeded b.config.general.maxTicks.toNat) else .ok (.bits bits)
  | .sweep =>
    let responses := Pattern.all.zip (Stimulus.strobed (b.sweepEdges Pattern.all) bits).tail
    match Mismatch.among? responses with
    | some m => .error (.mismatch m)
    | none => .ok (.report ⟨responses, bits.length, responses.countP (·.2)⟩)
  | .reset => .ok .done

/-- The last bit that a command samples stays on the serial output. -/
theorem getLast?_outputs_edgesOf {c : Command} (hc : c ≠ .reset) (hne : b.edgesOf c ≠ []) :
    (s.registers.outputs b.block (b.edgesOf c)).getLast?.getD false =
      (b.execute s c).session.registers.serialOut := by
  rw [Registers.getLast?_outputs _ _ hne, (b.execute_applies s hc).registers, Option.getD_some]

theorem readOff_run (edges : Stimulus) :
    b.readOff (s.registers.outputs b.block (b.edgesOf (.run edges))) (.run edges) =
      (b.execute s (.run edges)).result := by
  rw [execute, Step.result_map, readOff, edgesOf]
  by_cases h : b.config.general.maxTicks.toNat < edges.length
  · rw [if_pos h, runOrRefuse_of_lt s h]
    rfl
  · rw [if_neg h, if_neg h, result_runOrRefuse_of_not_lt s h]
    rfl

/-- The responses that a sweep goes by are those of the block to the patterns up to the first
deviation. -/
theorem zip_strobed_sweepEdges (r : Registers) :
    Pattern.all.zip (Stimulus.strobed (b.sweepEdges Pattern.all)
      (r.outputs b.block (b.sweepEdges Pattern.all))).tail =
    (Pattern.all.take (Mismatch.index b.block Pattern.all + 1)).map fun p => (p, b.block p) := by
  rw [Registers.strobed_outputs, askedOver_sweepEdges, List.map_cons, List.tail_cons,
    Mismatch.zip_responses_take]

theorem readOff_sweep :
    b.readOff (s.registers.outputs b.block (b.edgesOf .sweep)) .sweep =
      (b.execute s .sweep).result := by
  rw [execute, Step.result_map, result_sweep, readOff, edgesOf, zip_strobed_sweepEdges,
    Mismatch.among?_responses, Mismatch.first?_take_index]
  cases h : Mismatch.first? b.block Pattern.all with
  | some m => rfl
  | none =>
      have hindex := Mismatch.index_eq_of_first?_all_none h
      have hlength : (s.registers.outputs b.block (b.sweepEdges Pattern.all)).length = 385 := by
        rw [Registers.length_outputs, length_sweepEdges_all, hindex, if_neg (by decide)]
      have htake : Pattern.all.take (Mismatch.index b.block Pattern.all + 1) = Pattern.all := by
        rw [hindex]
        rfl
      rw [hlength, htake, List.countP_map]
      rfl

/-- The answer to a command is read off the bits that it sampled. -/
theorem result_execute_eq_readOff (c : Command) :
    (b.execute s c).result = b.readOff (s.registers.outputs b.block (b.edgesOf c)) c := by
  cases c with
  | tick e =>
      rw [readOff, b.getLast?_outputs_edgesOf s (c := .tick e) (by simp) (List.cons_ne_nil _ _)]
      rfl
  | run edges => exact (b.readOff_run s edges).symm
  | load p =>
      have hne : Stimulus.load p ≠ [] :=
        List.ne_nil_of_length_eq_add_one (Stimulus.length_load p)
      rw [readOff, b.getLast?_outputs_edgesOf s (c := .load p) (by simp) hne]
      rfl
  | unload =>
      rw [readOff, b.getLast?_outputs_edgesOf s (c := .unload) (by simp) (List.cons_ne_nil _ _)]
      rfl
  | evaluate p =>
      have hne : b.evaluationEdges p ≠ [] :=
        List.ne_nil_of_length_eq_add_one (b.length_evaluationEdges p)
      rw [readOff, b.getLast?_outputs_edgesOf s (c := .evaluate p) (by simp) hne]
      rfl
  | sweep => exact (b.readOff_sweep s).symm
  | reset => rfl

/-! ### Another configuration -/

/-- The same block under another choice of what is kept and shown of a session. -/
def observing (b : Bench) (traceTicks : Bool) (sections : List String) : Bench :=
  ⟨b.block, b.config.observing traceTicks sections⟩

section Observing

variable (traceTicks : Bool) (sections : List String)

theorem edgesOf_observing (c : Command) :
    (b.observing traceTicks sections).edgesOf c = b.edgesOf c := by
  cases c with
  | _ => rfl

theorem readOff_observing (bits : List Bool) (c : Command) :
    (b.observing traceTicks sections).readOff bits c = b.readOff bits c := by
  cases c with
  | _ => rfl

theorem clockAll_observing (commands : List Command) :
    (b.observing traceTicks sections).clockAll commands = b.clockAll commands := by
  have hclock : (b.observing traceTicks sections).clock = b.clock := by
    funext r c
    rw [clock, clock, edgesOf_observing]
    rfl
  rw [clockAll, clockAll, hclock]

end Observing

theorem asked_execute (c : Command) :
    Event.asked (b.execute s c).events = s.registers.askedOver b.block (b.edgesOf c) := by
  rw [Event.asked, samples_execute, flatMap_asked_samplesOf]

/-- After any commands, the next one finds and leaves the registers of a bare fixture that is
clocked through the same edges. It applies the edges that belong to it, samples the bits on the
bare serial output, asks the block for the same patterns and answers with what is read off the bits.
None of this depends on whether a trace is kept or on the sections that are wanted. -/
theorem session_clocks_bare_registers (commands : List Command) (c : Command)
    (traceTicks : Bool) (sections : List String) :
    let r := b.clockAll commands
    let bits := r.outputs b.block (b.edgesOf c)
    let x := b.execute (b.session commands) c
    let b' := b.observing traceTicks sections
    let x' := b'.execute (b'.session commands) c
    ((b.session commands).registers = r ∧ x.session.registers = b.clockAll (commands ++ [c])) ∧
    (Event.samples x.events).map Sample.edge = b.edgesOf c ∧
    (Event.samples x.events).map Sample.out = bits ∧
    Event.asked x.events = r.askedOver b.block (b.edgesOf c) ∧
    x.result = b.readOff bits c ∧
    (x'.result = x.result ∧ x'.session.registers = x.session.registers ∧
      Event.asked x'.events = Event.asked x.events) := by
  intro r bits x b' x'
  have hr : (b.session commands).registers = r := b.registers_session_eq_clockAll commands
  have hr' : (b'.session commands).registers = r := by
    rw [b'.registers_session_eq_clockAll, clockAll_observing]
  have hedges : b'.edgesOf c = b.edgesOf c := b.edgesOf_observing traceTicks sections c
  refine ⟨⟨hr, ?_⟩, ?_, ?_, ?_, ?_, ?_, ?_, ?_⟩
  · rw [← session_append_singleton, registers_session_eq_clockAll]
  · rw [samples_execute, map_edge_samplesOf]
  · rw [samples_execute, map_out_samplesOf, hr]
  · rw [asked_execute, hr]
  · rw [result_execute_eq_readOff, hr]
  · rw [result_execute_eq_readOff, result_execute_eq_readOff, readOff_observing, hr, hr', hedges]
    rfl
  · rw [← session_append_singleton, ← session_append_singleton, registers_session_eq_clockAll,
      registers_session_eq_clockAll, clockAll_observing]
  · rw [asked_execute, asked_execute, hr, hr', hedges]
    rfl

end Bench

end LutFixture
