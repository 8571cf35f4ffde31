import LutFixture.Proofs.ExitStatus
import LutFixture.Proofs.Json.Compact
import LutFixture.Proofs.Report
import LutFixture.Proofs.TraceReplay
import LutFixture.Proofs.Transparency

/-!
# The two outputs of a run

A run prints either the bits that the bench answers with or the trace that the bench has kept
meanwhile, and a trace is switched on where it is to be printed. That switch is not seen by the
registers or by the counters (`Bench.reference_tracing`), so both outputs tell of the same edges:
line `i` of a printed trace shows the bit at place `i` of the printed bits
(`CommandLine.run_prints_bits_or_trace`). What a line of a trace looks like is said without the
printer for JSON (`TraceRecord.lineText`). The report behind the lines is the same up to the figures
of the wall clock.
-/

namespace LutFixture

/-! ### Lines of the outputs -/

theorem Bits.newline_notMem_text (bits : List Bool) : '\n' ∉ (text bits).toList := by
  have hdigit : ∀ b, '\n' ≠ digit b := by decide
  rw [text, String.toList_ofList, List.mem_map]
  rintro ⟨b, -, hb⟩
  exact hdigit b hb.symm

namespace TraceRecord

/-- A field in a line of a trace. -/
def fieldText (name value : String) : String := "\"" ++ name ++ "\":" ++ value

/-- A truth value in a line of a trace. -/
def truthText (b : Bool) : String := if b then "true" else "false"

/-- The line of a trace for edge number `i`, which made these registers and brought a bit onto the
serial output. -/
def lineText (i : Nat) (e : Edge) (after : Registers) (bit : Bool) : String :=
  "\x7b" ++ ",".intercalate [
    fieldText "tick" (toString i),
    fieldText "serial_in" (truthText e.serialIn),
    fieldText "strobe" (truthText e.strobe),
    fieldText "din" (toString after.input.value),
    fieldText "dout" (toString after.output.value),
    fieldText "latched" (toString after.latched.toNat),
    fieldText "serial_out" (truthText bit)] ++ "\x7d"

theorem compact_boolean (b : Bool) : (Json.Value.boolean b).compact = truthText b := by
  cases b <;> rfl

theorem fieldText_eq {name : String} (h : (Json.Value.string name).compact = "\"" ++ name ++ "\"")
    (value : String) : (Json.Value.string name).compact ++ ":" ++ value = fieldText name value := by
  have hcolon : "\":" = "\"" ++ ":" := rfl
  rw [h, fieldText, hcolon]
  simp only [String.append_assoc]

/-- The line in which a record is printed. -/
theorem compact_json_ofEdge (i : Nat) (e : Edge) (after : Registers) :
    (ofEdge i e after).json.compact = lineText i e after after.serialOut := by
  have hshows := ofEdge_shows i e after
  rw [json, Json.Value.compact_object, lineText, ← hshows.din, ← hshows.dout, ← hshows.latched]
  simp only [List.map_cons, List.map_nil, Json.Value.compact_natural, compact_boolean]
  simp (disch := decide) only [fieldText_eq]
  rfl

end TraceRecord

theorem Counters.ticks_mem_reportLines (c : Counters) (clock : WallClock) {sections : List Section}
    (h : .summary ∈ sections) :
    "sim_ticks                " ++ toString c.ticks ∈ c.reportLines clock sections := by
  have hline : "sim_ticks                " ++ toString c.ticks ∈ c.sectionLines clock .summary :=
    .tail _ (.head _)
  rw [reportLines]
  exact List.mem_append_left _ (List.mem_append_right _ (List.mem_flatMap.2 ⟨_, h, hline⟩))

/-! ### The same bench with a trace -/

namespace Bench

variable (b : Bench) (traceTicks : Bool) (sections : List String) {edges : Stimulus}

theorem reference_tracing (config : Configuration) (also : Bool) :
    reference (config.tracing also) =
      (reference config).observing (config.general.traceTicks || also)
        config.statistics.sections := rfl

theorem history_observing (commands : List Command) :
    (b.observing traceTicks sections).history commands = b.history commands := by
  have hextend : (b.observing traceTicks sections).extend = b.extend := by
    funext edges c
    rw [extend, extend, edgesOf_observing]
  rw [history, history, hextend]

theorem counters_session_observing (commands : List Command) :
    ((b.observing traceTicks sections).session commands).counters =
      (b.session commands).counters := by
  rw [counters_session, counters_session, history_observing]
  rfl

theorem recordsOf_observing (edges : Stimulus) :
    (b.observing traceTicks sections).recordsOf edges = b.recordsOf edges := by
  apply List.ext_getElem
  · rw [length_recordsOf, length_recordsOf]
  · intro i hi hi'
    have hi'' : i < edges.length := by rwa [length_recordsOf] at hi
    rw [getElem_recordsOf _ _ hi hi'', getElem_recordsOf _ _ hi' hi'']
    rfl

theorem history_run_of_not_lt (h : ¬ b.config.general.maxTicks.toNat < edges.length) :
    b.history [.run edges] = edges := by
  have hhistory : b.history [.run edges] = b.edgesOf (.run edges) := rfl
  rw [hhistory, edgesOf, if_neg h]

/-- A run from power-on with another choice of what is kept and shown: only the trace sees it. -/
theorem runOrRefuse_observing (h : ¬ b.config.general.maxTicks.toNat < edges.length) :
    let b' := b.observing traceTicks sections
    let x := b'.runOrRefuse edges b'.powerOn
    x.result = .ok (Registers.reset.outputs b.block edges) ∧
    x.session.counters = (b.session [.run edges]).counters ∧
    x.session.trace = if traceTicks then some (b.recordsOf edges).toArray else none := by
  intro b' x
  have hsession : x.session = b'.session [.run edges] := rfl
  refine ⟨result_runOrRefuse_of_not_lt b'.powerOn h, ?_, ?_⟩
  · rw [hsession, counters_session_observing]
  · rw [hsession, trace_session, history_run_of_not_lt b' h, recordsOf_observing, Bool.or_false]
    rfl

end Bench

namespace CommandLine

variable {config : Configuration} {files : String → File} {path : String}
  {traceJson stats : Bool} {edges : Stimulus}

/-- What a run that goes through shows of its edges: a line for each of them, or all bits in one
line. -/
def shownLines (traceJson : Bool) (bits : List Bool) (lines : List String) : List String :=
  if traceJson then lines else [String.ofList (bits.map fun b => if b then '1' else '0')]

theorem stdout_performRun_of_not_lt (h : (files path).stimulus path = .ok edges)
    (hfits : ¬ config.general.maxTicks.toNat < edges.length) (clock : WallClock) :
    let b := Bench.reference config
    let lines := (b.recordsOf edges).map (·.json.compact)
    let counters := (b.session [.run edges]).counters
    (performRun config files path traceJson stats).stdout clock =
      unlines (shownLines traceJson (Registers.reset.outputs b.block edges) lines ++
        if stats then counters.reportLines clock (Section.wanted config.statistics.sections)
        else []) := by
  intro b lines counters
  obtain ⟨hresult, hcounters, htrace⟩ := (Bench.reference config).runOrRefuse_observing
    (config.general.traceTicks || traceJson) config.statistics.sections hfits
  rw [performRun, h]
  simp only [Bench.reference_tracing, hresult, hcounters, htrace, Counters.report_eq_unlines]
  rw [unlines_append]
  congr 1
  · cases traceJson with
    | false => exact (unlines_singleton _).symm
    | true =>
        rw [if_pos rfl, if_pos (Bool.or_true _), Option.getD_some, shownLines, if_pos rfl, unlines,
          List.map_map]
        rfl
  · cases stats <;> rfl

theorem outcome_of_success (logName : Option String) {args : List String} {i : Invocation}
    (hrequest : readRequest args = .ok (.task i)) (hconfig : configurationOf i files = .ok config)
    (hfault : (perform config files i.task).fault = none) :
    (outcome files logName args).exit = 0 ∧
      (outcome files logName args).stdout = (perform config files i.task).stdout := by
  rw [outcome, hrequest]
  dsimp only
  rw [execute, hconfig]
  dsimp only
  rw [hfault]
  exact ⟨rfl, rfl⟩

/-- A run of a stimulus within the limit goes through, whatever its words say that it is to print.
The bits that the registers answer with are printed in one line, or the trace in one line for each
edge; then line `i` shows the number `i`, what edge `i` carries, the registers behind it and the bit
at place `i`. The report that may be asked for counts all edges, and it is the same for both, except
for the figures of the wall clock. What the configuration says about traces makes no difference. -/
theorem run_prints_bits_or_trace {named : Option String} (hconfig : InForce files named config)
    (hedges : File.HoldsStimulus path (files path) edges)
    (hfits : edges.length ≤ config.general.maxTicks.toNat) :
    ∃ (lines : List String) (counters : Counters),
      let bits := Registers.reset.outputs TruthTable.reference.lookup edges
      let sections := config.statistics.sections
      let report (clock : WallClock) := counters.reportLines clock (Section.wanted sections)
      (bits.length = edges.length ∧ lines.length = edges.length ∧
        ∀ i e, edges[i]? = some e → ∃ bit, bits[i]? = some bit ∧
          lines[i]? = some (TraceRecord.lineText i e
            (Registers.reset.run TruthTable.reference.lookup (edges.take (i + 1))) bit)) ∧
      (∀ traceJson, ∀ line ∈ shownLines traceJson bits lines, '\n' ∉ line.toList) ∧
      (counters.ticks = edges.length ∧ ∀ clock clock',
        (report clock).map WallClock.masked = (report clock').map WallClock.masked ∧
        (sections = [] ∨ "summary" ∈ sections →
          "sim_ticks                " ++ toString edges.length ∈ report clock)) ∧
      ∀ (logName : Option String) (args : List String) (verbose traceJson stats : Bool),
        Means args ⟨verbose, named, .run path traceJson stats⟩ →
        (outcome files logName args).exit = 0 ∧ ∀ clock,
          (outcome files logName args).stdout clock =
            unlines (shownLines traceJson bits lines ++ if stats then report clock else []) := by
  have hread : (files path).stimulus path = .ok edges := File.stimulus_eq_ok_iff.2 hedges
  have hfits' : ¬ config.general.maxTicks.toNat < edges.length := not_lt_of_ge hfits
  let b := Bench.reference config
  have hticks : (b.session [.run edges]).counters.ticks = edges.length := by
    rw [b.counters_session, b.history_run_of_not_lt hfits']
  refine ⟨(b.recordsOf edges).map (·.json.compact), (b.session [.run edges]).counters,
    ⟨Registers.length_outputs _ _ _, ?_, ?_⟩, ?_, ⟨hticks, ?_⟩, ?_⟩
  · rw [List.length_map, b.length_recordsOf]
  · intro i e he
    obtain ⟨hi, rfl⟩ := List.getElem?_eq_some_iff.1 he
    have hi' : i < (b.recordsOf edges).length := by rwa [b.length_recordsOf]
    have hrecord := b.getElem_recordsOf edges hi' hi
    have hbit : (Registers.reset.outputs b.block edges)[i]? =
        some (Registers.reset.run b.block (edges.take (i + 1))).serialOut := by
      rw [← b.map_serialOut_recordsOf, List.getElem?_map, List.getElem?_eq_getElem hi', hrecord]
      rfl
    refine ⟨_, hbit, ?_⟩
    rw [List.getElem?_map, List.getElem?_eq_getElem hi', hrecord, Option.map_some,
      TraceRecord.compact_json_ofEdge]
    rfl
  · intro traceJson line hline
    cases traceJson with
    | false =>
        rw [List.mem_singleton.1 hline]
        exact Bits.newline_notMem_text _
    | true =>
        obtain ⟨r, -, rfl⟩ := List.mem_map.1 hline
        exact Json.Value.newline_notMem_compact r.json
  · intro clock clock'
    rw [Counters.map_masked_reportLines, Counters.map_masked_reportLines, ← hticks]
    refine ⟨rfl, fun hsummary => ?_⟩
    exact Counters.ticks_mem_reportLines _ clock (Section.mem_wanted_iff.2 hsummary)
  · intro logName args verbose traceJson stats hmeans
    obtain ⟨hexit, hstdout⟩ := outcome_of_success logName (readRequest_eq_task_iff.2 hmeans)
      (configurationOf_eq_ok_iff.2 hconfig) (fault_performRun_of_not_lt hread hfits')
    rw [hexit, hstdout]
    exact ⟨rfl, stdout_performRun_of_not_lt hread hfits'⟩

/-- Two edges under a configuration that asks for a trace: without the option for it the bits are
printed all the same, and with it two records, here with the report behind them. -/
theorem run_prints_bits_or_trace_two_edges :
    let tracing : String := "\x7b\"general\":\x7b\"trace_ticks\":true\x7d\x7d"
    let files : String → File := fun path =>
      if path = "c.json" then .contents tracing.toUTF8 else .contents "1\n0 1".toUTF8
    let plain := ["-c", "c.json", "run", "s.txt"]
    let traced := ["run", "--config=c.json", "s.txt", "--trace-json", "--stats"]
    (InForce files (some "c.json") { general := { traceTicks := true } } ∧
      File.HoldsStimulus "s.txt" (files "s.txt") [⟨true, false⟩, ⟨false, true⟩] ∧
      2 ≤ defaultMaxTicks.toNat ∧
      Means plain ⟨false, some "c.json", .run "s.txt" false false⟩ ∧
      Means traced ⟨false, some "c.json", .run "s.txt" true true⟩) ∧
    (∀ clock, (outcome files none plain).stdout clock = "01\n") ∧
    ∃ counters : Counters, counters.ticks = 2 ∧
      ∀ clock, (outcome files none traced).stdout clock = unlines ([
        "\x7b\"tick\":0,\"serial_in\":true,\"strobe\":false,\"din\":1,\"dout\":0,\"latched\":0," ++
          "\"serial_out\":false\x7d",
        "\x7b\"tick\":1,\"serial_in\":false,\"strobe\":true,\"din\":2,\"dout\":1,\"latched\":2," ++
          "\"serial_out\":true\x7d"] ++ counters.reportLines clock Section.all) := by
  intro tracing files plain traced
  have hplain : Means plain ⟨false, some "c.json", .run "s.txt" false false⟩ :=
    readRequest_eq_task_iff.1 rfl
  have htraced : Means traced ⟨false, some "c.json", .run "s.txt" true true⟩ :=
    readRequest_eq_task_iff.1 rfl
  have hconfig : InForce files (some "c.json") { general := { traceTicks := true } } :=
    @InForce.named files "c.json" _ (File.yields_contents (by decide +kernel))
  have hedges : File.HoldsStimulus "s.txt" (files "s.txt") [⟨true, false⟩, ⟨false, true⟩] :=
    .inr ⟨by decide, File.yields_contents rfl⟩
  obtain ⟨lines, counters, ⟨-, hlength, hlines⟩, -, ⟨hticks, -⟩, houtcome⟩ :=
    run_prints_bits_or_trace hconfig hedges (by decide)
  obtain ⟨first, second, rfl⟩ := List.length_eq_two.1 hlength
  obtain ⟨bit, hbit, hfirst⟩ := hlines 0 _ rfl
  obtain ⟨bit', hbit', hsecond⟩ := hlines 1 _ rfl
  obtain rfl := Option.some.inj hbit
  obtain rfl := Option.some.inj hbit'
  refine ⟨⟨hconfig, hedges, by decide, hplain, htraced⟩, ?_, counters, hticks, ?_⟩
  · intro clock
    exact (houtcome none plain false false false hplain).2 clock
  · intro clock
    rw [(houtcome none traced false true true htraced).2 clock, Option.some.inj hfirst,
      Option.some.inj hsecond]
    rfl

end CommandLine

end LutFixture
