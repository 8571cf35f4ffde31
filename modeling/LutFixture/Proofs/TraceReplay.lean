import LutFixture.Proofs.Counting

/-!
# The trace as a replay of the session

A kept trace has one record for every edge since the last reset and nothing else. Record `i` bears
the number `i`, shows edge `i` of the history, and shows the registers that this edge makes of the
ones that the record before it shows (`TraceRecord.ShownBefore`). So the registers can be replayed
from the edges of the trace, and all counters recomputed from its bytes and bits
(`Counters.ofTrace`).
-/

namespace LutFixture

namespace TraceRecord

/-- What the lines carried into the edge of a record. -/
def edge (r : TraceRecord) : Edge := ⟨r.serialIn, r.strobe⟩

/-- The registers before the edge of record `i`: the ones that the record in front of it shows, and
those of power-on in front of the first. -/
def ShownBefore (records : Array TraceRecord) : Nat → Registers → Prop
  | 0, r => r = .reset
  | i + 1, r => ∃ x, records[i]? = some x ∧ x.Shows r

/-- Different patterns have different bytes. -/
theorem injective_byte : Function.Injective fun p : Pattern => UInt8.ofNat p.toNat := by
  intro p q h
  have hbytes := congrArg UInt8.toNat h
  rw [toNat_ofNat_toNat (by decide), toNat_ofNat_toNat (by decide)] at hbytes
  exact BitVec.eq_of_toNat_eq hbytes

end TraceRecord

/-- The counters, recomputed from the records of a trace. -/
def Counters.ofTrace (records : List TraceRecord) : Counters where
  ticks := records.length
  strobes := records.countP (·.strobe)
  latchChanges := changes (0 :: (records.filter (·.strobe)).map (·.latched))
  serialInOnes := records.countP (·.serialIn)
  serialOutOnes := records.countP (·.serialOut)
  serialOutToggles := changes (false :: records.map (·.serialOut))

theorem Counters.ofTrace_map_ofSample (xs : List Sample) :
    ofTrace (xs.map .ofSample) =
      { ticks := xs.length
        strobes := xs.countP (·.edge.strobe)
        latchChanges := changes (0 :: Sample.latches xs)
        serialInOnes := xs.countP (·.edge.serialIn)
        serialOutOnes := xs.countP Sample.out
        serialOutToggles := changes (false :: xs.map Sample.out) } := by
  simp only [ofTrace, List.length_map, List.countP_map, List.filter_map, List.map_map,
    ← changes_map TraceRecord.injective_byte, List.map_cons, Sample.latches]
  rfl

theorem Session.trace_recordAll (s : Session) (xs : List Sample) :
    (s.recordAll xs).trace =
      s.trace.map fun records => records ++ (xs.map TraceRecord.ofSample).toArray := by
  induction xs generalizing s with
  | nil => simp
  | cons x xs ih =>
      rw [recordAll_cons, ih, record, Option.map_map]
      congr 1
      funext records
      simp

namespace Bench

variable (b : Bench) (s : Session)

/-- Each sample of a drive, with the registers on both sides of its edge. -/
theorem getElem_samplesOf (edges : Stimulus) {i : Nat} (h : i < (b.samplesOf edges s).length)
    (h' : i < edges.length) :
    (b.samplesOf edges s)[i] =
      ⟨s.counters.ticks + i, edges[i], s.registers.run b.block (edges.take i),
        s.registers.run b.block (edges.take (i + 1))⟩ := by
  induction edges generalizing s i with
  | nil => exact absurd h' (Nat.not_lt_zero i)
  | cons e es ih =>
      cases i with
      | zero => rfl
      | succ i =>
          -- The drive goes on from a session that counts one edge more, so the numbers agree.
          have hi : i < es.length := Nat.lt_of_succ_lt_succ h'
          have hi' : i < (b.samplesOf es (s.record (b.sample e s))).length := by
            rwa [length_samplesOf]
          calc
            (b.samplesOf (e :: es) s)[i + 1] =
                (b.samplesOf es (s.record (b.sample e s)))[i] := rfl
            _ = _ := ih _ hi' hi
            _ = _ := by
              rw [Session.counters_record, Counters.ticks_record, Nat.add_assoc, Nat.add_comm 1]
              rfl

/-- The records of a drive from power-on. -/
def recordsOf (b : Bench) (edges : Stimulus) : List TraceRecord :=
  (b.samplesOf edges b.powerOn).map TraceRecord.ofSample

@[simp] theorem length_recordsOf (edges : Stimulus) :
    (b.recordsOf edges).length = edges.length := by
  rw [recordsOf, List.length_map, length_samplesOf]

theorem map_edge_recordsOf (edges : Stimulus) :
    (b.recordsOf edges).map (·.edge) = edges := by
  rw [recordsOf, List.map_map]
  exact b.map_edge_samplesOf b.powerOn edges

/-- A record shows the bit that is answered for its edge. -/
theorem map_serialOut_recordsOf (edges : Stimulus) :
    (b.recordsOf edges).map (·.serialOut) = Registers.reset.outputs b.block edges := by
  rw [recordsOf, List.map_map]
  exact b.map_out_samplesOf b.powerOn edges

theorem getElem_recordsOf (edges : Stimulus) {i : Nat} (h : i < (b.recordsOf edges).length)
    (h' : i < edges.length) :
    (b.recordsOf edges)[i] =
      .ofEdge i edges[i] (Registers.reset.run b.block (edges.take (i + 1))) := by
  have hticks : b.powerOn.counters.ticks + i = i := Nat.zero_add i
  simp only [recordsOf, List.getElem_map, getElem_samplesOf _ _ _ _ h', hticks]
  rfl

/-- Up to the last record, the registers before an edge are those of the edges before it. -/
theorem shownBefore_recordsOf_iff (edges : Stimulus) {i : Nat} (h : i ≤ edges.length)
    {r : Registers} :
    TraceRecord.ShownBefore (b.recordsOf edges).toArray i r ↔
      r = Registers.reset.run b.block (edges.take i) := by
  cases i with
  | zero => rfl
  | succ i =>
      have hi : i < (b.recordsOf edges).length := by rwa [length_recordsOf]
      have hshows := TraceRecord.ofEdge_shows i edges[i]
        (Registers.reset.run b.block (edges.take (i + 1)))
      rw [TraceRecord.ShownBefore, List.getElem?_toArray, List.getElem?_eq_getElem hi,
        b.getElem_recordsOf edges hi h]
      constructor
      · rintro ⟨x, hx, hr⟩
        obtain rfl := Option.some.inj hx
        exact hr.unique hshows
      · rintro rfl
        exact ⟨_, rfl, hshows⟩

/-- A record shows what its edge makes of the registers that the record before shows. -/
theorem getElem_recordsOf_shows (edges : Stimulus) {i : Nat}
    (h : i < (b.recordsOf edges).length) :
    ∃ r, (∀ r', TraceRecord.ShownBefore (b.recordsOf edges).toArray i r' ↔ r' = r) ∧
      (b.recordsOf edges)[i].Shows (r.next b.block (b.recordsOf edges)[i].edge) := by
  have hi : i < edges.length := by rwa [length_recordsOf] at h
  refine ⟨_, fun r' => b.shownBefore_recordsOf_iff edges hi.le, ?_⟩
  have hnext : Registers.reset.run b.block (edges.take (i + 1)) =
      (Registers.reset.run b.block (edges.take i)).next b.block edges[i] := by
    rw [List.take_add_one, List.getElem?_eq_getElem hi, Registers.run_append]
    rfl
  rw [getElem_recordsOf _ _ h hi, hnext]
  exact TraceRecord.ofEdge_shows i edges[i] _

theorem trace_session (commands : List Command) (alwaysTrace : Bool) :
    (b.session commands alwaysTrace).trace =
      if b.config.general.traceTicks || alwaysTrace
      then some (b.recordsOf (b.history commands)).toArray else none := by
  have hpowerOn : (b.powerOn alwaysTrace).trace =
      if b.config.general.traceTicks || alwaysTrace then some #[] else none := rfl
  rw [session_eq_recordAll, Session.trace_recordAll, hpowerOn, samplesOf_powerOn]
  by_cases h : b.config.general.traceTicks || alwaysTrace
  · rw [if_pos h, if_pos h, Option.map_some, Array.empty_append]
    rfl
  · rw [if_neg h, if_neg h, Option.map_none]

theorem ofTrace_recordsOf (commands : List Command) (alwaysTrace : Bool) :
    Counters.ofTrace (b.recordsOf (b.history commands)) =
      (b.session commands alwaysTrace).counters := by
  rw [recordsOf, Counters.ofTrace_map_ofSample, counters_session_alwaysTrace,
    counters_session_eq_samples]

/-- If a trace is kept, because the configuration asks for one or the program always keeps one, then
after any commands it replays the session since the last reset. Its records are numbered through and
bear the edges of the history. Each of them shows, in full, the registers that its edge makes of the
ones that the record in front of it shows, and the last one shows the registers at hand. And the
counters can be recomputed from the records. If no trace is asked for, a program that does not
always keep one has none. -/
theorem trace_replays_session (commands : List Command) (alwaysTrace : Bool) :
    let s := b.session commands alwaysTrace
    (b.config.general.traceTicks = true ∨ alwaysTrace = true → ∃ records : Array TraceRecord,
      s.trace = some records ∧ records.size = s.counters.ticks ∧
      records.toList.map (fun x => ⟨x.serialIn, x.strobe⟩) = b.history commands ∧
      (∀ i : Fin records.size, records[i].tick = i ∧
        ∃ r, (∀ r', TraceRecord.ShownBefore records i r' ↔ r' = r) ∧
          records[i].Shows (r.next b.block ⟨records[i].serialIn, records[i].strobe⟩)) ∧
      (∀ r, TraceRecord.ShownBefore records records.size r ↔ r = s.registers) ∧
      s.counters = Counters.ofTrace records.toList) ∧
    (b.config.general.traceTicks = false → alwaysTrace = false → s.trace = none) := by
  intro s
  have htrace := b.trace_session commands alwaysTrace
  constructor
  · intro h
    rw [if_pos (Bool.or_eq_true_iff.2 h)] at htrace
    have hsize : (b.recordsOf (b.history commands)).toArray.size = (b.history commands).length := by
      rw [List.size_toArray, length_recordsOf]
    have hcounters := b.ofTrace_recordsOf commands alwaysTrace
    refine ⟨_, htrace, ?_, b.map_edge_recordsOf _, ?_, ?_, hcounters.symm⟩
    · exact congrArg Counters.ticks hcounters
    · rintro ⟨i, hi⟩
      have hi' : i < (b.history commands).length := by rwa [hsize] at hi
      refine ⟨?_, b.getElem_recordsOf_shows _ hi⟩
      exact congrArg TraceRecord.tick (b.getElem_recordsOf _ hi hi')
    · intro r
      rw [hsize, b.shownBefore_recordsOf_iff _ le_rfl, List.take_length, ← b.registers_session]
  · rintro hnone rfl
    rw [htrace, hnone]
    rfl

/-- A reset and a refused stimulus on the way: the trace shows the two edges since the reset, and
its second record the registers at hand. The same commands leave no trace where none is asked for,
unless the program always keeps one. -/
theorem trace_replays_session_reset_refused :
    let config (traceTicks : Bool) : Configuration := { general := { traceTicks, maxTicks := 1 } }
    let b (traceTicks : Bool) : Bench := ⟨fun p => p == 0, config traceTicks⟩
    let commands : List Command :=
      [.load 33, .reset, .tick ⟨true, true⟩, .run [⟨false, false⟩, ⟨true, false⟩], .unload]
    ((b true).config.general.traceTicks = true ∧ ∃ records : Array TraceRecord,
      ((b true).session commands).trace = some records ∧ records.size = 2 ∧
      records.toList.map (fun x => (⟨x.serialIn, x.strobe⟩ : Edge)) =
        [⟨true, true⟩, ⟨false, true⟩] ∧
      TraceRecord.ShownBefore records 2 ⟨⟨2⟩, ⟨0⟩, 2⟩) ∧
    ((b false).config.general.traceTicks = false ∧ ((b false).session commands).trace = none ∧
      ((b false).session commands true).trace.isSome = true) := by
  intro config b commands
  obtain ⟨records, htrace, hsize, hedges, -, hlast, -⟩ :=
    ((b true).trace_replays_session commands false).1 (.inl rfl)
  have hnone := ((b false).trace_replays_session commands false).2 rfl rfl
  obtain ⟨_, halways, -⟩ := ((b false).trace_replays_session commands true).1 (.inr rfl)
  have hregisters : ((b true).session commands).registers = ⟨⟨2⟩, ⟨0⟩, 2⟩ := by decide
  rw [hsize, hregisters] at hlast
  have hkept := Option.isSome_of_eq_some halways
  exact ⟨⟨rfl, records, htrace, hsize, hedges, (hlast _).2 rfl⟩, rfl, hnone, hkept⟩

end Bench

end LutFixture
