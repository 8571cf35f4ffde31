import LutFixture.Log
import LutFixture.Proofs.CounterBounds
import LutFixture.Proofs.TraceReplay

/-!
# What the log tells about the latch

Among the log lines since the last reset, those about the latch tell the changes of the latched
pattern and nothing else (`Event.filter_tellsLatch_flatMap_logLines`), and each of them tells all of
its change (`LogLine.injective_ofLatchChange`). They leave none out: each change starts from the
pattern that the change before it has led to, the first one from the zero of power-on, and the last
one leads to the pattern that is latched now (`Bench.latch_log_is_chain`).

How edges were grouped into commands does not show in that chain. It is one of drives
(`Bench.chain_latchChanges`), where an edge that is not told leaves the latch alone, and what has
happened since the last reset is a drive of the history from power-on
(`Bench.samples_eventsSinceReset`).
-/

namespace LutFixture

namespace Sample

/-- The changes of the latched pattern among some samples, in order. -/
def latchChanges (xs : List Sample) : List LatchChange := xs.filterMap latchChange?

theorem latchChanges_append (xs ys : List Sample) :
    latchChanges (xs ++ ys) = latchChanges xs ++ latchChanges ys := List.filterMap_append

theorem latchChanges_cons (x : Sample) (xs : List Sample) :
    latchChanges (x :: xs) = x.latchChange?.toList ++ latchChanges xs := by
  rw [latchChanges, List.filterMap_cons]
  cases x.latchChange? <;> rfl

theorem latchChange?_eq_some_iff {x : Sample} {c : LatchChange} :
    x.latchChange? = some c ↔
      (x.edge.strobe = true ∧ x.before.latched ≠ x.after.latched) ∧
        ⟨x.tick, x.before.latched, x.after.latched⟩ = c := by
  rw [latchChange?, Option.ite_none_right_eq_some, relatches, Bool.and_eq_true_iff, bne_iff_ne,
    Option.some.injEq]

theorem isSome_latchChange? (x : Sample) : x.latchChange?.isSome = x.relatches := by
  rw [latchChange?]
  cases x.relatches <;> rfl

theorem length_latchChanges (xs : List Sample) :
    (latchChanges xs).length = xs.countP relatches := by
  rw [latchChanges, List.length_filterMap_eq_countP]
  apply List.countP_congr
  intro x _
  rw [isSome_latchChange?]

theorem map_tick_latchChanges_sublist (xs : List Sample) :
    ((latchChanges xs).map (·.tick)).Sublist (xs.map Sample.tick) := by
  induction xs with
  | nil => exact .slnil
  | cons x xs ih =>
      rw [latchChanges_cons, List.map_append, List.map_cons]
      cases h : x.latchChange? with
      | none => exact ih.cons _
      | some c =>
          obtain ⟨-, rfl⟩ := latchChange?_eq_some_iff.1 h
          exact ih.cons_cons _

end Sample

/-! ### Log lines -/

theorem injective_toString_nat : Function.Injective (toString : Nat → String) := by
  intro n m h
  have hdigits : Nat.toDigits 10 n = Nat.toDigits 10 m := String.ofList_injective h
  rw [← Nat.ofDigitChars_toDigits (b := 10) (n := n) (by decide) (by decide), hdigits,
    Nat.ofDigitChars_toDigits (by decide) (by decide)]

theorem Bits.injective_text : Function.Injective text := by
  have hdigit : Function.Injective digit := by decide
  intro x y h
  exact List.map_injective_iff.2 hdigit (String.ofList_injective h)

/-- The six digits tell the pattern. -/
theorem Pattern.injective_text : Function.Injective text := by
  intro p q h
  have hbits : Bits.msbFirst p = Bits.msbFirst q :=
    Bits.injective_text ((String.append_right_inj _).1 h)
  apply BitVec.eq_of_getMsbD_eq
  intro i hi
  exact List.map_eq_map_iff.1 hbits i (List.mem_range.2 hi)

/-- The log line is about a change of the latched pattern. -/
def LogLine.tellsLatch (l : LogLine) : Bool := l.message == "latched new vector"

/-- A line about the latch tells which change it is about. -/
theorem LogLine.injective_ofLatchChange : Function.Injective ofLatchChange := by
  rintro ⟨tick, old, new⟩ ⟨tick', old', new'⟩ h
  have hfields := congrArg fields h
  simp only [ofLatchChange, List.cons.injEq, Prod.mk.injEq, true_and, and_true] at hfields
  obtain ⟨htick, hold, hnew⟩ := hfields
  rw [injective_toString_nat htick, Pattern.injective_text hold, Pattern.injective_text hnew]

theorem LogLine.text_ofLatchChange (x : LatchChange) :
    (ofLatchChange x).text =
      "DEBUG roi_harness_core::sim::simulator: latched new vector tick=" ++ toString x.tick
        ++ " from=" ++ x.old.text ++ " to=" ++ x.new.text := by
  have hhead : "DEBUG roi_harness_core::sim::simulator: latched new vector tick=" =
    "DEBUG" ++ " " ++ "roi_harness_core::sim::simulator" ++ ": " ++ "latched new vector"
      ++ " " ++ "tick" ++ "=" := rfl
  have hfrom : " from=" = " " ++ "from" ++ "=" := rfl
  have hto : " to=" = " " ++ "to" ++ "=" := rfl
  rw [hhead, hfrom, hto]
  simp only [text, ofLatchChange, List.map_cons, List.map_nil, String.join_cons, String.join_nil,
    shownField, String.append_assoc, String.append_empty]
  rfl

namespace Event

theorem filter_tellsLatch_logLines (e : Event) :
    e.logLines.filter LogLine.tellsLatch =
      (Sample.latchChanges (samples [e])).map LogLine.ofLatchChange := by
  cases e with
  | edge x traced =>
      have hsamples : samples [.edge x traced] = [x] := rfl
      rw [hsamples, Sample.latchChanges_cons, logLines]
      cases x.latchChange? <;> cases traced <;> rfl
  | accepted n => rfl
  | mismatch m => rfl
  | swept ticks ones => rfl

/-- The log lines about the latch tell the changes of the latched pattern. -/
theorem filter_tellsLatch_flatMap_logLines (events : List Event) :
    (events.flatMap logLines).filter LogLine.tellsLatch =
      (Sample.latchChanges (samples events)).map LogLine.ofLatchChange := by
  induction events with
  | nil => rfl
  | cons e events ih =>
      rw [List.flatMap_cons, List.filter_append, filter_tellsLatch_logLines, ih, ← List.map_append,
        ← Sample.latchChanges_append, ← samples_append, List.singleton_append]

end Event

namespace Bench

variable (b : Bench) (s : Session)

/-! ### The changes of a drive -/

theorem map_tick_samplesOf (edges : Stimulus) :
    (b.samplesOf edges s).map Sample.tick = List.range' s.counters.ticks edges.length := by
  induction edges generalizing s with
  | nil => rfl
  | cons e es ih =>
      rw [samplesOf, List.map_cons, ih, List.length_cons, List.range'_succ]
      rfl

theorem getElem?_tick_of_mem_samplesOf {edges : Stimulus} {x : Sample}
    (h : x ∈ b.samplesOf edges b.powerOn) : edges[x.tick]? = some x.edge := by
  obtain ⟨i, hi, rfl⟩ := List.mem_iff_getElem.1 h
  have hi' : i < edges.length := by rwa [length_samplesOf] at hi
  have hzero : b.powerOn.counters.ticks = 0 := rfl
  rw [b.getElem_samplesOf b.powerOn edges hi hi', hzero, Nat.zero_add]
  exact List.getElem?_eq_getElem hi'

theorem pairwise_tick_latchChanges (edges : Stimulus) :
    ((Sample.latchChanges (b.samplesOf edges s)).map (·.tick)).Pairwise (· < ·) := by
  have hsublist := Sample.map_tick_latchChanges_sublist (b.samplesOf edges s)
  rw [map_tick_samplesOf] at hsublist
  exact (List.pairwise_lt_range' 1).sublist hsublist

/-- Behind the patterns from which the changes of a drive start comes the one that it leaves, and
behind the one that it finds come the patterns to which they lead. -/
theorem chain_latchChanges (edges : Stimulus) :
    let xs := b.samplesOf edges s
    (Sample.latchChanges xs).map (·.old) ++ [(s.recordAll xs).registers.latched] =
      s.registers.latched :: (Sample.latchChanges xs).map (·.new) := by
  intro xs
  induction edges generalizing s with
  | nil => rfl
  | cons e es ih =>
      have hxs : xs = b.sample e s :: b.samplesOf es (s.record (b.sample e s)) := rfl
      have hrest := ih (s.record (b.sample e s))
      rw [hxs, Sample.latchChanges_cons, Session.recordAll_cons, Sample.latchChange?]
      cases h : (b.sample e s).relatches with
      | true =>
          rw [if_pos rfl, Option.toList_some, List.singleton_append, List.map_cons,
            List.cons_append, hrest]
          rfl
      | false =>
          -- Nothing is told, and the rest starts from the same pattern.
          rw [if_neg Bool.false_ne_true, Option.toList_none, List.nil_append, hrest,
            Session.registers_record, latched_after_of_not_relatches h]

/-! ### The log since the last reset -/

/-- One more command: a reset forgets what has happened, and any other command adds its events. -/
def extendEvents (b : Bench) (x : List Event × Session) (c : Command) : List Event × Session :=
  let y := b.execute x.2 c
  (if c = .reset then [] else x.1 ++ y.events, y.session)

/-- What has happened since power-on or the last reset. -/
def eventsSinceReset (b : Bench) (commands : List Command) : List Event :=
  (commands.foldl b.extendEvents ([], b.powerOn)).1

theorem foldl_extendEvents (commands : List Command) :
    commands.foldl b.extendEvents ([], b.powerOn) =
      (b.eventsSinceReset commands, b.session commands) := by
  have hsession : (commands.foldl b.extendEvents ([], b.powerOn)).2 = b.session commands := by
    induction commands using List.reverseRecOn with
    | nil => rfl
    | append_singleton commands c ih =>
        rw [List.foldl_append, session_append_singleton, ← ih]
        rfl
  rw [← hsession]
  rfl

theorem eventsSinceReset_append_singleton (commands : List Command) (c : Command) :
    b.eventsSinceReset (commands ++ [c]) =
      if c = .reset then []
      else b.eventsSinceReset commands ++ (b.execute (b.session commands) c).events := by
  rw [eventsSinceReset, List.foldl_append, foldl_extendEvents]
  rfl

/-- The samples since the last reset are those of its history, driven from power-on. -/
theorem samples_eventsSinceReset (commands : List Command) :
    Event.samples (b.eventsSinceReset commands) =
      b.samplesOf (b.history commands) b.powerOn := by
  induction commands using List.reverseRecOn with
  | nil => rfl
  | append_singleton commands c ih =>
      rw [eventsSinceReset_append_singleton, history_append_singleton]
      by_cases hc : c = .reset
      · rw [if_pos hc, if_pos hc]
        rfl
      · rw [if_neg hc, if_neg hc, Event.samples_append, ih, samples_execute, samplesOf_append,
          session_eq_recordAll]

/-- Since the last reset, the log lines about the latch tell as many changes as have been counted,
each by its number and both its patterns, so that the lines leave no doubt about the changes. Their
numbers go up, and each is that of a strobe in the history. No change leads back to where it starts
from, and they leave none out: behind the patterns from which they start comes the one that is
latched now, and behind zero come the patterns to which they lead. -/
theorem latch_log_is_chain (commands : List Command) :
    let s := b.session commands
    let edges := b.history commands
    let told := ((b.eventsSinceReset commands).flatMap Event.logLines).filter
      (·.message == "latched new vector")
    let line (x : LatchChange) : LogLine :=
      { level := .debug
        target := "roi_harness_core::sim::simulator"
        message := "latched new vector"
        fields := [("tick", toString x.tick), ("from", x.old.text), ("to", x.new.text)] }
    ∃ changes : List LatchChange,
      (∀ others, told = others.map line ↔ others = changes) ∧
      (told.map LogLine.text = changes.map fun x =>
        "DEBUG roi_harness_core::sim::simulator: latched new vector tick=" ++ toString x.tick
          ++ " from=" ++ x.old.text ++ " to=" ++ x.new.text) ∧
      changes.length = s.counters.latchChanges ∧
      (changes.map (·.tick)).Pairwise (· < ·) ∧
      (∀ x ∈ changes, (∃ e, edges[x.tick]? = some e ∧ e.strobe = true) ∧ x.old ≠ x.new) ∧
      changes.map (·.old) ++ [s.registers.latched] = 0 :: changes.map (·.new) := by
  intro s edges told line
  let xs := b.samplesOf edges b.powerOn
  have htold : told = (Sample.latchChanges xs).map line := by
    have hfilter := Event.filter_tellsLatch_flatMap_logLines (b.eventsSinceReset commands)
    rwa [b.samples_eventsSinceReset commands] at hfilter
  have hsession : s = b.powerOn.recordAll xs := b.session_eq_recordAll commands
  refine ⟨Sample.latchChanges xs, ?_, ?_, ?_, b.pairwise_tick_latchChanges b.powerOn edges, ?_, ?_⟩
  · intro others
    rw [htold, eq_comm]
    exact (List.map_injective_iff.2 LogLine.injective_ofLatchChange).eq_iff
  · rw [htold, List.map_map]
    exact List.map_congr_left fun x _ => LogLine.text_ofLatchChange x
  · rw [hsession, Session.counters_recordAll, Sample.length_latchChanges]
    exact (Nat.zero_add _).symm
  · intro c hc
    obtain ⟨x, hx, hchange⟩ := List.mem_filterMap.1 hc
    obtain ⟨⟨hstrobe, hne⟩, rfl⟩ := Sample.latchChange?_eq_some_iff.1 hchange
    exact ⟨⟨x.edge, b.getElem?_tick_of_mem_samplesOf hx, hstrobe⟩, hne⟩
  · rw [hsession]
    exact b.chain_latchChanges b.powerOn edges

/-- Behind a reset, a load and the strobe that reads the response to it change the pattern twice; a
strobe that comes upon the pattern it has latched already is not told. -/
theorem latch_log_is_chain_two_changes :
    let b : Bench := ⟨fun _ => true, {}⟩
    let commands : List Command := [.load 5, .reset, .load 32, .unload, .tick ⟨false, true⟩]
    let told := ((b.eventsSinceReset commands).flatMap Event.logLines).filter
      (·.message == "latched new vector")
    told.map LogLine.text = [
      "DEBUG roi_harness_core::sim::simulator: latched new vector tick=5"
        ++ " from=0b000000 to=0b100000",
      "DEBUG roi_harness_core::sim::simulator: latched new vector tick=6"
        ++ " from=0b100000 to=0b000000"] ∧
    (b.session commands).counters.latchChanges = 2 ∧
    (∃ e, (b.history commands)[6]? = some e ∧ e.strobe = true) ∧
    (b.session commands).registers.latched = 0 := by
  intro b commands told
  obtain ⟨changes, hunique, htext, hlength, -, hstrobes, hchain⟩ := b.latch_log_is_chain commands
  have hchanges : [⟨5, 0, 32⟩, ⟨6, 32, 0⟩] = changes := (hunique _).1 (by decide)
  rw [← hchanges] at htext hlength hstrobes hchain
  have hlatched : (b.session commands).registers.latched = 0 :=
    Option.some.inj (congrArg (·[2]?) hchain)
  exact ⟨htext, hlength.symm, (hstrobes ⟨6, 32, 0⟩ (.tail _ (.head _))).1, hlatched⟩

end Bench

end LutFixture
