import LutFixture.Bench.Command

/-!
# The edges that a step applies

Whatever an operation does, short of a reset, comes down to a sequence of edges: the samples among
its events are the ones that these edges give from the session at hand, and the session it leaves
is the old one with these samples recorded. `Step.Applies` says so of one step. It is kept by
`Step.map` and by `Step.bind`, which puts the edges one behind the other, and everything that can
be counted or read off a step follows from it: the registers, the bits sampled, the patterns that
the block was asked for, and the cost in edges and strobes (`Step.Costs`).
-/

namespace LutFixture

namespace Registers

/-- The patterns that the block is asked for during a sequence of edges. -/
def askedOver (f : Block) : Registers → List Edge → List Pattern
  | _, [] => []
  | r, e :: es => r.asked e ++ askedOver f (r.next f e) es

theorem askedOver_append (f : Block) (r : Registers) (a b : List Edge) :
    r.askedOver f (a ++ b) = r.askedOver f a ++ (r.run f a).askedOver f b := by
  induction a generalizing r with
  | nil => rfl
  | cons e es ih => rw [List.cons_append, askedOver, askedOver, ih, run_cons, List.append_assoc]

theorem getLast?_outputs (f : Block) (r : Registers) {edges : List Edge} (h : edges ≠ []) :
    (r.outputs f edges).getLast? = some (r.run f edges).serialOut := by
  have hlast : edges.dropLast ++ [edges.getLast h] = edges := List.dropLast_concat_getLast h
  rw [← hlast, outputs_append, run_append]
  simp [outputs]

end Registers

theorem countP_cons_eq_toNat_add {α : Type} (p : α → Bool) (x : α) (xs : List α) :
    (x :: xs).countP p = (p x).toNat + xs.countP p := by
  rw [List.countP_cons, Nat.add_comm]
  cases p x <;> rfl

/-- The counters with some samples more, each property counted over all of them at once. -/
def Counters.count (c : Counters) (xs : List Sample) : Counters where
  ticks := c.ticks + xs.length
  strobes := c.strobes + xs.countP (·.edge.strobe)
  latchChanges := c.latchChanges + xs.countP Sample.relatches
  serialInOnes := c.serialInOnes + xs.countP (·.edge.serialIn)
  serialOutOnes := c.serialOutOnes + xs.countP Sample.out
  serialOutToggles := c.serialOutToggles + xs.countP Sample.toggles

theorem Counters.count_record (c : Counters) (x : Sample) (xs : List Sample) :
    (c.record x).count xs = c.count (x :: xs) := by
  simp only [count, record, List.length_cons, countP_cons_eq_toNat_add, Nat.add_assoc,
    Nat.add_comm 1]

namespace Session

/-- The session with some samples more. -/
def recordAll (s : Session) (xs : List Sample) : Session := xs.foldl record s

@[simp] theorem recordAll_nil (s : Session) : s.recordAll [] = s := rfl

@[simp] theorem recordAll_cons (s : Session) (x : Sample) (xs : List Sample) :
    s.recordAll (x :: xs) = (s.record x).recordAll xs := rfl

theorem recordAll_append (s : Session) (xs ys : List Sample) :
    s.recordAll (xs ++ ys) = (s.recordAll xs).recordAll ys := by
  simp [recordAll, List.foldl_append]

theorem cleared_recordAll (s : Session) (xs : List Sample) :
    (s.recordAll xs).cleared = s.cleared := by
  induction xs generalizing s with
  | nil => rfl
  | cons x xs ih => rw [recordAll_cons, ih, cleared_record]

theorem counters_recordAll (s : Session) (xs : List Sample) :
    (s.recordAll xs).counters = s.counters.count xs := by
  induction xs generalizing s with
  | nil => rfl
  | cons x xs ih => rw [recordAll_cons, ih, counters_record, Counters.count_record]

end Session

namespace Bench

/-- The samples that a sequence of edges gives. -/
def samplesOf (b : Bench) : Stimulus → Session → List Sample
  | [], _ => []
  | e :: es, s => b.sample e s :: b.samplesOf es (s.record (b.sample e s))

variable (b : Bench) (s : Session)

theorem samplesOf_append (x y : Stimulus) :
    b.samplesOf (x ++ y) s =
      b.samplesOf x s ++ b.samplesOf y (s.recordAll (b.samplesOf x s)) := by
  induction x generalizing s with
  | nil => rfl
  | cons e es ih => rw [List.cons_append, samplesOf, ih]; rfl

theorem registers_recordAll_samplesOf (edges : Stimulus) :
    (s.recordAll (b.samplesOf edges s)).registers = s.registers.run b.block edges := by
  induction edges generalizing s with
  | nil => rfl
  | cons e es ih => rw [samplesOf, Session.recordAll_cons, ih]; rfl

theorem map_edge_samplesOf (edges : Stimulus) :
    (b.samplesOf edges s).map Sample.edge = edges := by
  induction edges generalizing s with
  | nil => rfl
  | cons e es ih => rw [samplesOf, List.map_cons, ih]; rfl

theorem length_samplesOf (edges : Stimulus) : (b.samplesOf edges s).length = edges.length := by
  rw [← List.length_map, map_edge_samplesOf]

theorem countP_edge_samplesOf (p : Edge → Bool) (edges : Stimulus) :
    (b.samplesOf edges s).countP (fun x => p x.edge) = edges.countP p := by
  conv => rhs; rw [← b.map_edge_samplesOf s edges, List.countP_map]
  rfl

theorem map_out_samplesOf (edges : Stimulus) :
    (b.samplesOf edges s).map Sample.out = s.registers.outputs b.block edges := by
  induction edges generalizing s with
  | nil => rfl
  | cons e es ih => rw [samplesOf, List.map_cons, ih]; rfl

theorem flatMap_asked_samplesOf (edges : Stimulus) :
    (b.samplesOf edges s).flatMap Sample.asked = s.registers.askedOver b.block edges := by
  induction edges generalizing s with
  | nil => rfl
  | cons e es ih => rw [samplesOf, List.flatMap_cons, ih]; rfl

end Bench

namespace Step

variable {α β : Type} {b : Bench} {s : Session}

/-- The step is what the edges, applied one after the other, make of the session. -/
structure Applies (b : Bench) (edges : Stimulus) (s : Session) (x : Step α) : Prop where
  samples_eq : Event.samples x.events = b.samplesOf edges s
  session_eq : x.session = s.recordAll (b.samplesOf edges s)

/-- The step applied so many edges, so many of them strobes, and the counters say the same. -/
structure Costs (edges strobes : Nat) (s : Session) (x : Step α) : Prop where
  samples : (Event.samples x.events).length = edges
  strobeSamples : (Event.samples x.events).countP (·.edge.strobe) = strobes
  ticks : x.session.counters.ticks = s.counters.ticks + edges
  strobes : x.session.counters.strobes = s.counters.strobes + strobes

namespace Applies

variable {edges : Stimulus} {x : Step α}

theorem nil {a : α} {events : List Event} (h : Event.samples events = []) :
    Applies b [] s ⟨a, events, s⟩ := ⟨h, rfl⟩

theorem map (h : x.Applies b edges s) (g : α → β) : (x.map g).Applies b edges s :=
  ⟨h.samples_eq, h.session_eq⟩

theorem bind {more : Stimulus} {g : α → Session → Step β} (h : x.Applies b edges s)
    (hg : (g x.result x.session).Applies b more x.session) :
    (x.bind g).Applies b (edges ++ more) s := by
  obtain ⟨hsamples, hsession⟩ := hg
  rw [h.session_eq] at hsamples hsession
  constructor
  · rw [events_bind, Event.samples_append, h.samples_eq, h.session_eq, hsamples,
      Bench.samplesOf_append]
  · rw [session_bind, h.session_eq, hsession, Bench.samplesOf_append, Session.recordAll_append]

theorem registers (h : x.Applies b edges s) :
    x.session.registers = s.registers.run b.block edges := by
  rw [h.session_eq, Bench.registers_recordAll_samplesOf]

theorem outputs (h : x.Applies b edges s) :
    (Event.samples x.events).map Sample.out = s.registers.outputs b.block edges := by
  rw [h.samples_eq, Bench.map_out_samplesOf]

/-- The last bit sampled stays on the serial output. -/
theorem getLast?_out (h : x.Applies b edges s) (hne : edges ≠ []) :
    ((Event.samples x.events).map Sample.out).getLast? = some x.session.registers.serialOut := by
  rw [h.outputs, Registers.getLast?_outputs _ _ hne, h.registers]

theorem asked (h : x.Applies b edges s) :
    Event.asked x.events = s.registers.askedOver b.block edges := by
  rw [Event.asked, h.samples_eq, Bench.flatMap_asked_samplesOf]

theorem costs (h : x.Applies b edges s) :
    x.Costs edges.length (edges.countP (·.strobe)) s := by
  have hlength := b.length_samplesOf s edges
  have hstrobes := b.countP_edge_samplesOf s Edge.strobe edges
  constructor
  · rw [h.samples_eq, hlength]
  · rw [h.samples_eq, hstrobes]
  · rw [h.session_eq, Session.counters_recordAll, Counters.count, hlength]
  · rw [h.session_eq, Session.counters_recordAll, Counters.count, hstrobes]

end Applies

end Step

namespace Bench

variable (b : Bench) (s : Session)

theorem tick_applies (e : Edge) : (b.tick e s).Applies b [e] s := ⟨rfl, rfl⟩

theorem drive_applies (edges : Stimulus) : (b.drive edges s).Applies b edges s := by
  induction edges generalizing s with
  | nil => exact .nil rfl
  | cons e es ih =>
      rw [drive_cons]
      exact (b.tick_applies s e).bind ((ih _).map _)

/-- One command after the other; the answer is the list of their answers. -/
def perform (b : Bench) : List Command → Session → Step (List (Except Fault Answer))
  | [], s => ⟨[], [], s⟩
  | c :: cs, s => (b.execute s c).bind fun answer s => (b.perform cs s).map (answer :: ·)

theorem session_perform (commands : List Command) :
    (b.perform commands s).session = b.sessionAfter s commands := by
  induction commands generalizing s with
  | nil => rfl
  | cons c cs ih => rw [perform, Step.session_bind, Step.session_map, ih, sessionAfter_cons]

theorem result_perform_cons (c : Command) (cs : List Command) :
    (b.perform (c :: cs) s).result =
      (b.execute s c).result :: (b.perform cs (b.execute s c).session).result := rfl

theorem perform_cons_applies {c : Command} {cs : List Command} {edges more : Stimulus}
    (h : (b.execute s c).Applies b edges s)
    (hs : (b.perform cs (b.execute s c).session).Applies b more (b.execute s c).session) :
    (b.perform (c :: cs) s).Applies b (edges ++ more) s :=
  h.bind (hs.map _)

end Bench

end LutFixture
