import LutFixture.Bench

/-!
# Driving patterns

A pattern is loaded by its six bits with a strobe on the last one. That strobe also reads the
response to the pattern loaded before, so a chain of loads answers each pattern one load late, and
one more strobe (`Bench.unload`) reads the last response. `Bench.sweep` is such a chain over all
patterns, each response checked against the reference table as soon as it is read.
-/

namespace LutFixture.Bench

/-- One more bit of a pattern, given with its number: the bit is shifted in, and the edge of the last
one is a strobe. -/
def shiftNext (b : Bench) (x : Step Bool) (bit : Bool × Nat) : Step Bool :=
  x.bind fun _ s => b.tick ⟨bit.1, bit.2 == inputWidth - 1⟩ s

/-- Brings a pattern to the inputs of the block, bit by bit; the answer is the bit on the serial output
after the last edge, which is the response to the pattern before. -/
def load (b : Bench) (p : Pattern) (s : Session) : Step Bool :=
  (Bits.msbFirst p).zipIdx.foldl b.shiftNext ⟨s.registers.serialOut, [], s⟩

/-- One strobe with the idle bit on the serial input; the answer is the response to the pattern at
the inputs of the block. -/
def unload (b : Bench) (s : Session) : Step Bool :=
  b.tick (Edge.latch b.config.driver.idleSerialIn) s

/-- The response to one pattern: a load and an unload. -/
def evaluate (b : Bench) (p : Pattern) (s : Session) : Step Bool :=
  (b.load p s).bind fun _ s => b.unload s

/-- Checks a response that was read for a pattern. If the reference table agrees, the pair goes in
front of what the rest of the sweep finds; if not, the sweep ends here. -/
def checked (p : Pattern) (read : Step Bool) (rest : Session → Step (Except Mismatch Responses)) :
    Step (Except Mismatch Responses) :=
  read.bind fun observed s =>
    match Mismatch.find? p observed with
    | some m => ⟨.error m, [.mismatch m], s⟩
    | none => (rest s).map fun found => found.map ((p, observed) :: ·)

/-- With `p` at the inputs of the block: the response to it is read while the next pattern is
loaded, and the last one by an unload. -/
def sweepAfter (b : Bench) (p : Pattern) :
    List Pattern → Session → Step (Except Mismatch Responses)
  | [], s => checked p (b.unload s) fun s => ⟨.ok [], [], s⟩
  | q :: qs, s => checked p (b.load q s) fun s => b.sweepAfter q qs s

/-- The responses to a list of patterns, up to the first one that the reference table denies. -/
def sweepOver (b : Bench) : List Pattern → Session → Step (Except Mismatch Responses)
  | [], s => ⟨.ok [], [], s⟩
  | p :: ps, s => (b.load p s).bind fun _ s => b.sweepAfter p ps s

/-- Asks the block for all patterns in ascending order. -/
def sweep (b : Bench) (s : Session) : Step (Except Mismatch SweepReport) :=
  (b.sweepOver Pattern.all s).bind fun found after =>
    match found with
    | .error m => ⟨.error m, [], after⟩
    | .ok responses =>
      let ticks := after.counters.ticks - s.counters.ticks
      let ones := responses.countP (·.2)
      ⟨.ok ⟨responses, ticks, ones⟩, [.swept ticks ones], after⟩

theorem shiftNext_of_lt (b : Bench) (x : Step Bool) (bit : Bool) {i : Nat} (h : i + 1 < inputWidth) :
    b.shiftNext x (bit, i) = x.bind fun _ s => b.tick (Edge.shift bit) s := by
  have hi : (i == inputWidth - 1) = false := beq_eq_false_iff_ne.2 (by omega)
  rw [shiftNext, hi, Edge.shift]

theorem shiftNext_last (b : Bench) (x : Step Bool) (bit : Bool) :
    b.shiftNext x (bit, inputWidth - 1) = x.bind fun _ s => b.tick (Edge.latch bit) s := rfl

/-- Bits that end with the last one of a pattern are shifted in by the edges of a stimulus that
strobes last, whatever has been done before. -/
theorem foldl_shiftNext (b : Bench) (x : Step Bool) {bits : List Bool} {i : Nat} (hne : bits ≠ [])
    (hlast : i + bits.length = inputWidth) :
    (bits.zipIdx i).foldl b.shiftNext x =
      x.bind fun _ s =>
        let driven := b.drive (Stimulus.strobingLast bits) s
        driven.map fun _ => driven.session.registers.serialOut := by
  induction bits generalizing i x with
  | nil => exact absurd rfl hne
  | cons bit bits ih =>
    rw [List.zipIdx_cons, List.foldl_cons]
    cases bits with
    | nil =>
      obtain rfl : i = inputWidth - 1 := Nat.eq_sub_of_add_eq hlast
      rw [shiftNext_last]
      simp [Stimulus.strobingLast, drive_cons, tick, Step.bind, Step.map, Sample.out]
    | cons bit' bits =>
      have hrest : i + 1 + (bit' :: bits).length = inputWidth := by
        rw [← hlast, List.length_cons (a := bit), Nat.add_assoc, Nat.add_comm 1]
      have hi : i + 1 < inputWidth := by
        rw [← hrest]
        exact Nat.lt_add_of_pos_right (Nat.succ_pos _)
      rw [ih _ (List.cons_ne_nil _ _) hrest, b.shiftNext_of_lt x bit hi]
      simp [Stimulus.strobingLast, drive_cons, Step.bind, Step.map]

/-- Loading a pattern bit by bit is driving the stimulus that loads it. -/
theorem load_eq_drive (b : Bench) (p : Pattern) (s : Session) :
    b.load p s =
      let driven := b.drive (Stimulus.load p) s
      driven.map fun _ => driven.session.registers.serialOut := by
  have hlength : (Bits.msbFirst p).length = inputWidth := Bits.length_msbFirst p
  have hne : Bits.msbFirst p ≠ [] := List.ne_nil_of_length_eq_add_one hlength
  rw [load, b.foldl_shiftNext _ hne (by rw [hlength, Nat.zero_add])]
  rfl

theorem registers_load (b : Bench) (p : Pattern) (s : Session) :
    (b.load p s).session.registers = s.registers.run b.block (Stimulus.load p) := by
  rw [load_eq_drive, Step.session_map, registers_drive]

theorem result_load (b : Bench) (p : Pattern) (s : Session) :
    (b.load p s).result = (b.load p s).session.registers.serialOut := by
  rw [load_eq_drive, Step.result_map, Step.session_map]

theorem registers_unload (b : Bench) (s : Session) :
    (b.unload s).session.registers
      = s.registers.next b.block (Edge.latch b.config.driver.idleSerialIn) := rfl

end LutFixture.Bench
