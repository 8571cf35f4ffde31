import LutFixture.Json.Printer
import LutFixture.Sample

/-!
# Trace records

A trace keeps one record for every edge: its number, what the lines carried into it, the bit that it
brought onto the serial output, and what the registers held after it. For each register a record has
one byte, into which the register's word is cut down; every register fits
(`TraceRecord.ofEdge_shows`), so a record tells the registers in full.
-/

namespace LutFixture

/-- What a trace keeps of one edge. -/
structure TraceRecord where
  /-- The number of edges before this one, since power-on or the last reset. -/
  tick : Nat
  /-- The serial bit that the edge took in. -/
  serialIn : Bool
  /-- The edge was a strobe. -/
  strobe : Bool
  /-- The input register after the edge. -/
  din : UInt8
  /-- The output register after the edge. -/
  dout : UInt8
  /-- The latched pattern after the edge. -/
  latched : UInt8
  /-- The bit on the serial output after the edge. -/
  serialOut : Bool
deriving DecidableEq, Repr

namespace TraceRecord

/-- The record of an edge, by its number and the registers that it made. A byte keeps the low eight
bits of a register. -/
def ofEdge (tick : Nat) (e : Edge) (after : Registers) : TraceRecord where
  tick
  serialIn := e.serialIn
  strobe := e.strobe
  din := .ofNat after.input.value
  dout := .ofNat after.output.value
  latched := .ofNat after.latched.toNat
  serialOut := after.serialOut

/-- The record of a sample. -/
def ofSample (x : Sample) : TraceRecord := .ofEdge x.tick x.edge x.after

/-- The record as a JSON object. -/
def json (r : TraceRecord) : Json.Value :=
  .object [
    ("tick", .natural r.tick),
    ("serial_in", .boolean r.serialIn),
    ("strobe", .boolean r.strobe),
    ("din", .natural r.din.toNat),
    ("dout", .natural r.dout.toNat),
    ("latched", .natural r.latched.toNat),
    ("serial_out", .boolean r.serialOut)]

/-- A field of the form in which the log shows a record. -/
def shownField (name value : String) : String := name ++ ": " ++ value

/-- The record as the log shows it. -/
def shown (r : TraceRecord) : String :=
  "TickRecord \x7b " ++ ", ".intercalate [
    shownField "tick" (toString r.tick),
    shownField "serial_in" (toString r.serialIn),
    shownField "strobe" (toString r.strobe),
    shownField "din" (toString r.din.toNat),
    shownField "dout" (toString r.dout.toNat),
    shownField "latched" (toString r.latched.toNat),
    shownField "serial_out" (toString r.serialOut)] ++ " \x7d"

/-- The record shows the registers, the number of each of them in full. -/
structure Shows (r : TraceRecord) (s : Registers) : Prop where
  din : r.din.toNat = s.input.value
  dout : r.dout.toNat = s.output.value
  latched : r.latched.toNat = s.latched.toNat
  serialOut : r.serialOut = s.serialOut

/-- A register is narrower than a byte, so nothing is cut off. -/
theorem toNat_ofNat_toNat {width : Nat} (h : width ≤ 8) (v : BitVec width) :
    (UInt8.ofNat v.toNat).toNat = v.toNat := by
  have hlt : v.toNat < 2 ^ 8 := Nat.lt_of_lt_of_le v.isLt (Nat.pow_le_pow_right (by decide) h)
  rw [UInt8.toNat_ofNat']
  exact Nat.mod_eq_of_lt hlt

theorem ofEdge_shows (tick : Nat) (e : Edge) (after : Registers) :
    (ofEdge tick e after).Shows after where
  din := toNat_ofNat_toNat (by decide) after.input.bits
  dout := toNat_ofNat_toNat (by decide) after.output.bits
  latched := toNat_ofNat_toNat (by decide) after.latched
  serialOut := rfl

/-- A record shows no other registers. -/
theorem Shows.unique {r : TraceRecord} {s s' : Registers} (h : r.Shows s) (h' : r.Shows s') :
    s = s' := by
  obtain ⟨⟨input⟩, ⟨output⟩, latched⟩ := s
  obtain ⟨⟨input'⟩, ⟨output'⟩, latched'⟩ := s'
  have hinput : input = input' := BitVec.eq_of_toNat_eq (h.din.symm.trans h'.din)
  have houtput : output = output' := BitVec.eq_of_toNat_eq (h.dout.symm.trans h'.dout)
  have hlatched : latched = latched' := BitVec.eq_of_toNat_eq (h.latched.symm.trans h'.latched)
  rw [hinput, houtput, hlatched]

end TraceRecord

end LutFixture
