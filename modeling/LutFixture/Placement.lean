import LutFixture.Json.Printer

/-!
# Placement of the region under test

A hardware tool is told where to put a block, and which attributes keep it from optimising the
block away. `Placement.text` is the attribute list as it stands in a netlist.
-/

namespace LutFixture

/-- An attribute that protects a placed block. -/
inductive PlacementFlag where
  /-- The block is kept even if nothing seems to use it. -/
  | keep
  /-- The block is not restructured. -/
  | dontTouch
deriving DecidableEq, Repr

namespace PlacementFlag

/-- The name of the attribute in a netlist. -/
def name : PlacementFlag → String
  | .keep => "KEEP"
  | .dontTouch => "DONT_TOUCH"

end PlacementFlag

/-- Where a block is placed and how it is protected. -/
structure Placement where
  /-- The site of the block. -/
  location : String
  /-- The attributes, in the order in which they are written. -/
  flags : List PlacementFlag
deriving DecidableEq, Repr

namespace Placement

/-- The placement of the region under test. -/
def reference : Placement := ⟨"SLICE_X16Y100", [.keep, .dontTouch]⟩

/-- The attribute list that a netlist carries. -/
def text (p : Placement) : String :=
  "(* " ++ String.join (p.flags.map fun f => f.name ++ ", ") ++ "LOC = \"" ++ p.location ++ "\" *)"

/-- The placement as a JSON object. -/
def json (p : Placement) : Json.Value :=
  .object [("location", .string p.location),
    ("flags", .array (p.flags.map fun f => .string f.name))]

end Placement

end LutFixture
