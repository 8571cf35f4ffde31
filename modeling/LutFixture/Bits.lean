/-!
# Bit sequences and words

A bit sequence is a list of Booleans, first bit first. A bit vector is sent over a serial line
most significant bit first; `Bits.msbFirst` is that sequence, `Bits.text` writes a sequence as
zeros and ones, and `Word.hexText` writes a 64-bit word the way a lookup table's contents are
quoted.
-/

namespace LutFixture

namespace Bits

/-- The digit of one bit. -/
def digit (b : Bool) : Char := if b then '1' else '0'

/-- A bit sequence as zeros and ones, first bit first. -/
def text (bits : List Bool) : String := String.ofList (bits.map digit)

/-- The bits of a vector in serial order, the most significant one first. -/
def msbFirst {width : Nat} (x : BitVec width) : List Bool :=
  (List.range width).map x.getMsbD

/-- The number that a bit sequence writes in base two, its first bit the most significant. -/
def value (bits : List Bool) : Nat := bits.foldl (fun n b => 2 * n + b.toNat) 0

@[simp] theorem text_nil : text [] = "" := rfl

@[simp] theorem length_msbFirst {width : Nat} (x : BitVec width) :
    (msbFirst x).length = width := by simp [msbFirst]

theorem text_append (a b : List Bool) : text (a ++ b) = text a ++ text b := by
  simp [text, String.ofList_append]

end Bits

/-- A 64-bit word: the contents of a lookup table with six inputs. -/
abbrev Word := BitVec 64

namespace Word

/-- A word as `0x` and its sixteen hexadecimal digits, in lower case. -/
def hexText (w : Word) : String :=
  let digits := Nat.toDigits 16 w.toNat
  "0x" ++ String.ofList (List.replicate (16 - digits.length) '0' ++ digits)

/-- The number of ones in a word. -/
def ones (w : Word) : Nat := (List.range 64).countP fun i => w.getLsbD i

end Word

end LutFixture
