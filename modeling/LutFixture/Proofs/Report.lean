import LutFixture.Report

/-!
# The report without its wall clock

A report is printed line by line (`unlines`). Two of its lines show a figure of the wall clock, and no
other line depends on it. With these two figures hidden, a report is a function of the counters and
the wanted sections alone (`Counters.map_masked_reportLines`).
-/

namespace LutFixture

/-- Lines as they are printed, each with its line feed. -/
def unlines (lines : List String) : String := String.join (lines.map (· ++ "\n"))

theorem unlines_append (x y : List String) : unlines (x ++ y) = unlines x ++ unlines y := by
  rw [unlines, unlines, unlines, List.map_append, String.join_append]

theorem unlines_cons (line : String) (lines : List String) :
    unlines (line :: lines) = line ++ "\n" ++ unlines lines := by
  rw [unlines, List.map_cons, String.join_cons]
  rfl

theorem unlines_singleton (line : String) : unlines [line] = line ++ "\n" := by
  rw [unlines, List.map_singleton, String.join_cons, String.join_nil, String.append_empty]

namespace WallClock

/-- What is left of a line of a report that shows a figure of the wall clock, if it is one. -/
def hiddenLine? (line : String) : Option String :=
  if line.toList.take 12 = "host_seconds".toList then some "host_seconds             * s"
  else if line.toList.take 8 = "sim_freq".toList then some "sim_freq                 * kHz"
  else none

/-- A line of a report without the figures of the wall clock. -/
def masked (line : String) : String := (hiddenLine? line).getD line

/-- Whether a line shows the clock is seen from the name in front of its figure. -/
theorem hiddenLine?_append {name : String} (h : 12 ≤ name.toList.length) (figure : String) :
    hiddenLine? (name ++ figure) = hiddenLine? name := by
  have htake : ∀ n ≤ 12, (name ++ figure).toList.take n = name.toList.take n := by
    intro n hn
    rw [String.toList_append, List.take_append_of_le_length (Nat.le_trans hn h)]
  rw [hiddenLine?, hiddenLine?, htake 12 (Nat.le_refl 12), htake 8 (by decide)]

theorem masked_of_name {name : String} (h : 12 ≤ name.toList.length)
    (hname : hiddenLine? name = none) (figure : String) :
    masked (name ++ figure) = name ++ figure := by
  rw [masked, hiddenLine?_append h, hname, Option.getD_none]

theorem masked_of_hidden {name line : String} (h : 12 ≤ name.toList.length)
    (hname : hiddenLine? name = some line) (figure : String) :
    masked (name ++ figure) = line := by
  rw [masked, hiddenLine?_append h, hname, Option.getD_some]

end WallClock

namespace Counters

open WallClock

variable (c : Counters) (clock : WallClock)

theorem map_masked_sectionLines (x : Section) :
    (c.sectionLines clock x).map masked = c.sectionLines .hidden x := by
  cases x with
  | summary =>
      simp only [sectionLines, List.map_cons, List.map_nil, String.append_assoc]
      rw [masked_of_hidden (by decide) rfl, masked_of_name (by decide) (by decide),
        masked_of_hidden (by decide) rfl]
      rfl
  | protocol =>
      simp only [sectionLines, List.map_cons, List.map_nil]
      rw [masked_of_name (by decide) (by decide), masked_of_name (by decide) (by decide)]
      rfl
  | lines =>
      simp only [sectionLines, List.map_cons, List.map_nil]
      rw [masked_of_name (by decide) (by decide), masked_of_name (by decide) (by decide),
        masked_of_name (by decide) (by decide)]
      rfl

theorem report_eq_unlines (names : List String) :
    c.report clock names = unlines (c.reportLines clock (Section.wanted names)) := rfl

theorem map_masked_reportLines (sections : List Section) :
    (c.reportLines clock sections).map masked = c.reportLines .hidden sections := by
  simp only [reportLines, List.map_append, List.map_flatMap, map_masked_sectionLines]
  rfl

end Counters

end LutFixture
