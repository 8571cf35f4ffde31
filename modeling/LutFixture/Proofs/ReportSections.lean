import LutFixture.Proofs.LineText
import LutFixture.Proofs.Report

/-!
# Which sections a report shows

A report shows the sections that a list of names wants, each of them once and always in the same
order. Apart from the figures of the wall clock, two reports on the same counters are the same text
exactly if their lists want the same sections (`Counters.report_shows_wanted_sections`).

That different sections make different texts does not depend on the counters. No line of a report
has a line feed in it, so the lines can be read off the text (`lines_unlines`); and each section
begins with a line that neither another section nor the closing rule begins with, so the sections can
be read off the lines one after the other (`Counters.flatMap_sectionLines_inj`).
-/

namespace LutFixture

/-! ### Lines without a line feed -/

theorem newline_notMem_append {s t : String} :
    '\n' ∉ (s ++ t).toList ↔ '\n' ∉ s.toList ∧ '\n' ∉ t.toList := by
  rw [String.toList_append, List.mem_append, not_or]

theorem newline_notMem_toString (n : Nat) : '\n' ∉ (toString n).toList := by
  have hdigits : (toString n).toList = Nat.toDigits 10 n := String.toList_ofList
  rw [hdigits]
  intro h
  exact absurd (Nat.isDigit_of_mem_toDigits (by decide) (by decide) h) (by decide)

theorem newline_notMem_decimals (places : Nat) (x : Binary64) :
    '\n' ∉ (x.decimals places).toList := by
  have hzeros : ∀ n, '\n' ∉ (String.join (List.replicate n "0")).toList := by
    intro n h
    rw [String.toList_join, List.mem_flatMap] at h
    obtain ⟨zero, hzero, hmem⟩ := h
    rw [List.eq_of_mem_replicate hzero] at hmem
    exact absurd hmem (by decide)
  simp only [Binary64.decimals, newline_notMem_append]
  exact ⟨⟨⟨newline_notMem_toString _, by decide⟩, hzeros _⟩, newline_notMem_toString _⟩

/-- The lines of a text are what it was put together from, and nothing behind the last line feed. -/
theorem lines_unlines {ls : List String} (h : ∀ line ∈ ls, '\n' ∉ line.toList) :
    Text.lines (unlines ls).toList = ls.map String.toList ++ [[]] := by
  induction ls with
  | nil => rfl
  | cons line ls ih =>
      obtain ⟨hline, hls⟩ := List.forall_mem_cons.1 h
      have hfeed : "\n".toList = ['\n'] := rfl
      rw [unlines_cons, String.toList_append, String.toList_append, hfeed, List.append_assoc,
        List.singleton_append, Text.lines_append_of_not_mem hline, ih hls, List.map_cons,
        List.cons_append]

theorem unlines_inj {ls ls' : List String} (h : ∀ line ∈ ls, '\n' ∉ line.toList)
    (h' : ∀ line ∈ ls', '\n' ∉ line.toList) : unlines ls = unlines ls' ↔ ls = ls' := by
  constructor
  · intro heq
    have hlines := lines_unlines h'
    rw [← heq, lines_unlines h] at hlines
    exact List.map_injective_iff.2 (fun _ _ => String.toList_inj.1) (List.append_cancel_right hlines)
  · rintro rfl
    rfl

namespace WallClock

/-- No figure of the clock reaches beyond its line. -/
structure StaysOnLine (clock : WallClock) : Prop where
  seconds : '\n' ∉ clock.seconds.toList
  kilohertz : ∀ n, '\n' ∉ (clock.kilohertz n).toList

theorem staysOnLine_hidden : hidden.StaysOnLine := by
  have hmask : '\n' ∉ "*".toList := by decide
  exact ⟨hmask, fun _ => hmask⟩

theorem staysOnLine_measured (nanoseconds : Nat) : (measured nanoseconds).StaysOnLine where
  seconds := newline_notMem_decimals 4 _
  kilohertz _ := newline_notMem_decimals 2 _

/-- A text without the figures of the wall clock, line by line. -/
def maskedText (text : String) : String :=
  "\n".intercalate ((Text.lines text.toList).map fun line => masked (String.ofList line))

theorem maskedText_unlines {ls : List String} (h : ∀ line ∈ ls, '\n' ∉ line.toList) :
    maskedText (unlines ls) = unlines (ls.map masked) := by
  have hjoin : ∀ xs : List String, "\n".intercalate (xs ++ [""]) = unlines xs := by
    intro xs
    induction xs with
    | nil => rfl
    | cons x xs ih =>
        rw [List.cons_append, String.intercalate_cons_of_ne_nil (by simp), ih, unlines_cons]
  have hempty : masked (String.ofList []) = "" := by decide
  have hline : (fun line => masked (String.ofList line)) ∘ String.toList = masked := by
    funext line
    rw [Function.comp_apply, String.ofList_toList]
  rw [maskedText, lines_unlines h, List.map_append, List.map_map, hline, List.map_singleton, hempty,
    hjoin]

end WallClock

/-! ### Wanted sections -/

namespace Section

/-- The names want the section: there are none of them, or its own name is among them. -/
def IsWanted (names : List String) : Section → Prop
  | .summary => names = [] ∨ "summary" ∈ names
  | .protocol => names = [] ∨ "protocol" ∈ names
  | .lines => names = [] ∨ "lines" ∈ names

theorem isWanted_iff {names : List String} {x : Section} :
    x.IsWanted names ↔ names = [] ∨ x.name ∈ names := by
  cases x <;> exact Iff.rfl

instance (names : List String) : DecidablePred (IsWanted names) :=
  fun _ => decidable_of_iff _ isWanted_iff.symm

theorem wanted_eq_filter (names : List String) : wanted names = all.filter (IsWanted names) := by
  cases names with
  | nil => rfl
  | cons name names =>
      rw [wanted]
      apply List.filter_congr
      intro x _
      simp [isWanted_iff]

theorem wanted_eq_wanted_iff {names others : List String} :
    wanted names = wanted others ↔ ∀ x : Section, x.IsWanted names ↔ x.IsWanted others := by
  constructor
  · intro h x
    rw [isWanted_iff, isWanted_iff, ← mem_wanted_iff, ← mem_wanted_iff, h]
  · intro h
    rw [wanted_eq_filter, wanted_eq_filter]
    apply List.filter_congr
    intro x _
    rw [decide_eq_decide]
    exact h x

/-- The line with which a section begins. -/
def opening : Section → String
  | .summary => "host_seconds             * s"
  | .protocol => "PROTOCOL"
  | .lines => "LINES"

theorem opening_inj {x y : Section} (h : x.opening = y.opening) : x = y := by
  cases x <;> cases y <;> first | rfl | exact absurd h (by decide)

end Section

/-! ### The text of a report -/

namespace Counters

variable (c : Counters) {clock : WallClock}

theorem newline_notMem_share (n : Nat) : '\n' ∉ (c.share n).toList := by
  simp only [share, newline_notMem_append]
  exact ⟨⟨⟨newline_notMem_toString _, by decide⟩, newline_notMem_decimals 2 _⟩, by decide⟩

theorem newline_notMem_of_mem_sectionLines (h : clock.StaysOnLine) (x : Section) :
    ∀ line ∈ c.sectionLines clock x, '\n' ∉ line.toList := by
  have hrule : '\n' ∉ lightRule.toList := by decide
  cases x with
  | summary =>
      simp only [sectionLines, List.forall_mem_cons, newline_notMem_append, h.seconds, h.kilohertz,
        newline_notMem_toString, hrule, not_false_eq_true]
      decide
  | protocol =>
      simp only [sectionLines, List.forall_mem_cons, newline_notMem_append, newline_notMem_share,
        newline_notMem_toString, hrule, not_false_eq_true]
      decide
  | lines =>
      simp only [sectionLines, List.forall_mem_cons, newline_notMem_append, newline_notMem_share,
        not_false_eq_true]
      decide

/-- The rule at the ends of a report. -/
def ruleText : String := "=========================================================="

/-- The lines in front of the sections. -/
def heading : List String := [ruleText, "ROI SERIAL HARNESS STATISTICS", ruleText]

theorem heavyRule_eq : heavyRule = ruleText := by decide

theorem opening_ne_ruleText (x : Section) : x.opening ≠ ruleText := by
  cases x <;> decide

theorem reportLines_eq (clock : WallClock) (sections : List Section) :
    c.reportLines clock sections =
      heading ++ (sections.flatMap (c.sectionLines clock) ++ [ruleText]) := by
  rw [reportLines, heavyRule_eq]
  exact List.append_assoc _ _ _

theorem newline_notMem_of_mem_reportLines (h : clock.StaysOnLine) (sections : List Section) :
    ∀ line ∈ c.reportLines clock sections, '\n' ∉ line.toList := by
  rw [reportLines_eq]
  intro line hline
  rcases List.mem_append.1 hline with hheading | hrest
  · exact (by decide : ∀ line ∈ heading, '\n' ∉ line.toList) line hheading
  · rcases List.mem_append.1 hrest with hshown | hrule
    · obtain ⟨x, -, hx⟩ := List.mem_flatMap.1 hshown
      exact c.newline_notMem_of_mem_sectionLines h x line hx
    · rw [List.mem_singleton.1 hrule]
      decide

theorem maskedText_report (h : clock.StaysOnLine) (names : List String) :
    WallClock.maskedText (c.report clock names) =
      unlines (c.reportLines .hidden (Section.wanted names)) := by
  rw [report_eq_unlines, WallClock.maskedText_unlines (c.newline_notMem_of_mem_reportLines h _),
    map_masked_reportLines]

theorem exists_sectionLines_eq_cons (x : Section) :
    ∃ more, c.sectionLines .hidden x = x.opening :: more := by
  cases x with
  | _ => exact ⟨_, rfl⟩

/-- Which sections are shown can be read off the lines, in whatever order and how often ever. -/
theorem flatMap_sectionLines_inj {xs ys : List Section}
    (h : xs.flatMap (c.sectionLines .hidden) ++ [ruleText] =
      ys.flatMap (c.sectionLines .hidden) ++ [ruleText]) : xs = ys := by
  induction xs generalizing ys with
  | nil =>
      cases ys with
      | nil => rfl
      | cons y ys =>
          obtain ⟨more, hy⟩ := c.exists_sectionLines_eq_cons y
          rw [List.flatMap_cons, hy] at h
          exact absurd (List.cons.inj h).1.symm (opening_ne_ruleText y)
  | cons x xs ih =>
      obtain ⟨more, hx⟩ := c.exists_sectionLines_eq_cons x
      cases ys with
      | nil =>
          rw [List.flatMap_cons, hx] at h
          exact absurd (List.cons.inj h).1 (opening_ne_ruleText x)
      | cons y ys =>
          obtain ⟨more', hy⟩ := c.exists_sectionLines_eq_cons y
          have hopening : x.opening = y.opening := by
            rw [List.flatMap_cons, List.flatMap_cons, hx, hy] at h
            exact (List.cons.inj h).1
          obtain rfl := Section.opening_inj hopening
          rw [List.flatMap_cons, List.flatMap_cons, List.append_assoc, List.append_assoc] at h
          rw [ih (List.append_cancel_left h)]

/-- A report shows each section that the names want once, in the order of all sections, between the
heading and a rule; if there are names but none of a section, these are all it shows. With the
figures of the wall clock masked, another list of names gives the same text exactly if it wants the
same sections, whenever the two reports are made. The sections are told by their first lines. -/
theorem report_shows_wanted_sections (names : List String) :
    (∀ (others : List String) (clock clock' : WallClock),
      clock.StaysOnLine → clock'.StaysOnLine →
        (WallClock.maskedText (c.report clock names) =
            WallClock.maskedText (c.report clock' others) ↔
          ∀ x : Section, x.IsWanted names ↔ x.IsWanted others)) ∧
    (names ≠ [] → "summary" ∉ names → "protocol" ∉ names → "lines" ∉ names →
      ∀ clock, c.report clock names = unlines (heading ++ [ruleText])) ∧
    (∃ shown : List Section, shown.Sublist [.summary, .protocol, .lines] ∧
      (∀ x : Section, x ∈ shown ↔ x.IsWanted names) ∧
      ∀ clock, c.report clock names =
        unlines (heading ++ (shown.flatMap (c.sectionLines clock) ++ [ruleText]))) ∧
    ∀ clock : WallClock,
      (c.sectionLines clock .summary).head? =
        some ("host_seconds             " ++ clock.seconds ++ " s") ∧
      (c.sectionLines clock .protocol).head? = some "PROTOCOL" ∧
      (c.sectionLines clock .lines).head? = some "LINES" := by
  have hreport : ∀ clock, c.report clock names =
      unlines (heading ++
        ((Section.wanted names).flatMap (c.sectionLines clock) ++ [ruleText])) := by
    intro clock
    rw [report_eq_unlines, reportLines_eq]
  have hwanted : ∀ x : Section, x ∈ Section.wanted names ↔ x.IsWanted names := by
    intro x
    rw [Section.mem_wanted_iff, Section.isWanted_iff]
  refine ⟨?_, ?_, ⟨Section.wanted names, ?_, hwanted, hreport⟩, fun clock => ⟨rfl, rfl, rfl⟩⟩
  · intro others clock clock' hclock hclock'
    have hlines := c.newline_notMem_of_mem_reportLines WallClock.staysOnLine_hidden
    rw [c.maskedText_report hclock, c.maskedText_report hclock', unlines_inj (hlines _) (hlines _),
      ← Section.wanted_eq_wanted_iff]
    constructor
    · intro h
      rw [reportLines_eq, reportLines_eq] at h
      exact c.flatMap_sectionLines_inj (List.append_cancel_left h)
    · intro h
      rw [h]
  · intro hne hsummary hprotocol hlines clock
    have hnone : Section.wanted names = [] := by
      apply List.eq_nil_iff_forall_not_mem.2
      intro x hx
      cases x with
      | summary => exact ((hwanted _).1 hx).elim hne hsummary
      | protocol => exact ((hwanted _).1 hx).elim hne hprotocol
      | lines => exact ((hwanted _).1 hx).elim hne hlines
    rw [hreport, hnone]
    rfl
  · rw [Section.wanted_eq_filter]
    exact List.filter_sublist

/-- Two sections in another order, one of them twice and with a name that differs in its case from
that of the third section, which alone wants nothing. -/
theorem report_shows_wanted_sections_mixed_names :
    let c : Counters := { ticks := 3, strobes := 2, latchChanges := 1 }
    let text (nanoseconds : Nat) (names : List String) : String :=
      WallClock.maskedText (c.report (.measured nanoseconds) names)
    let mixed := ["lines", "Protocol", "summary", "lines"]
    (WallClock.measured 5).StaysOnLine ∧ (WallClock.measured 12345678).StaysOnLine ∧
    (text 5 mixed = text 12345678 ["summary", "lines"] ∧ text 5 mixed ≠ text 5 []) ∧
    (["Protocol"] ≠ [] ∧ "summary" ∉ ["Protocol"] ∧ "protocol" ∉ ["Protocol"] ∧
        "lines" ∉ ["Protocol"]) ∧
      ∀ clock, c.report clock ["Protocol"] = unlines (heading ++ [ruleText]) := by
  intro c text mixed
  have hclock := WallClock.staysOnLine_measured
  have hsame : ∀ x : Section, x.IsWanted mixed ↔ x.IsWanted ["summary", "lines"] := by
    intro x
    cases x <;> decide
  have hother : ¬∀ x : Section, x.IsWanted mixed ↔ x.IsWanted [] := by
    intro h
    exact absurd ((h .protocol).2 (.inl rfl)) (by decide)
  obtain ⟨htext, -⟩ := c.report_shows_wanted_sections mixed
  obtain ⟨-, hnothing, -⟩ := c.report_shows_wanted_sections ["Protocol"]
  refine ⟨hclock 5, hclock 12345678, ⟨?_, ?_⟩, by decide,
    hnothing (by decide) (by decide) (by decide) (by decide)⟩
  · exact (htext _ _ _ (hclock 5) (hclock 12345678)).2 hsame
  · intro heq
    exact hother ((htext _ _ _ (hclock 5) (hclock 5)).1 heq)

end Counters

end LutFixture
