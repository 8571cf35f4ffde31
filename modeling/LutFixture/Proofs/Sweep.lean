import LutFixture.Proofs.InitWord
import LutFixture.Proofs.Load

/-!
# Sweeps

A sweep is a chain of loads that is cut as soon as a response deviates from the reference table.
The response to the pattern number `i` is read by the load of the pattern number `i + 1`, or by the
unload if there is none. So a sweep whose first deviation is at number `i` reads `i + 1`
responses and applies `i + 2` loads, or all loads and the unload (`Bench.sweepEdges`); its result
is the first deviation, or all responses in ascending order (`Bench.result_sweep`).
-/

namespace LutFixture

namespace Mismatch

variable {f : Block}

/-- The block's response to the pattern is not the one of the reference table. -/
def deviates (f : Block) (p : Pattern) : Bool := (find? p (f p)).isSome

/-- The index of the first pattern at which the block deviates, and if there is none the number of
patterns. -/
def index (f : Block) (ps : List Pattern) : Nat := ps.findIdx (deviates f)

/-- The first mismatch of a block among some patterns. -/
def first? (f : Block) (ps : List Pattern) : Option Mismatch :=
  ps.findSome? fun p => find? p (f p)

/-- What comes of checking the responses of a block to some patterns, one after the other. -/
def verdict (f : Block) (ps : List Pattern) : Except Mismatch Responses :=
  match first? f ps with
  | some m => .error m
  | none => .ok (ps.map fun p => (p, f p))

theorem find?_eq_some_iff {p : Pattern} {observed : Bool} {m : Mismatch} :
    find? p observed = some m ↔
      TruthTable.reference.lookup p ≠ observed ∧
        m = ⟨p, TruthTable.reference.lookup p, observed⟩ := by
  unfold find?
  by_cases h : TruthTable.reference.lookup p = observed
  · simp [h]
  · simp [h, eq_comm]

theorem deviates_eq_false_iff {p : Pattern} :
    deviates f p = false ↔ f p = TruthTable.reference.lookup p := by
  rw [deviates, Option.isSome_eq_false_iff, Option.isNone_iff_eq_none, find?_eq_none_iff, eq_comm]

theorem index_cons_of_some {p : Pattern} {m : Mismatch} (ps : List Pattern)
    (h : find? p (f p) = some m) : index f (p :: ps) = 0 := by
  rw [index, List.findIdx_cons, deviates, h]
  rfl

theorem index_cons_of_none {p : Pattern} (ps : List Pattern) (h : find? p (f p) = none) :
    index f (p :: ps) = index f ps + 1 := by
  rw [index, List.findIdx_cons, deviates, h]
  rfl

theorem verdict_cons_of_none {p : Pattern} (ps : List Pattern) (h : find? p (f p) = none) :
    verdict f (p :: ps) = (verdict f ps).map ((p, f p) :: ·) := by
  have hfirst : first? f (p :: ps) = first? f ps := by
    rw [first?, List.findSome?_cons, h]
    rfl
  unfold verdict
  rw [hfirst]
  cases first? f ps <;> rfl

theorem verdict_cons_of_some {p : Pattern} {m : Mismatch} (ps : List Pattern)
    (h : find? p (f p) = some m) : verdict f (p :: ps) = .error m := by
  have hfirst : first? f (p :: ps) = some m := by
    rw [first?, List.findSome?_cons, h]
  unfold verdict
  rw [hfirst]

theorem first?_eq_none_iff {ps : List Pattern} :
    first? f ps = none ↔ ∀ p ∈ ps, f p = TruthTable.reference.lookup p := by
  rw [first?, List.findSome?_eq_none_iff]
  apply forall₂_congr
  intro p _
  rw [find?_eq_none_iff, eq_comm]

/-- The first mismatch stands at the index at which the block deviates first. -/
theorem first?_eq_getElem? (f : Block) (ps : List Pattern) :
    first? f ps = (ps[index f ps]?).bind fun p => find? p (f p) := by
  induction ps with
  | nil => rfl
  | cons p ps ih =>
      rw [first?, List.findSome?_cons]
      cases hm : find? p (f p) with
      | none =>
          rw [index_cons_of_none ps hm, List.getElem?_cons_succ]
          exact ih
      | some m =>
          rw [index_cons_of_some ps hm, List.getElem?_cons_zero, Option.bind_some, hm]

theorem index_eq_of_first?_all {m : Mismatch} (h : first? f Pattern.all = some m) :
    index f Pattern.all = m.pattern.toNat := by
  rw [first?_eq_getElem?, Option.bind_eq_some_iff] at h
  obtain ⟨p, hp, hm⟩ := h
  obtain ⟨hlt, hp⟩ := List.getElem?_eq_some_iff.1 hp
  rw [Pattern.getElem_all] at hp
  rw [(find?_eq_some_iff.1 hm).2, ← hp, BitVec.toNat_ofNat]
  rw [Pattern.length_all] at hlt
  exact (Nat.mod_eq_of_lt hlt).symm

/-- The first mismatch shows the table's response and the block's, and these differ. -/
theorem eq_of_first?_all {m : Mismatch} (h : first? f Pattern.all = some m) :
    m.expected = TruthTable.reference.lookup m.pattern ∧ m.observed = f m.pattern ∧
      m.expected ≠ m.observed := by
  rw [first?_eq_getElem?, Option.bind_eq_some_iff] at h
  obtain ⟨p, -, hm⟩ := h
  obtain ⟨hne, rfl⟩ := find?_eq_some_iff.1 hm
  exact ⟨rfl, rfl, hne⟩

/-- Below the first mismatch there is none. -/
theorem eq_lookup_of_lt_first?_all {m : Mismatch} (h : first? f Pattern.all = some m)
    {p : Pattern} (hp : p < m.pattern) : f p = TruthTable.reference.lookup p := by
  have hlt : p.toNat < Pattern.all.findIdx (deviates f) := by
    rwa [← index, index_eq_of_first?_all h]
  have hdeviates := List.not_of_lt_findIdx hlt
  rwa [Pattern.getElem_all, BitVec.ofNat_toNat, BitVec.setWidth_eq,
    deviates_eq_false_iff] at hdeviates

theorem index_eq_of_first?_all_none (h : first? f Pattern.all = none) :
    index f Pattern.all = 64 := by
  rw [first?_eq_none_iff] at h
  exact List.findIdx_eq_length_of_false fun p hp => deviates_eq_false_iff.2 (h p hp)

end Mismatch

/-- The report of a sweep that has gone through with the block's responses. -/
def SweepReport.ofBlock (f : Block) : SweepReport where
  responses := Pattern.all.map fun p => (p, f p)
  ticks := 385
  ones := Pattern.all.countP f

namespace Registers

theorem askedOver_flatMap_load (f : Block) (r : Registers) (ps : List Pattern) :
    r.askedOver f (ps.flatMap Stimulus.load) = (r.latched :: ps).take ps.length := by
  induction ps generalizing r with
  | nil => rfl
  | cons p ps ih =>
      rw [List.flatMap_cons, askedOver_append, askedOver_load, ih, run_load]
      rfl

theorem askedOver_chain (f : Block) (r : Registers) (ps : List Pattern) (i : Bool) :
    r.askedOver f (ps.flatMap Stimulus.load ++ [Edge.latch i]) = r.latched :: ps := by
  induction ps generalizing r with
  | nil => rfl
  | cons p ps ih =>
      rw [List.flatMap_cons, List.append_assoc, askedOver_append, askedOver_load, ih, run_load]
      rfl

end Registers

namespace Bench

variable (b : Bench) (s : Session)

/-! ### One response -/

section Checked

variable {p : Pattern} {read : Step Bool} {rest : Session → Step (Except Mismatch Responses)}
  {edges more : Stimulus}

theorem result_checked_of_some {m : Mismatch} (h : Mismatch.find? p read.result = some m) :
    (checked p read rest).result = .error m := by
  rw [checked, Step.result_bind, h]

theorem result_checked_of_none (h : Mismatch.find? p read.result = none) :
    (checked p read rest).result =
      (rest read.session).result.map ((p, read.result) :: ·) := by
  rw [checked, Step.result_bind, h]
  rfl

variable {b s}

theorem checked_applies_of_some {m : Mismatch} (h : Mismatch.find? p read.result = some m)
    (hread : read.Applies b edges s) : (checked p read rest).Applies b edges s := by
  rw [← List.append_nil edges]
  apply hread.bind
  rw [h]
  exact .nil rfl

theorem checked_applies_of_none (h : Mismatch.find? p read.result = none)
    (hread : read.Applies b edges s) (hrest : (rest read.session).Applies b more read.session) :
    (checked p read rest).Applies b (edges ++ more) s := by
  apply hread.bind
  rw [h]
  exact hrest.map _

end Checked

/-! ### The chain up to the first mismatch -/

theorem result_sweepAfter {p : Pattern} (qs : List Pattern) (h : s.registers.latched = p) :
    (b.sweepAfter p qs s).result = Mismatch.verdict b.block (p :: qs) := by
  induction qs generalizing p s with
  | nil =>
      have hread : (b.unload s).result = b.block p := by rw [result_unload_eq, h]
      rw [sweepAfter]
      cases hm : Mismatch.find? p (b.block p) with
      | none =>
          rw [result_checked_of_none (by rwa [hread]), hread, Mismatch.verdict_cons_of_none _ hm]
          rfl
      | some m =>
          rw [result_checked_of_some (by rwa [hread]), Mismatch.verdict_cons_of_some _ hm]
  | cons q qs ih =>
      have hread : (b.load q s).result = b.block p := by rw [result_load_eq, h]
      rw [sweepAfter]
      cases hm : Mismatch.find? p (b.block p) with
      | none =>
          rw [result_checked_of_none (by rwa [hread]), hread, ih _ (b.latched_load s q),
            Mismatch.verdict_cons_of_none _ hm]
      | some m =>
          rw [result_checked_of_some (by rwa [hread]), Mismatch.verdict_cons_of_some _ hm]

/-- The edges by which a sweep reads, with the pattern in front of the others at the inputs of the
block, the responses up to the first deviation. -/
def sweepEdgesAfter (p : Pattern) (qs : List Pattern) : Stimulus :=
  let i := Mismatch.index b.block (p :: qs)
  (qs.take (i + 1)).flatMap Stimulus.load
    ++ if i < qs.length then [] else b.unloadEdges

theorem sweepEdgesAfter_nil (p : Pattern) :
    b.sweepEdgesAfter p [] = b.unloadEdges := rfl

theorem sweepEdgesAfter_cons_of_some {p : Pattern} {m : Mismatch} (q : Pattern)
    (qs : List Pattern) (h : Mismatch.find? p (b.block p) = some m) :
    b.sweepEdgesAfter p (q :: qs) = Stimulus.load q := by
  simp [sweepEdgesAfter, Mismatch.index_cons_of_some _ h]

theorem sweepEdgesAfter_cons_of_none {p : Pattern} (q : Pattern) (qs : List Pattern)
    (h : Mismatch.find? p (b.block p) = none) :
    b.sweepEdgesAfter p (q :: qs) = Stimulus.load q ++ b.sweepEdgesAfter q qs := by
  simp [sweepEdgesAfter, Mismatch.index_cons_of_none _ h]

theorem sweepAfter_applies {p : Pattern} (qs : List Pattern) (h : s.registers.latched = p) :
    (b.sweepAfter p qs s).Applies b (b.sweepEdgesAfter p qs) s := by
  induction qs generalizing p s with
  | nil =>
      rw [sweepAfter, sweepEdgesAfter_nil]
      cases hm : Mismatch.find? p (b.unload s).result with
      | none =>
          rw [← List.append_nil b.unloadEdges]
          exact checked_applies_of_none hm (b.unload_applies s) (.nil rfl)
      | some m => exact checked_applies_of_some hm (b.unload_applies s)
  | cons q qs ih =>
      have hread : (b.load q s).result = b.block p := by rw [result_load_eq, h]
      rw [sweepAfter]
      cases hm : Mismatch.find? p (b.block p) with
      | none =>
          rw [b.sweepEdgesAfter_cons_of_none q qs hm]
          exact checked_applies_of_none (by rwa [hread]) (b.load_applies s q)
            (ih _ (b.latched_load s q))
      | some m =>
          rw [b.sweepEdgesAfter_cons_of_some q qs hm]
          exact checked_applies_of_some (by rwa [hread]) (b.load_applies s q)

theorem result_sweepOver (ps : List Pattern) :
    (b.sweepOver ps s).result = Mismatch.verdict b.block ps := by
  cases ps with
  | nil => rfl
  | cons p ps =>
      rw [sweepOver, Step.result_bind, b.result_sweepAfter _ ps (b.latched_load s p)]

/-- The edges of a sweep over some patterns: the loads of all patterns up to the one behind the
first deviation, and the unload if there is none such. -/
def sweepEdges (ps : List Pattern) : Stimulus :=
  let i := Mismatch.index b.block ps
  (ps.take (i + 2)).flatMap Stimulus.load
    ++ if i + 1 < ps.length then [] else b.unloadEdges

theorem sweepEdges_cons (p : Pattern) (ps : List Pattern) :
    b.sweepEdges (p :: ps) = Stimulus.load p ++ b.sweepEdgesAfter p ps := by
  rw [sweepEdges, sweepEdgesAfter]
  simp

theorem sweepOver_applies {ps : List Pattern} (h : ps ≠ []) :
    (b.sweepOver ps s).Applies b (b.sweepEdges ps) s := by
  cases ps with
  | nil => exact absurd rfl h
  | cons p ps =>
      rw [sweepOver, sweepEdges_cons]
      exact (b.load_applies s p).bind (b.sweepAfter_applies _ ps (b.latched_load s p))

/-- A sweep asks for the pattern latched before it, and then for its own up to the first
deviation. -/
theorem askedOver_sweepEdges (r : Registers) (ps : List Pattern) :
    r.askedOver b.block (b.sweepEdges ps) =
      r.latched :: ps.take (Mismatch.index b.block ps + 1) := by
  rw [sweepEdges]
  by_cases h : Mismatch.index b.block ps + 1 < ps.length
  · have hlength : (ps.take (Mismatch.index b.block ps + 2)).length =
        Mismatch.index b.block ps + 1 + 1 := by
      rw [List.length_take]
      omega
    rw [if_pos h, List.append_nil, Registers.askedOver_flatMap_load, hlength,
      List.take_succ_cons, List.take_take, Nat.min_eq_left (Nat.le_succ _)]
  · rw [if_neg h, unloadEdges, Registers.askedOver_chain, List.take_of_length_le (by omega),
      List.take_of_length_le (by omega)]

theorem sweepEdges_all_of_lt (h : Mismatch.index b.block Pattern.all < 63) :
    b.sweepEdges Pattern.all =
      (Pattern.all.take (Mismatch.index b.block Pattern.all + 2)).flatMap
        Stimulus.load := by
  have hlength : Pattern.all.length = 64 := Pattern.length_all
  rw [sweepEdges, if_pos (by omega), List.append_nil]

theorem sweepEdges_all_of_not_lt
    (h : ¬ Mismatch.index b.block Pattern.all < 63) :
    b.sweepEdges Pattern.all = b.chainEdges Pattern.all := by
  have hlength : Pattern.all.length = 64 := Pattern.length_all
  rw [sweepEdges, if_neg (by omega), List.take_of_length_le (by omega), chainEdges]

theorem length_sweepEdges_all :
    (b.sweepEdges Pattern.all).length =
      if Mismatch.index b.block Pattern.all < 63
      then 6 * (Mismatch.index b.block Pattern.all + 2) else 385 := by
  have hlength : Pattern.all.length = 64 := Pattern.length_all
  by_cases h : Mismatch.index b.block Pattern.all < 63
  · rw [if_pos h, b.sweepEdges_all_of_lt h, length_flatMap_load, List.length_take,
      Nat.min_eq_left (by omega)]
  · rw [if_neg h, b.sweepEdges_all_of_not_lt h, length_chainEdges, hlength]

theorem countP_strobe_sweepEdges_all :
    (b.sweepEdges Pattern.all).countP (·.strobe) =
      if Mismatch.index b.block Pattern.all < 63
      then Mismatch.index b.block Pattern.all + 2 else 65 := by
  have hlength : Pattern.all.length = 64 := Pattern.length_all
  by_cases h : Mismatch.index b.block Pattern.all < 63
  · rw [if_pos h, b.sweepEdges_all_of_lt h, countP_strobe_flatMap_load, List.length_take,
      Nat.min_eq_left (by omega)]
  · rw [if_neg h, b.sweepEdges_all_of_not_lt h, countP_strobe_chainEdges, hlength]

/-! ### The whole sweep -/

theorem all_ne_nil : Pattern.all ≠ [] :=
  List.ne_nil_of_mem (Pattern.mem_all 0)

theorem sweep_applies : (b.sweep s).Applies b (b.sweepEdges Pattern.all) s := by
  rw [← List.append_nil (b.sweepEdges Pattern.all)]
  apply (b.sweepOver_applies s all_ne_nil).bind
  cases (b.sweepOver Pattern.all s).result with
  | error m => exact .nil rfl
  | ok responses => exact .nil rfl

/-- A sweep ends with the first mismatch, or else with the report on the block. -/
theorem result_sweep :
    (b.sweep s).result =
      match Mismatch.first? b.block Pattern.all with
      | some m => .error m
      | none => .ok (SweepReport.ofBlock b.block) := by
  rw [sweep, Step.result_bind, result_sweepOver, Mismatch.verdict]
  cases h : Mismatch.first? b.block Pattern.all with
  | some m => rfl
  | none =>
      have hticks := (b.sweepOver_applies s all_ne_nil).costs.ticks
      rw [length_sweepEdges_all, Mismatch.index_eq_of_first?_all_none h,
        if_neg (by decide)] at hticks
      have hones : (Pattern.all.map fun p => (p, b.block p)).countP (·.2) =
          Pattern.all.countP b.block := by
        rw [List.countP_map]
        rfl
      simp only [SweepReport.ofBlock, hticks, hones, Nat.add_sub_cancel_left]

theorem first?_of_result_sweep_eq_ok {r : SweepReport} (h : (b.sweep s).result = .ok r) :
    Mismatch.first? b.block Pattern.all = none ∧ r = SweepReport.ofBlock b.block := by
  rw [result_sweep] at h
  cases hfirst : Mismatch.first? b.block Pattern.all with
  | some m =>
      rw [hfirst] at h
      cases h
  | none =>
      rw [hfirst] at h
      exact ⟨rfl, (Except.ok.inj h).symm⟩

theorem first?_of_result_sweep_eq_error {m : Mismatch} (h : (b.sweep s).result = .error m) :
    Mismatch.first? b.block Pattern.all = some m := by
  rw [result_sweep] at h
  cases hfirst : Mismatch.first? b.block Pattern.all with
  | some m' =>
      rw [hfirst] at h
      exact congrArg some (Except.error.inj h)
  | none =>
      rw [hfirst] at h
      cases h

theorem exists_result_sweep_eq_ok_iff :
    (∃ r, (b.sweep s).result = .ok r) ↔
      ∀ p, b.block p = TruthTable.reference.lookup p := by
  constructor
  · rintro ⟨r, hr⟩ p
    have hfirst := (b.first?_of_result_sweep_eq_ok s hr).1
    exact Mismatch.first?_eq_none_iff.1 hfirst p (Pattern.mem_all p)
  · intro hagree
    have hfirst : Mismatch.first? b.block Pattern.all = none :=
      Mismatch.first?_eq_none_iff.2 fun p _ => hagree p
    rw [result_sweep, hfirst]
    exact ⟨_, rfl⟩

theorem exists_result_sweep_reference_eq_ok (config : Configuration) (s : Session) :
    ∃ r, ((reference config).sweep s).result = .ok r :=
  ((reference config).exists_result_sweep_eq_ok_iff s).2 fun _ => rfl

/-- A sweep succeeds exactly if the block agrees with the reference table everywhere, and its
report then shows the block; or else it shows the least pattern at which the two differ. It applies
no more edges than it takes to read the responses up to there, and asks the block for nothing
else. -/
theorem sweep_decides_reference :
    ((∃ r, (b.sweep s).result = .ok r) ↔ ∀ p, b.block p = TruthTable.reference.lookup p) ∧
    (∀ r, (b.sweep s).result = .ok r →
      r.responses = Pattern.all.map (fun p => (p, b.block p)) ∧ r.ticks = 385 ∧
      r.ones = Pattern.all.countP b.block ∧ r.initWord = TruthTable.reference.init ∧
      (b.sweep s).Costs 385 65 s ∧
      Event.asked (b.sweep s).events = s.registers.latched :: Pattern.all) ∧
    (∀ m, (b.sweep s).result = .error m →
      m.expected = TruthTable.reference.lookup m.pattern ∧ m.observed = b.block m.pattern ∧
      m.expected ≠ m.observed ∧
      (∀ p < m.pattern, b.block p = TruthTable.reference.lookup p) ∧
      (b.sweep s).Costs (if m.pattern.toNat < 63 then 6 * (m.pattern.toNat + 2) else 385)
        (if m.pattern.toNat < 63 then m.pattern.toNat + 2 else 65) s ∧
      Event.asked (b.sweep s).events =
        s.registers.latched :: Pattern.all.take (m.pattern.toNat + 1)) := by
  have hcosts := (b.sweep_applies s).costs
  rw [length_sweepEdges_all, countP_strobe_sweepEdges_all] at hcosts
  have hasked := (b.sweep_applies s).asked
  rw [askedOver_sweepEdges] at hasked
  have hiff := b.exists_result_sweep_eq_ok_iff s
  refine ⟨hiff, ?_, ?_⟩
  · intro r hr
    have hagree := hiff.1 ⟨r, hr⟩
    obtain ⟨hfirst, rfl⟩ := b.first?_of_result_sweep_eq_ok s hr
    rw [Mismatch.index_eq_of_first?_all_none hfirst] at hcosts hasked
    refine ⟨rfl, rfl, rfl, SweepReport.initWord_of_rows ?_, hcosts, hasked⟩
    exact congrArg (fun f => Pattern.all.map fun p => (p, f p)) (funext hagree)
  · intro m hm
    have hfirst := b.first?_of_result_sweep_eq_error s hm
    obtain ⟨hexpected, hobserved, hne⟩ := Mismatch.eq_of_first?_all hfirst
    rw [Mismatch.index_eq_of_first?_all hfirst] at hcosts hasked
    refine ⟨hexpected, hobserved, hne, ?_, hcosts, hasked⟩
    intro p hp
    exact Mismatch.eq_lookup_of_lt_first?_all hfirst hp

/-- A block that is wrong at the last pattern only is caught by the unload, from a session that
another pattern was left in. -/
theorem sweep_decides_reference_last :
    ((⟨fun p => p != 63 && TruthTable.reference.lookup p, {}⟩ : Bench).sweep
      ⟨⟨⟨5⟩, ⟨1⟩, 9⟩, {}, none⟩).result = .error ⟨63, true, false⟩ ∧
    ((⟨fun p => p != 63 && TruthTable.reference.lookup p, {}⟩ : Bench).sweep
      ⟨⟨⟨5⟩, ⟨1⟩, 9⟩, {}, none⟩).Costs 385 65 ⟨⟨⟨5⟩, ⟨1⟩, 9⟩, {}, none⟩ ∧
    Event.asked ((⟨fun p => p != 63 && TruthTable.reference.lookup p, {}⟩ : Bench).sweep
      ⟨⟨⟨5⟩, ⟨1⟩, 9⟩, {}, none⟩).events = 9 :: Pattern.all := by
  have hresult : ((⟨fun p => p != 63 && TruthTable.reference.lookup p, {}⟩ : Bench).sweep
      ⟨⟨⟨5⟩, ⟨1⟩, 9⟩, {}, none⟩).result = .error ⟨63, true, false⟩ := by
    rw [result_sweep]
    rfl
  obtain ⟨-, -, -, -, hcosts, hasked⟩ := (sweep_decides_reference _ _).2.2 _ hresult
  exact ⟨hresult, hcosts, hasked⟩

end Bench

end LutFixture
