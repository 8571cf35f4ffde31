import LutFixture.SweepReport
import Mathlib.Data.List.FinRange

/-!
# Packing responses into a word

A bit of `SweepReport.initWord` is set exactly if some response says so, since the word is the
union of one-bit words. So neither the order of the responses nor how often they occur can be seen
in the word (`SweepReport.initWord_eq_iff`), and the rows of a truth table pack into the word of that
table (`SweepReport.initWord_undoes_lookup`).
-/

namespace LutFixture

/-- Looking at a word place by place, one counts its population. -/
theorem Word.toNat_cpop (w : Word) : w.cpop.toNat = w.ones := by
  have hcount : ∀ n, w.cpopNatRec n 0 = (List.range n).countP fun i => w.getLsbD i := by
    intro n
    induction n with
    | zero => rfl
    | succ n ih =>
        rw [BitVec.cpopNatRec_succ, Nat.zero_add, BitVec.cpopNatRec_eq, ih, List.range_succ,
          List.countP_append, List.countP_singleton]
        cases w.getLsbD n <;> rfl
  rw [BitVec.toNat_cpop, hcount, ones]

namespace Pattern

theorem map_toNat_all : all.map BitVec.toNat = List.range 64 := by
  rw [all, List.map_map]
  exact List.map_coe_finRange_eq_range

/-- Every place of a word is numbered by a pattern. -/
theorem exists_toNat_eq {i : Nat} (h : i < 64) : ∃ p : Pattern, p.toNat = i :=
  ⟨BitVec.ofNatLT i h, BitVec.toNat_ofNatLT i h⟩

@[simp] theorem getElem_all {i : Nat} (h : i < all.length) :
    all[i] = BitVec.ofNat inputWidth i := by
  have hlength : all.length = 64 := length_all
  have hi : i < 64 := by rwa [hlength] at h
  apply BitVec.eq_of_toNat_eq
  calc
    all[i].toNat = i := by simp [all]
    _ = (BitVec.ofNat inputWidth i).toNat := by
      rw [BitVec.toNat_ofNat]
      exact (Nat.mod_eq_of_lt hi).symm

end Pattern

/-- Two words agree if they have a one for the same patterns. -/
theorem Word.eq_iff_forall_pattern {w w' : Word} :
    w = w' ↔ ∀ p : Pattern, w.getLsbD p.toNat = true ↔ w'.getLsbD p.toNat = true := by
  constructor
  · rintro rfl p
    rfl
  · intro h
    apply BitVec.eq_of_getLsbD_eq
    intro i hi
    obtain ⟨p, rfl⟩ := Pattern.exists_toNat_eq hi
    exact Bool.eq_iff_iff.2 (h p)

namespace TruthTable

theorem mem_rows {t : TruthTable} {p : Pattern} {b : Bool} :
    (p, b) ∈ t.rows ↔ t.lookup p = b := by
  rw [rows, List.mem_map]
  constructor
  · rintro ⟨q, -, hq⟩
    obtain ⟨rfl, rfl⟩ := Prod.mk.inj hq
    rfl
  · rintro rfl
    exact ⟨p, Pattern.mem_all p, rfl⟩

theorem countP_rows (t : TruthTable) : t.rows.countP (·.2) = t.ones := by
  rw [rows, List.countP_map, ones, Word.ones, ← Pattern.map_toNat_all, List.countP_map]
  rfl

end TruthTable

namespace SweepReport

theorem getLsbD_responseWord (x : Pattern × Bool) (i : Nat) :
    (responseWord x).getLsbD i = (x.2 && x.1.toNat == i) := by
  unfold responseWord
  cases x.2 with
  | false => simp
  | true =>
      rw [if_pos rfl, BitVec.getLsbD_shiftLeft, BitVec.getLsbD_one, Bool.true_and]
      rcases Nat.lt_trichotomy i x.1.toNat with h | h | h
      · simp [h, Nat.ne_of_gt h]
      · simp [h, show x.1.toNat < 64 from x.1.isLt]
      · simp [show ¬ i < x.1.toNat by omega, show ¬ i - x.1.toNat = 0 by omega,
          Nat.ne_of_lt h]

theorem getLsbD_foldl_responseWord (xs : Responses) (w : Word) (i : Nat) :
    (xs.foldl (fun w x => w ||| responseWord x) w).getLsbD i =
      (w.getLsbD i || xs.any fun x => x.2 && x.1.toNat == i) := by
  induction xs generalizing w with
  | nil => simp
  | cons x xs ih =>
      rw [List.foldl_cons, ih, BitVec.getLsbD_or, getLsbD_responseWord, List.any_cons,
        Bool.or_assoc]

theorem getLsbD_initWord (r : SweepReport) (i : Nat) :
    r.initWord.getLsbD i = r.responses.any fun x => x.2 && x.1.toNat == i := by
  have hzero : (0 : Word).getLsbD i = false := BitVec.getLsbD_zero
  rw [initWord, getLsbD_foldl_responseWord, hzero, Bool.false_or]

theorem getLsbD_initWord_iff (r : SweepReport) (p : Pattern) :
    r.initWord.getLsbD p.toNat = true ↔ (p, true) ∈ r.responses := by
  rw [getLsbD_initWord, List.any_eq_true]
  constructor
  · rintro ⟨⟨q, b⟩, hmem, hq⟩
    rw [Bool.and_eq_true, beq_iff_eq] at hq
    obtain ⟨rfl, hnat⟩ := hq
    rwa [← BitVec.eq_of_toNat_eq hnat]
  · intro hmem
    exact ⟨_, hmem, beq_self_eq_true _⟩

/-- Nothing is seen of the responses but which patterns are answered with one at all. -/
theorem initWord_eq_iff {r r' : SweepReport} :
    r.initWord = r'.initWord ↔ ∀ p, (p, true) ∈ r.responses ↔ (p, true) ∈ r'.responses := by
  simp only [Word.eq_iff_forall_pattern, getLsbD_initWord_iff]

theorem initWord_eq_init_iff {t : TruthTable} {r : SweepReport} :
    r.initWord = t.init ↔ ∀ p, (p, true) ∈ r.responses ↔ t.lookup p = true := by
  simp only [Word.eq_iff_forall_pattern, getLsbD_initWord_iff]
  rfl

/-- The rows of a truth table pack into its word. -/
theorem initWord_of_rows {t : TruthTable} {r : SweepReport} (h : r.responses = t.rows) :
    r.initWord = t.init := by
  apply initWord_eq_init_iff.2
  intro p
  rw [h, TruthTable.mem_rows]

/-- Packing the responses of a table gives the word of the table back, in whatever order they stand,
and as many of them are ones as the word has. Of any responses at all, a bit of their word tells
whether its pattern is ever answered with one; so their order and their repetition make no
difference, and responses put behind one another have the ones of both words. -/
theorem initWord_undoes_lookup :
    (∀ (t : TruthTable) (r : SweepReport), r.responses.Perm t.rows →
      r.initWord = t.init ∧ r.responses.countP (·.2) = t.init.cpop.toNat) ∧
    (∀ (r : SweepReport) (p : Pattern),
      r.initWord.getLsbD p.toNat = true ↔ (p, true) ∈ r.responses) ∧
    (∀ r r' : SweepReport, (∀ x, x ∈ r.responses ↔ x ∈ r'.responses) →
      r.initWord = r'.initWord) ∧
    ∀ r r' : SweepReport,
      initWord { r with responses := r.responses ++ r'.responses } =
        r.initWord ||| r'.initWord := by
  refine ⟨?_, getLsbD_initWord_iff, ?_, ?_⟩
  · intro t r hperm
    constructor
    · apply initWord_eq_init_iff.2
      intro p
      rw [hperm.mem_iff, TruthTable.mem_rows]
    · rw [hperm.countP_eq, TruthTable.countP_rows, Word.toNat_cpop, TruthTable.ones]
  · intro r r' hsame
    exact initWord_eq_iff.2 fun p => hsame (p, true)
  · intro r r'
    apply Word.eq_iff_forall_pattern.2
    intro p
    rw [BitVec.getLsbD_or, Bool.or_eq_true, getLsbD_initWord_iff, getLsbD_initWord_iff,
      getLsbD_initWord_iff, List.mem_append]

/-- The reference table from its last row to its first, and the same with a row told twice. -/
theorem initWord_undoes_lookup_descending :
    let r : SweepReport := ⟨TruthTable.reference.rows.reverse, 385, 13⟩
    let twice : SweepReport := ⟨(63, true) :: r.responses, 385, 13⟩
    (r.responses.Perm TruthTable.reference.rows ∧ r.initWord = 0x8000dead00000001#64 ∧
      r.responses.countP (·.2) = 13) ∧
    (∀ x, x ∈ twice.responses ↔ x ∈ r.responses) ∧ twice.initWord = r.initWord := by
  intro r twice
  obtain ⟨hword, hones⟩ :=
    initWord_undoes_lookup.1 TruthTable.reference r (List.reverse_perm _)
  have hlast : (63, true) ∈ r.responses := List.mem_reverse.2 (TruthTable.mem_rows.2 (by decide))
  have hsame : ∀ x, x ∈ twice.responses ↔ x ∈ r.responses := by
    intro x
    rw [List.mem_cons, or_iff_right_of_imp]
    rintro rfl
    exact hlast
  exact ⟨⟨List.reverse_perm _, hword, hones.trans (by decide)⟩, hsame,
    initWord_undoes_lookup.2.2.1 twice r hsame⟩

end SweepReport

end LutFixture
