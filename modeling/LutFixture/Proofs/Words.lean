import LutFixture.Text.Blank
import Mathlib.Data.List.TakeWhile

/-!
# Words as maximal runs

`MaximalRuns s runs` says what the words of a text are without saying how they are found: blanks,
then a run that ends at a blank or with the text, and so on. Every text has exactly one such list of
runs (`maximalRuns_iff`). `TrimsTo` says what is left of a text without the blanks at its ends, and
`trimsTo_iff` that this is what trimming leaves. That it keeps the words, and leaves nothing exactly
where there is no word, is read off from blanks at either end making no difference.
-/

namespace LutFixture.Text

/-- The runs are the maximal runs of characters other than blanks, from left to right: nothing but
blanks stands in front of a run, and none of its characters behind it. -/
inductive MaximalRuns : List Char → List (List Char) → Prop
  | blank {s : List Char} (hs : ∀ c ∈ s, isBlank c = true) : MaximalRuns s []
  | run {front word rest : List Char} {more : List (List Char)}
      (hfront : ∀ c ∈ front, isBlank c = true) (hne : word ≠ [])
      (hword : ∀ c ∈ word, isBlank c = false) (hrest : ∀ c ∈ rest.head?, isBlank c = true)
      (hmore : MaximalRuns rest more) : MaximalRuns (front ++ word ++ rest) (word :: more)

variable {s word rest front back : List Char} {runs more : List (List Char)}

/-! ### The words of a text in parts -/

theorem words_append_of_blank_front (h : ∀ c ∈ front, isBlank c = true) (s : List Char) :
    words (front ++ s) = words s := by
  induction front with
  | nil => rfl
  | cons c front ih =>
      rw [List.cons_append, words_cons_blank _ (h c List.mem_cons_self)]
      exact ih fun x hx => h x (List.mem_cons_of_mem c hx)

theorem foldr_putInWords_of_blank (h : ∀ c ∈ back, isBlank c = true) :
    back.foldr putInWords ([], []) = ([], []) := by
  induction back with
  | nil => rfl
  | cons c back ih =>
      rw [List.foldr_cons, ih fun x hx => h x (List.mem_cons_of_mem c hx)]
      simp [putInWords, h c List.mem_cons_self]

theorem words_append_of_blank_back (s : List Char) (h : ∀ c ∈ back, isBlank c = true) :
    words (s ++ back) = words s := by
  rw [words, words, List.foldr_append, foldr_putInWords_of_blank h]

theorem foldr_putInWords_of_letters (h : ∀ c ∈ word, isBlank c = false) (w : List Char)
    (ws : List (List Char)) : word.foldr putInWords (w, ws) = (word ++ w, ws) := by
  induction word with
  | nil => rfl
  | cons c word ih =>
      rw [List.foldr_cons, ih fun x hx => h x (List.mem_cons_of_mem c hx)]
      simp [putInWords, h c List.mem_cons_self]

theorem foldr_putInWords_of_head (h : ∀ c ∈ rest.head?, isBlank c = true) :
    rest.foldr putInWords ([], []) = ([], words rest) := by
  cases rest with
  | nil => rfl
  | cons c rest => simp [words, putInWords, h c (by simp)]

theorem words_append_of_letters (hne : word ≠ []) (hword : ∀ c ∈ word, isBlank c = false)
    (hrest : ∀ c ∈ rest.head?, isBlank c = true) : words (word ++ rest) = word :: words rest := by
  rw [words, List.foldr_append, foldr_putInWords_of_head hrest, foldr_putInWords_of_letters hword]
  simp [hne]

/-! ### Existence and uniqueness of the runs -/

theorem MaximalRuns.cons_blank {c : Char} (hc : isBlank c = true) (h : MaximalRuns s runs) :
    MaximalRuns (c :: s) runs := by
  cases h with
  | blank hs => exact .blank (List.forall_mem_cons.2 ⟨hc, hs⟩)
  | run hfront hne hword hrest hmore =>
      have := MaximalRuns.run (List.forall_mem_cons.2 ⟨hc, hfront⟩) hne hword hrest hmore
      simpa using this

/-- The letters at the front of a text are its first run, if there are any. -/
theorem MaximalRuns.of_dropWhile (h : MaximalRuns (s.dropWhile (!isBlank ·)) more) :
    MaximalRuns s (if (s.takeWhile (!isBlank ·)).isEmpty then more
      else s.takeWhile (!isBlank ·) :: more) := by
  have hcut := List.takeWhile_append_dropWhile (p := (!isBlank ·)) (l := s)
  split
  · rename_i hempty
    rw [List.isEmpty_iff.1 hempty, List.nil_append] at hcut
    rwa [hcut] at h
  · rename_i hne
    have hword : ∀ c ∈ s.takeWhile (!isBlank ·), isBlank c = false := by
      intro c hc
      simpa using List.all_eq_true.1 List.all_takeWhile c hc
    have hrest : ∀ c ∈ (s.dropWhile (!isBlank ·)).head?, isBlank c = true := by
      intro c hc
      have hhead := List.head?_dropWhile_not (!isBlank ·) s
      rw [Option.mem_def.1 hc] at hhead
      simpa using hhead
    have hfront : ∀ c ∈ ([] : List Char), isBlank c = true := List.forall_mem_nil _
    have hrun := MaximalRuns.run hfront (by simpa using hne) hword hrest h
    rwa [List.nil_append, hcut] at hrun

/-- While the words of a text are being collected, the word that may still grow is the letters at
the front of the text, and the finished ones are the runs behind them. -/
theorem maximalRuns_foldr (s : List Char) :
    (s.foldr putInWords ([], [])).1 = s.takeWhile (!isBlank ·) ∧
      MaximalRuns (s.dropWhile (!isBlank ·)) (s.foldr putInWords ([], [])).2 := by
  induction s with
  | nil => exact ⟨rfl, .blank (by simp)⟩
  | cons c s ih =>
      rw [List.foldr_cons]
      by_cases hc : isBlank c = true
      · have hruns := MaximalRuns.of_dropWhile ih.2
        rw [← ih.1] at hruns
        simpa [putInWords, hc] using hruns.cons_blank hc
      · simpa [putInWords, hc] using ih

theorem maximalRuns_words (s : List Char) : MaximalRuns s (words s) := by
  obtain ⟨hword, hmore⟩ := maximalRuns_foldr s
  have hruns := MaximalRuns.of_dropWhile hmore
  rwa [← hword] at hruns

theorem MaximalRuns.words_eq (h : MaximalRuns s runs) : words s = runs := by
  induction h with
  | blank hs => simpa using words_append_of_blank_back [] hs
  | run hfront hne hword hrest _ ih =>
      rw [List.append_assoc, words_append_of_blank_front hfront,
        words_append_of_letters hne hword hrest, ih]

theorem maximalRuns_iff : MaximalRuns s runs ↔ words s = runs :=
  ⟨MaximalRuns.words_eq, fun h => h ▸ maximalRuns_words s⟩

theorem words_eq_nil_iff : words s = [] ↔ ∀ c ∈ s, isBlank c = true := by
  rw [← maximalRuns_iff]
  constructor
  · rintro ⟨hs⟩
    exact hs
  · exact .blank

/-! ### Trimming -/

/-- The second text is the first one without the blanks at its two ends. -/
def TrimsTo (s t : List Char) : Prop :=
  ∃ front back, (∀ c ∈ front, isBlank c = true) ∧ (∀ c ∈ back, isBlank c = true) ∧
    s = front ++ t ++ back ∧ (∀ c ∈ t.head?, isBlank c = false) ∧
      ∀ c ∈ t.getLast?, isBlank c = false

theorem head?_dropWhile_isBlank (s : List Char) :
    ∀ c ∈ (s.dropWhile isBlank).head?, isBlank c = false := by
  intro c hc
  have hhead := List.head?_dropWhile_not isBlank s
  rw [Option.mem_def.1 hc] at hhead
  simpa using hhead

theorem dropWhile_isBlank_of_head? (h : ∀ c ∈ s.head?, isBlank c = false) :
    s.dropWhile isBlank = s := by
  cases s with
  | nil => rfl
  | cons c s => exact List.dropWhile_cons_of_neg (by simp [h c rfl])

theorem trimsTo_trim (s : List Char) : TrimsTo s (trim s) := by
  have hback : s.dropWhile isBlank =
      trim s ++ ((s.dropWhile isBlank).reverse.takeWhile isBlank).reverse := by
    rw [trim, ← List.reverse_append, List.takeWhile_append_dropWhile, List.reverse_reverse]
  refine ⟨s.takeWhile isBlank, ((s.dropWhile isBlank).reverse.takeWhile isBlank).reverse,
    List.all_eq_true.1 List.all_takeWhile, ?_, ?_, ?_, ?_⟩
  · intro c hc
    exact List.all_eq_true.1 List.all_takeWhile c (List.mem_reverse.1 hc)
  · rw [List.append_assoc, ← hback, List.takeWhile_append_dropWhile]
  · intro c hc
    apply head?_dropWhile_isBlank s
    rw [hback, List.head?_append, Option.mem_def.1 hc]
    rfl
  · intro c hc
    rw [trim, List.getLast?_reverse] at hc
    exact head?_dropWhile_isBlank _ c hc

theorem words_trim (s : List Char) : words (trim s) = words s := by
  obtain ⟨front, back, hfront, hback, hs, -⟩ := trimsTo_trim s
  calc
    words (trim s) = words (front ++ trim s ++ back) := by
      rw [words_append_of_blank_back _ hback, words_append_of_blank_front hfront]
    _ = words s := by rw [← hs]

theorem trim_eq_nil_iff : trim s = [] ↔ words s = [] := by
  constructor
  · intro h
    rw [← words_trim, h, words_nil]
  · intro h
    have hgone : s.dropWhile isBlank = [] :=
      List.dropWhile_eq_nil_iff.2 (words_eq_nil_iff.1 h)
    rw [trim, hgone]
    rfl

theorem TrimsTo.trim_eq {t : List Char} (h : TrimsTo s t) : trim s = t := by
  obtain ⟨front, back, hfront, hback, rfl, hhead, hlast⟩ := h
  cases t with
  | nil =>
      rw [List.append_nil, trim_eq_nil_iff, words_eq_nil_iff]
      intro c hc
      exact (List.mem_append.1 hc).elim (hfront c) (hback c)
  | cons c t =>
      have hhead' : ∀ x ∈ (c :: t ++ back).head?, isBlank x = false := hhead
      rw [trim, List.append_assoc, List.dropWhile_append_of_pos hfront,
        dropWhile_isBlank_of_head? hhead', List.reverse_append,
        List.dropWhile_append_of_pos fun x hx => hback x (List.mem_reverse.1 hx),
        dropWhile_isBlank_of_head? (by rwa [List.head?_reverse]), List.reverse_reverse]

theorem trimsTo_iff {t : List Char} : TrimsTo s t ↔ t = trim s :=
  ⟨fun h => h.trim_eq.symm, fun h => h ▸ trimsTo_trim s⟩

end LutFixture.Text
