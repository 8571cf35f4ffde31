import LutFixture.File

/-!
# What is found in a file

What can be read from a file, said without reading it. A file has a text where it is there, is no
directory and holds the UTF-8 encoding of that text; else it cannot be read (`File.Unreadable`). A
stimulus is written as JSON where the name of the file ends in a dot and `json`, in letters of any
case, and something stands in front of the dot (`File.NamesJson`). All other files hold a stimulus
line by line.
-/

namespace LutFixture

/-- The pieces between the marks are those of the library. -/
theorem Text.pieces_eq_splitOn (mark : Char) (s : List Char) : pieces mark s = s.splitOn mark := by
  induction s with
  | nil => rfl
  | cons c s ih =>
      rw [List.splitOn_cons_eq_if_modifyHead, ← ih]
      by_cases h : c = mark
      · rw [h, pieces_cons_mark, if_pos (beq_self_eq_true mark)]
      · simp [pieces, putInPieces, h]

namespace File

/-! ### The name of a file -/

/-- The last name in a path is that of a JSON file: some characters, a dot and the letters of
JSON. Slashes may stand behind it, and single dots between them. -/
def NamesJson (path : String) : Prop :=
  ∃ front stem ext back, path.toList.splitOn '/' = front ++ (stem ++ '.' :: ext) :: back ∧
    (∀ name ∈ back, name = [] ∨ name = ['.']) ∧ stem ≠ [] ∧
    ext.map Char.toLower = ['j', 's', 'o', 'n']

/-- What stands behind the last dot of a name, where something stands in front of it. -/
theorem extension?_append {stem ext : List Char} (hstem : stem ≠ []) (hext : '.' ∉ ext)
    (hne : ext ≠ []) : extension? (stem ++ '.' :: ext) = some ext := by
  have hall : ∀ c ∈ ext.reverse, (c != '.') = true := by
    intro c hc
    exact bne_iff_ne.2 fun hdot => hext (hdot ▸ List.mem_reverse.1 hc)
  have hbehind : ((stem ++ '.' :: ext).reverse.takeWhile (· != '.')).reverse = ext := by
    rw [List.reverse_append, List.reverse_cons, List.append_assoc, List.singleton_append,
      List.takeWhile_append_of_pos hall]
    simp
  have hstem' := List.length_pos_iff.2 hstem
  have hext' := List.length_pos_iff.2 hne
  have hparent : stem ++ '.' :: ext ≠ ['.', '.'] := by
    intro h
    have hlength := congrArg List.length h
    simp only [List.length_append, List.length_cons, List.length_nil] at hlength
    omega
  have hlength : ¬ (stem ++ '.' :: ext).length - ext.length ≤ 1 := by
    rw [List.length_append, List.length_cons]
    omega
  unfold extension?
  rw [if_neg hparent, hbehind]
  exact if_neg hlength

theorem exists_of_extension?_eq_some {name ext : List Char} (h : extension? name = some ext) :
    ∃ stem, stem ≠ [] ∧ name = stem ++ '.' :: ext := by
  unfold extension? at h
  split at h
  · cases h
  · have hcut := @List.takeWhile_append_dropWhile _ (· != '.') name.reverse
    generalize name.reverse.takeWhile (· != '.') = last at h hcut
    dsimp only at h
    split at h
    · cases h
    · rename_i hlength
      obtain rfl := Option.some.inj h
      cases hdrop : name.reverse.dropWhile (· != '.') with
      | nil =>
          rw [hdrop, List.append_nil] at hcut
          rw [hcut, List.reverse_reverse, Nat.sub_self] at hlength
          exact absurd (Nat.zero_le 1) hlength
      | cons c front =>
          have hhead := List.head?_dropWhile_not (· != '.') name.reverse
          rw [hdrop] at hhead
          obtain rfl : c = '.' := by simpa using hhead
          obtain rfl : front.reverse ++ '.' :: last.reverse = name := by
            have hname := congrArg List.reverse hcut
            rw [hdrop] at hname
            simpa using hname
          refine ⟨front.reverse, ?_, rfl⟩
          intro hfront
          rw [hfront] at hlength
          simp at hlength

theorem isJsonName_iff {path : String} : isJsonName path = true ↔ NamesJson path := by
  have hskip : ∀ name : List Char,
      (!(name != [] && name != ['.'])) = true ↔ name = [] ∨ name = ['.'] := by
    intro name
    simp only [Bool.not_and, bne, Bool.not_not, Bool.or_eq_true, beq_iff_eq]
  rw [isJsonName, baseName, Text.pieces_eq_splitOn]
  constructor
  · intro h
    split at h
    · rename_i ext hext
      cases hname : (path.toList.splitOn '/').reverse.find? (fun x => x != [] && x != ['.']) with
      | none =>
          rw [hname] at hext
          cases hext
      | some name =>
          rw [hname] at hext
          obtain ⟨stem, hstem, rfl⟩ := exists_of_extension?_eq_some hext
          obtain ⟨-, back, front, hpath, hback⟩ := List.find?_eq_some_iff_append.1 hname
          refine ⟨front.reverse, stem, ext, back.reverse, ?_, ?_, hstem, beq_iff_eq.1 h⟩
          · simpa using congrArg List.reverse hpath
          · intro x hx
            exact (hskip x).1 (hback x (List.mem_reverse.1 hx))
    · cases h
  · rintro ⟨front, stem, ext, back, hpath, hback, hstem, hext⟩
    have hdot : '.' ∉ ext := by
      intro hdot
      have hmem := List.mem_map_of_mem (f := Char.toLower) hdot
      rw [hext] at hmem
      exact absurd hmem (by decide)
    have hne : ext ≠ [] := by
      rintro rfl
      cases hext
    have hname : (path.toList.splitOn '/').reverse.find? (fun x => x != [] && x != ['.']) =
        some (stem ++ '.' :: ext) := by
      refine List.find?_eq_some_iff_append.2 ⟨?_, back.reverse, front.reverse, ?_, ?_⟩
      · have hstem' := List.length_pos_iff.2 hstem
        have hlength : (stem ++ '.' :: ext).length = stem.length + ext.length + 1 := by
          rw [List.length_append, List.length_cons, Nat.add_assoc]
        rw [Bool.and_eq_true, bne_iff_ne, bne_iff_ne]
        constructor
        · intro h
          rw [h] at hlength
          cases hlength
        · intro h
          rw [h, List.length_singleton] at hlength
          omega
      · simp [hpath]
      · intro x hx
        exact (hskip x).2 (hback x (List.mem_reverse.1 hx))
    rw [hname, Option.getD_some, extension?_append hstem hdot hne]
    exact beq_iff_eq.2 hext

instance : DecidablePred NamesJson := fun _ => decidable_of_iff _ isJsonName_iff

/-! ### The contents of a file -/

/-- The file has no text. -/
inductive Unreadable : File → Prop
  | absent : Unreadable .absent
  | directory : Unreadable .directory
  | throughFile : Unreadable .throughFile
  | nameTooLong : Unreadable .nameTooLong
  | unreadable {reason : String} : Unreadable (.unreadable reason)
  | contents {bytes : ByteArray} (h : ∀ s : String, s.toUTF8 ≠ bytes) :
    Unreadable (.contents bytes)

section Text

variable {f : File} {s : String}

theorem text_eq_ok_iff : f.text = .ok s ↔ f = .contents s.toUTF8 := by
  constructor
  · intro h
    cases f with
    | contents bytes =>
        rw [text] at h
        split at h
        · rename_i t ht
          obtain rfl := Except.ok.inj h
          rw [String.fromUTF8?] at ht
          split at ht
          · obtain rfl := Option.some.inj ht
            rfl
          · cases ht
        · cases h
    | _ => cases h
  · rintro rfl
    exact text_contents_toUTF8 s

theorem exists_text_eq_error_iff : (∃ e, f.text = .error e) ↔ f.Unreadable := by
  constructor
  · rintro ⟨e, h⟩
    cases f with
    | absent => exact .absent
    | directory => exact .directory
    | throughFile => exact .throughFile
    | nameTooLong => exact .nameTooLong
    | unreadable reason => exact .unreadable
    | contents bytes =>
        apply Unreadable.contents
        rintro s rfl
        rw [text_contents_toUTF8] at h
        cases h
  · intro h
    cases htext : f.text with
    | error e => exact ⟨e, rfl⟩
    | ok s =>
        obtain rfl := text_eq_ok_iff.1 htext
        cases h with
        | contents hbytes => exact absurd rfl (hbytes s)

end Text

/-! ### Reading a file -/

section Reading

variable {α : Type} {f : File} {reader : String → Except Fault α}

/-- The file has a text, and the reader makes this of it. -/
def Yields (f : File) (reader : String → Except Fault α) (a : α) : Prop :=
  ∃ text : String, f = .contents text.toUTF8 ∧ reader text = .ok a

/-- The file has no text, or none that the reader makes anything of. -/
def Fails (f : File) (reader : String → Except Fault α) : Prop :=
  f.Unreadable ∨ ∃ (text : String) (e : Fault), f = .contents text.toUTF8 ∧ reader text = .error e

theorem read_eq_ok_iff {a : α} : f.read reader = .ok a ↔ f.Yields reader a := by
  simp only [Yields, ← text_eq_ok_iff]
  unfold read
  cases h : f.text with
  | error e => simp
  | ok text => simp

/-- The file with a text yields what the reader makes of the text. -/
theorem yields_contents {text : String} {a : α}
    (h : (reader text).toOption = some a) : (contents text.toUTF8).Yields reader a := by
  refine ⟨text, rfl, ?_⟩
  cases hread : reader text with
  | error f =>
      rw [hread] at h
      cases h
  | ok x =>
      rw [hread] at h
      exact congrArg Except.ok (Option.some.inj h)

theorem exists_read_eq_error_iff : (∃ e, f.read reader = .error e) ↔ f.Fails reader := by
  simp only [Fails, ← exists_text_eq_error_iff, ← text_eq_ok_iff]
  unfold read
  cases h : f.text with
  | error e => simp
  | ok text => simp

end Reading

/-! ### Stimulus files -/

section Stimulus

variable {path : String} {f : File} {edges : Stimulus}

/-- The file holds a stimulus, in the format that its name asks for. -/
def HoldsStimulus (path : String) (f : File) (edges : Stimulus) : Prop :=
  (NamesJson path ∧ f.Yields Stimulus.ofJson edges) ∨
    (¬ NamesJson path ∧ f.Yields Stimulus.ofText edges)

/-- The file holds no stimulus in the format that its name asks for. -/
def LacksStimulus (path : String) (f : File) : Prop :=
  (NamesJson path ∧ f.Fails Stimulus.ofJson) ∨ (¬ NamesJson path ∧ f.Fails Stimulus.ofText)

theorem stimulus_eq_ok_iff : f.stimulus path = .ok edges ↔ HoldsStimulus path f edges := by
  rw [HoldsStimulus, stimulus, read_eq_ok_iff, stimulusReader, ← isJsonName_iff]
  by_cases h : isJsonName path <;> simp [h]

theorem exists_stimulus_eq_error_iff :
    (∃ e, f.stimulus path = .error e) ↔ LacksStimulus path f := by
  simp only [LacksStimulus, stimulus, exists_read_eq_error_iff, stimulusReader, ← isJsonName_iff]
  by_cases h : isJsonName path <;> simp [h]

theorem HoldsStimulus.unique {edges' : Stimulus} (h : HoldsStimulus path f edges)
    (h' : HoldsStimulus path f edges') : edges = edges' :=
  Except.ok.inj ((stimulus_eq_ok_iff.2 h).symm.trans (stimulus_eq_ok_iff.2 h'))

theorem HoldsStimulus.not_lacks (h : HoldsStimulus path f edges) : ¬ LacksStimulus path f := by
  intro hlacks
  obtain ⟨e, he⟩ := exists_stimulus_eq_error_iff.2 hlacks
  cases (stimulus_eq_ok_iff.2 h).symm.trans he

end Stimulus

end File

end LutFixture
