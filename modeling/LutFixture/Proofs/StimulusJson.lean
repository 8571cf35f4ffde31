import LutFixture.Proofs.Json.Compact
import LutFixture.Proofs.Json.Record
import LutFixture.Stimulus.JsonText

/-!
# Stimuli in JSON

Which values stand for an edge and for a stimulus is said by `Json.Value.IsEdge` and
`Json.Value.IsStimulus`. A text of a value is read as a stimulus exactly if the value stands for
one, and is refused otherwise. The text that a stimulus is written as is a text of a value that
stands for it, so reading undoes writing.
-/

namespace LutFixture

open Json (Value valuesAt)

/-- The value stands for the edge: an object that gives the serial bit once, the strobe once or not
at all, and anything else under other keys; or an array of the serial bit and perhaps the strobe. -/
inductive Json.Value.IsEdge : Value → Edge → Prop
  | object {members : List (String × Value)} {serialIn : Bool}
      (hserial : valuesAt "serial_in" members = [.boolean serialIn])
      (hstrobe : valuesAt "strobe" members = []) : IsEdge (.object members) ⟨serialIn, false⟩
  | strobedObject {members : List (String × Value)} {serialIn strobe : Bool}
      (hserial : valuesAt "serial_in" members = [.boolean serialIn])
      (hstrobe : valuesAt "strobe" members = [.boolean strobe]) :
      IsEdge (.object members) ⟨serialIn, strobe⟩
  | array {serialIn : Bool} : IsEdge (.array [.boolean serialIn]) ⟨serialIn, false⟩
  | strobedArray {serialIn strobe : Bool} :
      IsEdge (.array [.boolean serialIn, .boolean strobe]) ⟨serialIn, strobe⟩

/-- The value stands for the stimulus: an array of values that stand for its edges. -/
def Json.Value.IsStimulus (v : Value) (s : Stimulus) : Prop :=
  ∃ items, v = .array items ∧ List.Forall₂ Value.IsEdge items s

/-! ### Edges -/

namespace EdgeDraft

/-- The slot of the serial bit. -/
def serialInSlot : Json.Slot EdgeDraft :=
  .boolean "serial_in" (fun d => d.serialIn) fun b d => { d with serialIn := some b }

/-- The slot of the strobe. -/
def strobeSlot : Json.Slot EdgeDraft :=
  .boolean "strobe" (fun d => d.strobe) fun b d => { d with strobe := some b }

/-- The slots of an edge, in their order in an array. -/
def slots : List (Json.Slot EdgeDraft) := [serialInSlot, strobeSlot]

theorem partition_slots : Json.Slot.Partition slots where
  content_put := by
    intro a ha b d
    simp only [slots, List.mem_cons, List.not_mem_nil, or_false] at ha
    rcases ha with rfl | rfl <;> rfl
  apart := by
    have h : serialInSlot.Apart strobeSlot := ⟨by decide, fun _ _ => rfl, fun _ _ => rfl⟩
    simpa [slots] using h
  ext := fun _ _ h =>
    congrArg₂ EdgeDraft.mk (h serialInSlot (by simp [slots])) (h strobeSlot (by simp [slots]))

variable {d : EdgeDraft} {e : Edge} {v : Value}

theorem toOption_complete (form : Json.Form) (d : EdgeDraft) :
    (complete form d).toOption = d.serialIn.map fun b => ⟨b, d.strobe.getD false⟩ := by
  unfold complete
  cases d.serialIn <;> rfl

/-- The members of an object fill the slots of an empty draft with the values of their keys. -/
theorem foldlM_enter_eq_some_iff {members : List (String × Value)} :
    members.foldlM (Json.Slot.enter slots) {} = some d ↔
      serialInSlot.Takes none (valuesAt "serial_in" members) d.serialIn ∧
        strobeSlot.Takes none (valuesAt "strobe" members) d.strobe := by
  rw [partition_slots.foldlM_eq_some_iff]
  simp only [slots, List.forall_mem_cons, List.not_mem_nil, false_imp_iff, implies_true, and_true]
  rfl

/-- An object means the edge that it stands for. -/
theorem meaning_object_eq_some_iff {members : List (String × Value)} :
    Edge.jsonRecord.meaning slots (.object members) = some e ↔
      Value.IsEdge (.object members) e := by
  constructor
  · intro h
    obtain ⟨d, hd, he⟩ := Option.bind_eq_some_iff.1 h
    obtain ⟨hserial, hstrobe⟩ := foldlM_enter_eq_some_iff.1 hd
    have hcomplete := (toOption_complete .object d).symm.trans he
    obtain ⟨serialIn, hbit, rfl⟩ := Option.map_eq_some_iff.1 hcomplete
    rw [hbit] at hserial
    have hserial := Json.Slot.takes_boolean_iff.1 hserial
    cases hflag : d.strobe with
    | none =>
        rw [hflag] at hstrobe
        exact .object hserial (Json.Slot.takes_none_none_iff.1 hstrobe)
    | some strobe =>
        rw [hflag] at hstrobe
        exact .strobedObject hserial (Json.Slot.takes_boolean_iff.1 hstrobe)
  · intro h
    cases h with
    | @object _ serialIn hserial hstrobe =>
        have hd : members.foldlM (Json.Slot.enter slots) {} = some ⟨some serialIn, none⟩ :=
          foldlM_enter_eq_some_iff.2 ⟨Json.Slot.takes_boolean_iff.2 hserial,
            Json.Slot.takes_none_none_iff.2 hstrobe⟩
        exact Option.bind_eq_some_iff.2 ⟨_, hd, rfl⟩
    | @strobedObject _ serialIn strobe hserial hstrobe =>
        have hd : members.foldlM (Json.Slot.enter slots) {} = some ⟨some serialIn, some strobe⟩ :=
          foldlM_enter_eq_some_iff.2 ⟨Json.Slot.takes_boolean_iff.2 hserial,
            Json.Slot.takes_boolean_iff.2 hstrobe⟩
        exact Option.bind_eq_some_iff.2 ⟨_, hd, rfl⟩

/-- An array means the edge that it stands for. -/
theorem meaning_array_eq_some_iff {items : List Value} :
    Edge.jsonRecord.meaning slots (.array items) = some e ↔ Value.IsEdge (.array items) e := by
  constructor
  · intro h
    obtain ⟨d, hd, he⟩ := Option.bind_eq_some_iff.1 h
    have hcomplete := (toOption_complete .array d).symm.trans he
    match items with
    | [] =>
        obtain rfl := Option.some.inj hd
        cases hcomplete
    | [v] =>
        obtain ⟨b, hb, hd⟩ := Option.bind_eq_some_iff.1 hd
        obtain rfl := Value.boolean?_eq_some.1 hb
        obtain rfl := Option.some.inj hd
        obtain rfl := Option.some.inj hcomplete
        exact .array
    | [v, w] =>
        obtain ⟨b, hb, hd⟩ := Option.bind_eq_some_iff.1 hd
        obtain ⟨c, hc, hd⟩ := Option.bind_eq_some_iff.1 hd
        obtain rfl := Value.boolean?_eq_some.1 hb
        obtain rfl := Value.boolean?_eq_some.1 hc
        obtain rfl := Option.some.inj hd
        obtain rfl := Option.some.inj hcomplete
        exact .strobedArray
    | v :: w :: x :: more =>
        obtain ⟨b, -, hd⟩ := Option.bind_eq_some_iff.1 hd
        obtain ⟨c, -, hd⟩ := Option.bind_eq_some_iff.1 hd
        cases hd
  · intro h
    cases h with
    | array => rfl
    | strobedArray => rfl

theorem meaning_eq_some_iff : Edge.jsonRecord.meaning slots v = some e ↔ v.IsEdge e := by
  cases v with
  | object members => exact meaning_object_eq_some_iff
  | array items => exact meaning_array_eq_some_iff
  | _ => exact ⟨nofun, nofun⟩

theorem reads_edge : Edge.jsonRecord.reader.Reads (Edge.jsonRecord.meaning slots) :=
  Json.Record.reads rfl

end EdgeDraft

/-- An edge is written as a value that stands for it. -/
theorem Edge.isEdge_json (e : Edge) : e.json.IsEdge e := .strobedObject rfl rfl

/-! ### Stimuli -/

namespace Stimulus

variable {v : Value} {text : String} {s : Stimulus}

theorem isStimulus_json (s : Stimulus) : s.json.IsStimulus s :=
  ⟨_, rfl, List.forall₂_map_left_iff.2 (List.forall₂_same.2 fun e _ => e.isEdge_json)⟩

/-- A text of a value is read as the stimulus that the value stands for. -/
theorem ofJson_eq_ok_iff (htext : v.IsText text) : ofJson text = .ok s ↔ v.IsStimulus s := by
  rw [ofJson, EdgeDraft.reads_edge.list.mapError_whole_eq_ok_iff htext]
  simp only [Option.bind_eq_some_iff, Value.items?_eq_some, Json.mapM_eq_some_iff,
    EdgeDraft.meaning_eq_some_iff]
  rfl

theorem exists_of_ofJson_eq_error {fault : Fault} (h : ofJson text = .error fault) :
    ∃ failure, fault = .json failure :=
  Json.exists_of_mapError_eq_error h

/-- Reading undoes writing, and different stimuli are written differently. -/
theorem ofJson_undoes_compact : (∀ s : Stimulus, ofJson s.json.compact = .ok s) ∧
    Function.Injective fun s : Stimulus => s.json.compact := by
  have hback : ∀ s : Stimulus, ofJson s.json.compact = .ok s := fun s =>
    (ofJson_eq_ok_iff s.json.isText_compact).2 s.isStimulus_json
  refine ⟨hback, ?_⟩
  intro s t hst
  have hboth : (Except.ok s : Except Fault Stimulus) = .ok t := by
    rw [← hback s, ← hback t]
    exact congrArg ofJson hst
  exact Except.ok.inj hboth

/-- The first letter of the key may be written by its code point. -/
theorem spelling_escaped_serial_in :
    (Json.Token.string "serial_in").Spelling "\"\\u0073erial_in\"".toList := by
  have hunit : Json.UnitEscape 0x73 "\\u0073".toList :=
    .digits (a := 0) (b := 0) (c := 7) (d := 3) (.lower (by decide)) (.lower (by decide))
      (.lower (by decide)) (.lower (by decide))
  have hunits : List.Forall₂ Json.UnitEscape (Json.utf16 's') ["\\u0073".toList] :=
    .cons hunit .nil
  have hletter : Json.CharSpelling 's' "\\u0073".toList := .units hunits
  exact ⟨_, .cons hletter (Json.stringSpelling_escapedChars "erial_in".toList), rfl⟩

theorem isText_escaped_key :
    (Value.array [.object [("more", .array [.null]), ("serial_in", .boolean true)]]).IsText
      "[ \x7b\"more\":[null],\"\\u0073erial_in\" :true\x7d]\n" := by
  apply Json.Spelling.mark .openList
  apply Json.Spelling.blank (by decide)
  apply Json.Spelling.mark .openObject
  apply Json.Spelling.token (Json.spelling_stringChars "more")
  apply Json.Spelling.mark .colon
  apply Json.Spelling.mark .openList
  apply Json.Spelling.token (t := .null) (w := "null".toList) rfl
  apply Json.Spelling.mark .closeList
  apply Json.Spelling.mark .comma
  apply Json.Spelling.token spelling_escaped_serial_in
  apply Json.Spelling.blank (by decide)
  apply Json.Spelling.mark .colon
  apply Json.Spelling.token (t := .boolean true) (w := "true".toList) rfl
  apply Json.Spelling.mark .closeObject
  apply Json.Spelling.mark .closeList
  exact .blank (by decide) .nil

theorem not_isStimulus_repeated_key (s : Stimulus) :
    ¬Value.IsStimulus
      (.array [.object [("serial_in", .boolean true), ("serial_in", .boolean true)]]) s := by
  rintro ⟨items, hv, h⟩
  cases hv
  cases h with
  | cons hedge _ => cases hedge <;> rename_i hserial _ <;> cases hserial

/-- A text of a value is read as the stimulus that the value stands for; if it stands for none, the
text is refused as JSON. -/
theorem ofJson_accepts_stimuli (htext : v.IsText text) :
    (∀ s, ofJson text = .ok s ↔ v.IsStimulus s) ∧
      ((∀ s, ¬v.IsStimulus s) → ∃ failure, ofJson text = .error (.json failure)) := by
  refine ⟨fun s => ofJson_eq_ok_iff htext, ?_⟩
  intro hnone
  cases hread : ofJson text with
  | ok s => exact absurd ((ofJson_eq_ok_iff htext).1 hread) (hnone s)
  | error fault =>
      obtain ⟨failure, rfl⟩ := exists_of_ofJson_eq_error hread
      exact ⟨failure, rfl⟩

/-- An ignored key and an escaped one are read; a repeated one is refused. -/
theorem ofJson_accepts_stimuli_escaped_and_repeated_key :
    (Value.array [.object [("more", .array [.null]), ("serial_in", .boolean true)]]).IsText
        "[ \x7b\"more\":[null],\"\\u0073erial_in\" :true\x7d]\n" ∧
      ofJson "[ \x7b\"more\":[null],\"\\u0073erial_in\" :true\x7d]\n" =
        .ok [Edge.shift true] ∧
      (Value.array [.object [("serial_in", .boolean true), ("serial_in", .boolean true)]]).IsText
        "[\x7b\"serial_in\":true,\"serial_in\":true\x7d]" ∧
      ∃ failure, ofJson "[\x7b\"serial_in\":true,\"serial_in\":true\x7d]" =
        .error (.json failure) :=
  have haccepted := (ofJson_accepts_stimuli isText_escaped_key).1 [Edge.shift true]
  have hrepeated := Value.isText_compact
    (.array [.object [("serial_in", .boolean true), ("serial_in", .boolean true)]])
  ⟨isText_escaped_key, haccepted.2 ⟨_, rfl, .cons (.object rfl rfl) .nil⟩, hrepeated,
    (ofJson_accepts_stimuli hrepeated).2 not_isStimulus_repeated_key⟩

end Stimulus

end LutFixture
