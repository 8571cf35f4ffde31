import LutFixture.Configuration.JsonText
import LutFixture.Proofs.Json.Compact
import LutFixture.Proofs.Json.Defaults
import LutFixture.Proofs.Json.Scalar

/-!
# Configurations in JSON

Which values stand for a configuration is said by `Json.Value.IsConfiguration`: three groups of
options, each of which may be left out, and in each group the options, each of which may be left
out. What is left out is as in the default configuration, whether an option is missing from its
group or the whole group is. A text of a value is read as the configuration that the value stands
for (`Configuration.ofJson_fills_defaults`); a value that gives a known key twice, or for something
of the wrong kind, stands for none, and its texts are refused.
-/

namespace LutFixture

open Json (Misgiven Settles Slot Value valuesAt)

/-! ### What stands for a configuration -/

/-- The value stands for general options. -/
def Json.Value.IsGeneralOptions (v : Value) (g : GeneralOptions) : Prop :=
  ∃ members, v.membersFor? ["trace_ticks", "max_ticks"] = some members ∧
    Settles (fun v b => v = .boolean b) ({} : Configuration).general.traceTicks
      (valuesAt "trace_ticks" members) g.traceTicks ∧
    Settles (fun v n => v = .natural n.toNat) ({} : Configuration).general.maxTicks
      (valuesAt "max_ticks" members) g.maxTicks

/-- The value stands for driver options. -/
def Json.Value.IsDriverOptions (v : Value) (g : DriverOptions) : Prop :=
  ∃ members, v.membersFor? ["idle_serial_in"] = some members ∧
    Settles (fun v b => v = .boolean b) ({} : Configuration).driver.idleSerialIn
      (valuesAt "idle_serial_in" members) g.idleSerialIn

/-- The value stands for statistics options. -/
def Json.Value.IsStatisticsOptions (v : Value) (g : StatisticsOptions) : Prop :=
  ∃ members, v.membersFor? ["sections"] = some members ∧
    Settles (fun v names => v = .array (names.map .string)) ({} : Configuration).statistics.sections
      (valuesAt "sections" members) g.sections

/-- The value stands for the configuration. -/
def Json.Value.IsConfiguration (v : Value) (c : Configuration) : Prop :=
  ∃ members, v.membersFor? ["general", "driver", "stats"] = some members ∧
    Settles Value.IsGeneralOptions ({} : Configuration).general
      (valuesAt "general" members) c.general ∧
    Settles Value.IsDriverOptions ({} : Configuration).driver
      (valuesAt "driver" members) c.driver ∧
    Settles Value.IsStatisticsOptions ({} : Configuration).statistics
      (valuesAt "stats" members) c.statistics

/-- The value is no object with general options: a key is repeated, or a value is not of the kind
that belongs to its key. -/
def Json.Value.MisgivesGeneralOptions : Value → Prop :=
  Misgiven [("trace_ticks", fun v => ∀ b, v ≠ .boolean b),
    ("max_ticks", fun v => ∀ n < 2 ^ 64, v ≠ .natural n)]

/-- The value is no object with driver options. -/
def Json.Value.MisgivesDriverOptions : Value → Prop :=
  Misgiven [("idle_serial_in", fun v => ∀ b, v ≠ .boolean b)]

/-- The value is no object with statistics options. -/
def Json.Value.MisgivesStatisticsOptions : Value → Prop :=
  Misgiven [("sections", fun v => ∀ names : List String, v ≠ .array (names.map .string))]

/-- The value is no object with groups of options. -/
def Json.Value.MisgivesConfiguration : Value → Prop :=
  Misgiven [("general", Value.MisgivesGeneralOptions), ("driver", Value.MisgivesDriverOptions),
    ("stats", Value.MisgivesStatisticsOptions)]

/-! ### General options -/

namespace GeneralOptions

/-- The slot of the choice of a trace. -/
def traceTicksSlot : Slot Draft :=
  .boolean "trace_ticks" (fun d => d.traceTicks) fun b d => { d with traceTicks := some b }

/-- The slot of the tick limit. -/
def maxTicksSlot : Slot Draft where
  name := "max_ticks"
  Content := UInt64
  content d := d.maxTicks
  put n d := { d with maxTicks := some n }
  reader := Json.Reader.word64
  meaning := Value.word64?
  reads := Json.Reader.reads_word64

/-- The slots of general options, in their order in an array. -/
def slots : List (Slot Draft) := [traceTicksSlot, maxTicksSlot]

theorem partition_slots : Slot.Partition slots where
  content_put := by
    intro a ha b d
    simp only [slots, List.mem_cons, List.not_mem_nil, or_false] at ha
    rcases ha with rfl | rfl <;> rfl
  apart := by
    have h : traceTicksSlot.Apart maxTicksSlot := ⟨by decide, fun _ _ => rfl, fun _ _ => rfl⟩
    simpa [slots] using h
  ext := fun _ _ h =>
    congrArg₂ Draft.mk (h traceTicksSlot (by simp [slots])) (h maxTicksSlot (by simp [slots]))

/-- A value means the general options that it stands for. -/
theorem meaning_eq_some_iff {v : Value} {g : GeneralOptions} :
    jsonRecord.meaning slots v = some g ↔ v.IsGeneralOptions g := by
  have hblank : ∀ a ∈ slots, a.content {} = none := by
    simp [slots, traceTicksSlot, maxTicksSlot, Slot.boolean]
  rw [Json.Record.meaning_eq_some_iff partition_slots hblank fun _ _ => rfl]
  refine exists_congr fun members => and_congr_right fun _ => ?_
  constructor
  · rintro ⟨d, htakes, rfl⟩
    exact ⟨(htakes traceTicksSlot (by simp [slots])).settles (fun _ _ => Value.boolean?_eq_some) _,
      (htakes maxTicksSlot (by simp [slots])).settles (fun _ _ => Value.word64?_eq_some) _⟩
  · rintro ⟨htrace, hmax⟩
    obtain ⟨trace, htrace, hg⟩ :=
      htrace.exists_takes (a := traceTicksSlot) fun _ _ => Value.boolean?_eq_some
    obtain ⟨limit, hmax, hg'⟩ :=
      hmax.exists_takes (a := maxTicksSlot) fun _ _ => Value.word64?_eq_some
    refine ⟨⟨trace, limit⟩, ?_, congrArg₂ mk hg hg'⟩
    exact List.forall_mem_cons.2 ⟨htrace, List.forall_mem_singleton.2 hmax⟩

end GeneralOptions

/-! ### Driver options -/

namespace DriverOptions

/-- The slot of the idle bit. -/
def idleSerialInSlot : Slot Draft :=
  .boolean "idle_serial_in" (fun d => d.idleSerialIn) fun b _ => { idleSerialIn := some b }

/-- The only slot of driver options. -/
def slots : List (Slot Draft) := [idleSerialInSlot]

theorem partition_slots : Slot.Partition slots :=
  Slot.partition_singleton (a := idleSerialInSlot) (fun _ _ => rfl) fun _ _ h => congrArg Draft.mk h

/-- A value means the driver options that it stands for. -/
theorem meaning_eq_some_iff {v : Value} {g : DriverOptions} :
    jsonRecord.meaning slots v = some g ↔ v.IsDriverOptions g := by
  have hblank : ∀ a ∈ slots, a.content {} = none := by simp [slots, idleSerialInSlot, Slot.boolean]
  rw [Json.Record.meaning_eq_some_iff partition_slots hblank fun _ _ => rfl]
  refine exists_congr fun members => and_congr_right fun _ => ?_
  constructor
  · rintro ⟨d, htakes, rfl⟩
    exact (htakes idleSerialInSlot (by simp [slots])).settles (fun _ _ => Value.boolean?_eq_some) _
  · intro hidle
    obtain ⟨idle, hidle, hg⟩ :=
      hidle.exists_takes (a := idleSerialInSlot) fun _ _ => Value.boolean?_eq_some
    refine ⟨⟨idle⟩, ?_, congrArg mk hg⟩
    exact List.forall_mem_singleton.2 hidle

end DriverOptions

/-! ### Statistics options -/

namespace StatisticsOptions

/-- The slot of the section names. -/
def sectionsSlot : Slot Draft where
  name := "sections"
  Content := List String
  content d := d.sections
  put names _ := { sections := some names }
  reader := Json.Reader.text.list
  meaning v := v.items?.bind (List.mapM Value.string?)
  reads := Json.Reader.reads_text.list

/-- The only slot of statistics options. -/
def slots : List (Slot Draft) := [sectionsSlot]

theorem partition_slots : Slot.Partition slots :=
  Slot.partition_singleton (a := sectionsSlot) (fun _ _ => rfl) fun _ _ h => congrArg Draft.mk h

theorem meaning_sectionsSlot_eq_some_iff {v : Value} {names : List String} :
    sectionsSlot.meaning v = some names ↔ v = .array (names.map .string) := by
  have hitems : ∀ items : List Value,
      List.Forall₂ (fun v x => v = Value.string x) items names ↔ items = names.map .string := by
    intro items
    rw [← List.forall₂_eq_eq_eq, List.forall₂_map_right_iff]
  have hmeaning : sectionsSlot.meaning v = some names ↔
      ∃ items, v = .array items ∧ List.Forall₂ (fun v x => v = Value.string x) items names := by
    simp only [sectionsSlot, Option.bind_eq_some_iff, Value.items?_eq_some, Json.mapM_eq_some_iff,
      Value.string?_eq_some]
  simp only [hmeaning, hitems, exists_eq_right]

/-- A value means the statistics options that it stands for. -/
theorem meaning_eq_some_iff {v : Value} {g : StatisticsOptions} :
    jsonRecord.meaning slots v = some g ↔ v.IsStatisticsOptions g := by
  have hblank : ∀ a ∈ slots, a.content {} = none := by simp [slots, sectionsSlot]
  rw [Json.Record.meaning_eq_some_iff partition_slots hblank fun _ _ => rfl]
  refine exists_congr fun members => and_congr_right fun _ => ?_
  constructor
  · rintro ⟨d, htakes, rfl⟩
    exact (htakes sectionsSlot (by simp [slots])).settles
      (fun _ _ => meaning_sectionsSlot_eq_some_iff) _
  · intro hsections
    obtain ⟨names, hsections, hg⟩ :=
      hsections.exists_takes (a := sectionsSlot) fun _ _ => meaning_sectionsSlot_eq_some_iff
    refine ⟨⟨names⟩, ?_, congrArg mk hg⟩
    exact List.forall_mem_singleton.2 hsections

end StatisticsOptions

/-! ### Configurations -/

namespace Configuration

/-- The slot of the general options. -/
def generalSlot : Slot Draft where
  name := "general"
  Content := GeneralOptions
  content d := d.general
  put g d := { d with general := some g }
  reader := GeneralOptions.jsonRecord.reader
  meaning := GeneralOptions.jsonRecord.meaning GeneralOptions.slots
  reads := Json.Record.reads rfl

/-- The slot of the driver options. -/
def driverSlot : Slot Draft where
  name := "driver"
  Content := DriverOptions
  content d := d.driver
  put g d := { d with driver := some g }
  reader := DriverOptions.jsonRecord.reader
  meaning := DriverOptions.jsonRecord.meaning DriverOptions.slots
  reads := Json.Record.reads rfl

/-- The slot of the statistics options. -/
def statisticsSlot : Slot Draft where
  name := "stats"
  Content := StatisticsOptions
  content d := d.statistics
  put g d := { d with statistics := some g }
  reader := StatisticsOptions.jsonRecord.reader
  meaning := StatisticsOptions.jsonRecord.meaning StatisticsOptions.slots
  reads := Json.Record.reads rfl

/-- The slots of a configuration, in their order in an array. -/
def slots : List (Slot Draft) := [generalSlot, driverSlot, statisticsSlot]

theorem partition_slots : Slot.Partition slots where
  content_put := by
    intro a ha b d
    simp only [slots, List.mem_cons, List.not_mem_nil, or_false] at ha
    rcases ha with rfl | rfl | rfl <;> rfl
  apart := by
    have hdriver : generalSlot.Apart driverSlot := ⟨by decide, fun _ _ => rfl, fun _ _ => rfl⟩
    have hstatistics : generalSlot.Apart statisticsSlot :=
      ⟨by decide, fun _ _ => rfl, fun _ _ => rfl⟩
    have hboth : driverSlot.Apart statisticsSlot := ⟨by decide, fun _ _ => rfl, fun _ _ => rfl⟩
    simpa [slots] using ⟨⟨hdriver, hstatistics⟩, hboth⟩
  ext := by
    rintro ⟨general, driver, statistics⟩ ⟨general', driver', statistics'⟩ h
    obtain rfl : general = general' := h generalSlot (by simp [slots])
    obtain rfl : driver = driver' := h driverSlot (by simp [slots])
    obtain rfl : statistics = statistics' := h statisticsSlot (by simp [slots])
    rfl

/-- A value means the configuration that it stands for. -/
theorem meaning_eq_some_iff {v : Value} {c : Configuration} :
    jsonRecord.meaning slots v = some c ↔ v.IsConfiguration c := by
  have hblank : ∀ a ∈ slots, a.content {} = none := by
    simp [slots, generalSlot, driverSlot, statisticsSlot]
  rw [Json.Record.meaning_eq_some_iff partition_slots hblank fun _ _ => rfl]
  refine exists_congr fun members => and_congr_right fun _ => ?_
  constructor
  · rintro ⟨d, htakes, rfl⟩
    exact ⟨(htakes generalSlot (by simp [slots])).settles
        (fun _ _ => GeneralOptions.meaning_eq_some_iff) _,
      (htakes driverSlot (by simp [slots])).settles
        (fun _ _ => DriverOptions.meaning_eq_some_iff) _,
      (htakes statisticsSlot (by simp [slots])).settles
        (fun _ _ => StatisticsOptions.meaning_eq_some_iff) _⟩
  · rintro ⟨hgeneral, hdriver, hstatistics⟩
    obtain ⟨general, hgeneral, hc⟩ :=
      hgeneral.exists_takes (a := generalSlot) fun _ _ => GeneralOptions.meaning_eq_some_iff
    obtain ⟨driver, hdriver, hc'⟩ :=
      hdriver.exists_takes (a := driverSlot) fun _ _ => DriverOptions.meaning_eq_some_iff
    obtain ⟨statistics, hstatistics, hc''⟩ := hstatistics.exists_takes (a := statisticsSlot)
      fun _ _ => StatisticsOptions.meaning_eq_some_iff
    refine ⟨⟨general, driver, statistics⟩, ?_, ?_⟩
    · exact List.forall_mem_cons.2
        ⟨hgeneral, List.forall_mem_cons.2 ⟨hdriver, List.forall_mem_singleton.2 hstatistics⟩⟩
    · cases c
      exact congr (congrArg₂ mk hc hc') hc''

end Configuration

/-! ### What stands for no configuration -/

namespace Json.Value

variable {v : Value}

theorem MisgivesGeneralOptions.not_isGeneralOptions (h : v.MisgivesGeneralOptions)
    (g : GeneralOptions) : ¬v.IsGeneralOptions g := by
  rintro ⟨members, hmembers, htrace, hmax⟩
  obtain ⟨key, hkey, hwrong⟩ := Misgiven.exists_of_membersFor? h hmembers
  simp only [List.mem_cons, List.not_mem_nil, or_false] at hkey
  rcases hkey with rfl | rfl
  · exact htrace.not_misgiven (fun _ hv b => hv b) hwrong
  · exact hmax.not_misgiven (fun _ hv n => hv n.toNat n.toNat_lt) hwrong

theorem MisgivesDriverOptions.not_isDriverOptions (h : v.MisgivesDriverOptions)
    (g : DriverOptions) : ¬v.IsDriverOptions g := by
  rintro ⟨members, hmembers, hidle⟩
  obtain ⟨key, hkey, hwrong⟩ := Misgiven.exists_of_membersFor? h hmembers
  obtain rfl := List.mem_singleton.1 hkey
  exact hidle.not_misgiven (fun _ hv b => hv b) hwrong

theorem MisgivesStatisticsOptions.not_isStatisticsOptions (h : v.MisgivesStatisticsOptions)
    (g : StatisticsOptions) : ¬v.IsStatisticsOptions g := by
  rintro ⟨members, hmembers, hsections⟩
  obtain ⟨key, hkey, hwrong⟩ := Misgiven.exists_of_membersFor? h hmembers
  obtain rfl := List.mem_singleton.1 hkey
  exact hsections.not_misgiven (fun _ hv names => hv names) hwrong

theorem MisgivesConfiguration.not_isConfiguration (h : v.MisgivesConfiguration)
    (c : Configuration) : ¬v.IsConfiguration c := by
  rintro ⟨members, hmembers, hgeneral, hdriver, hstatistics⟩
  obtain ⟨key, hkey, hwrong⟩ := Misgiven.exists_of_membersFor? h hmembers
  simp only [List.mem_cons, List.not_mem_nil, or_false] at hkey
  rcases hkey with rfl | rfl | rfl
  · exact hgeneral.not_misgiven (fun _ => MisgivesGeneralOptions.not_isGeneralOptions) hwrong
  · exact hdriver.not_misgiven (fun _ => MisgivesDriverOptions.not_isDriverOptions) hwrong
  · exact hstatistics.not_misgiven (fun _ => MisgivesStatisticsOptions.not_isStatisticsOptions)
      hwrong

end Json.Value

/-! ### Reading a configuration -/

namespace Configuration

theorem reads_configuration : jsonRecord.reader.Reads (jsonRecord.meaning slots) :=
  Json.Record.reads rfl

/-- A text of a value is read as the configuration that the value stands for, in which everything
that is left out is as in the default configuration. All other values are refused as JSON, and among
them those that give a known key twice or for something of the wrong kind. -/
theorem ofJson_fills_defaults {v : Value} {text : String} (htext : v.IsText text) :
    (∀ c, ofJson text = .ok c ↔ v.IsConfiguration c) ∧
      (∀ fault, ofJson text = .error fault → ∃ failure, fault = .json failure) ∧
        (v.MisgivesConfiguration → ∃ failure, ofJson text = .error (.json failure)) := by
  have hok : ∀ c, ofJson text = .ok c ↔ v.IsConfiguration c := by
    intro c
    rw [ofJson, reads_configuration.mapError_whole_eq_ok_iff htext, meaning_eq_some_iff]
  have herror : ∀ fault, ofJson text = .error fault → ∃ failure, fault = .json failure :=
    fun fault h => Json.exists_of_mapError_eq_error h
  refine ⟨hok, herror, ?_⟩
  intro hwrong
  cases hread : ofJson text with
  | ok c => exact absurd ((hok c).1 hread) (hwrong.not_isConfiguration c)
  | error fault =>
      obtain ⟨failure, rfl⟩ := herror fault hread
      exact ⟨failure, rfl⟩

/-- The greatest limit is read, beside a key that is ignored, and the rest is as in the default
configuration; a limit that is greater by one is refused. -/
theorem ofJson_fills_defaults_greatest_limit :
    (Value.object [("general", .object [("max_ticks", .natural (2 ^ 64 - 1))]),
        ("more", .array [.null])]).IsText
        "\x7b\"general\":\x7b\"max_ticks\":18446744073709551615\x7d,\"more\":[null]\x7d" ∧
      ofJson "\x7b\"general\":\x7b\"max_ticks\":18446744073709551615\x7d,\"more\":[null]\x7d" =
        .ok { general := { maxTicks := 0xffffffffffffffff } } ∧
      (Value.object [("general", .object [("max_ticks", .natural (2 ^ 64))])]).IsText
        "\x7b\"general\":\x7b\"max_ticks\":18446744073709551616\x7d\x7d" ∧
      ∃ failure, ofJson "\x7b\"general\":\x7b\"max_ticks\":18446744073709551616\x7d\x7d" =
        .error (.json failure) := by
  have htext := Value.isText_compact (.object
    [("general", .object [("max_ticks", .natural (2 ^ 64 - 1))]), ("more", .array [.null])])
  have hgreater := Value.isText_compact
    (.object [("general", .object [("max_ticks", .natural (2 ^ 64))])])
  have hlimit : Value.MisgivesGeneralOptions (.object [("max_ticks", .natural (2 ^ 64))]) := by
    refine .inr ⟨_, rfl, _, .tail _ (.head _), .inr ⟨_, .head _, ?_⟩⟩
    rintro n hn ⟨⟩
    exact Nat.lt_irrefl _ hn
  refine ⟨htext, ((ofJson_fills_defaults htext).1 _).2 ?_, hgreater,
    (ofJson_fills_defaults hgreater).2.2 (.inr ⟨_, rfl, _, .head _, .inr ⟨_, .head _, hlimit⟩⟩)⟩
  exact ⟨_, rfl, .given ⟨_, rfl, .absent, .given rfl⟩, .absent, .absent⟩

end Configuration

end LutFixture
