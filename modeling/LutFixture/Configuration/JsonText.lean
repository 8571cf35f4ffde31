import LutFixture.Configuration
import LutFixture.Fault
import LutFixture.Json.Collection

/-!
# Configurations as JSON

A configuration has three groups of options, each a record of its own. Every group and every
option may be left out; then the default holds.
-/

namespace LutFixture

namespace GeneralOptions

/-- General options of which some may not have been read yet. -/
structure Draft where
  /-- Whether a trace is kept, if that has been given. -/
  traceTicks : Option Bool := none
  /-- The tick limit, if it has been given. -/
  maxTicks : Option UInt64 := none

/-- The options that a draft amounts to. -/
def ofDraft (d : Draft) : GeneralOptions where
  traceTicks := d.traceTicks.getD false
  maxTicks := d.maxTicks.getD defaultMaxTicks

/-- General options as records. -/
def jsonRecord : Json.Record Draft GeneralOptions where
  title := "struct GeneralConfig"
  fields := [
    { name := "trace_ticks"
      given := fun d => d.traceTicks.isSome
      update := Json.Reader.boolean.map fun b d => { d with traceTicks := some b } },
    { name := "max_ticks"
      given := fun d => d.maxTicks.isSome
      update := Json.Reader.word64.map fun n d => { d with maxTicks := some n } }]
  blank := {}
  complete := fun _ d => .ok (ofDraft d)

end GeneralOptions

namespace DriverOptions

/-- Driver options of which some may not have been read yet. -/
structure Draft where
  /-- The idle bit, if it has been given. -/
  idleSerialIn : Option Bool := none

/-- The options that a draft amounts to. -/
def ofDraft (d : Draft) : DriverOptions := ⟨d.idleSerialIn.getD false⟩

/-- Driver options as records. -/
def jsonRecord : Json.Record Draft DriverOptions where
  title := "struct DriverConfig"
  fields := [
    { name := "idle_serial_in"
      given := fun d => d.idleSerialIn.isSome
      update := Json.Reader.boolean.map fun b _ => { idleSerialIn := some b } }]
  blank := {}
  complete := fun _ d => .ok (ofDraft d)

end DriverOptions

namespace StatisticsOptions

/-- Statistics options of which some may not have been read yet. -/
structure Draft where
  /-- The names of the wanted sections, if they have been given. -/
  sections : Option (List String) := none

/-- The options that a draft amounts to. -/
def ofDraft (d : Draft) : StatisticsOptions := ⟨d.sections.getD []⟩

/-- Statistics options as records. -/
def jsonRecord : Json.Record Draft StatisticsOptions where
  title := "struct StatsConfig"
  fields := [
    { name := "sections"
      given := fun d => d.sections.isSome
      update := Json.Reader.text.list.map fun names _ => { sections := some names } }]
  blank := {}
  complete := fun _ d => .ok (ofDraft d)

end StatisticsOptions

namespace Configuration

/-- A configuration of which some groups may not have been read yet. -/
structure Draft where
  /-- The general options, if they have been given. -/
  general : Option GeneralOptions := none
  /-- The driver options, if they have been given. -/
  driver : Option DriverOptions := none
  /-- The statistics options, if they have been given. -/
  statistics : Option StatisticsOptions := none

/-- The configuration that a draft amounts to. -/
def ofDraft (d : Draft) : Configuration where
  general := d.general.getD {}
  driver := d.driver.getD {}
  statistics := d.statistics.getD {}

/-- Configurations as records. -/
def jsonRecord : Json.Record Draft Configuration where
  title := "struct Config"
  fields := [
    { name := "general"
      given := fun d => d.general.isSome
      update := GeneralOptions.jsonRecord.reader.map fun g d => { d with general := some g } },
    { name := "driver"
      given := fun d => d.driver.isSome
      update := DriverOptions.jsonRecord.reader.map fun g d => { d with driver := some g } },
    { name := "stats"
      given := fun d => d.statistics.isSome
      update := StatisticsOptions.jsonRecord.reader.map fun g d =>
        { d with statistics := some g } }]
  blank := {}
  complete := fun _ d => .ok (ofDraft d)

/-- The configuration that a JSON text stands for. -/
def ofJson (text : String) : Except Fault Configuration :=
  (jsonRecord.reader.whole text.toList).mapError .json

@[simp] theorem ofDraft_blank : ofDraft {} = {} := rfl

end Configuration

end LutFixture
