import LutFixture.CommandLine.Execute
import LutFixture.Proofs.CommandReading
import LutFixture.Proofs.Commands
import LutFixture.Proofs.StimulusFile

/-!
# Exit status of a command line

A task fails only at its stimulus: the file cannot be read, its text is not one of the format that
the name asks for, or it has more edges than the configuration allows (`Task.Fails`). The sweep of
the reference table is checked against that table, so it goes through. A configuration that cannot
be read comes before all that, whatever the task. These two causes are told apart by the exit
status, and either one leaves the standard output empty.
-/

namespace LutFixture

namespace CommandLine

variable {config : Configuration} {files : String → File} {i : Invocation}

/-- The configuration that is in force where a file with one is named, or none. -/
inductive InForce (files : String → File) : Option String → Configuration → Prop
  | default : InForce files none {}
  | named {path : String} {config : Configuration} :
    (files path).Yields Configuration.ofJson config → InForce files (some path) config

theorem configurationOf_eq_ok_iff :
    configurationOf i files = .ok config ↔ InForce files i.config config := by
  rw [configurationOf]
  cases h : i.config with
  | none =>
      constructor
      · intro hdefault
        rw [← Except.ok.inj hdefault]
        exact .default
      · rintro ⟨⟩
        rfl
  | some path =>
      constructor
      · intro hread
        exact .named (File.read_eq_ok_iff.1 hread)
      · rintro (_ | hyields)
        exact File.read_eq_ok_iff.2 hyields

theorem exists_configurationOf_eq_error_iff :
    (∃ f, configurationOf i files = .error f) ↔
      ∃ path, i.config = some path ∧ (files path).Fails Configuration.ofJson := by
  rw [configurationOf]
  cases h : i.config with
  | none => simp
  | some path =>
      have hfails : (∃ f, (files path).configuration = .error f) ↔
          (files path).Fails Configuration.ofJson := File.exists_read_eq_error_iff
      simp [hfails]

/-! ### Tasks -/

/-- A task that cannot be done: a stimulus that cannot be read in the format that the file name asks
for, or one with more edges than are allowed. -/
def Task.Fails (files : String → File) (config : Configuration) : Task → Prop
  | .run path _ _ =>
    File.LacksStimulus path (files path) ∨
      ∃ edges, File.HoldsStimulus path (files path) edges ∧
        config.general.maxTicks.toNat < edges.length
  | _ => False

/-- A performance that fails where the task does, and then prints nothing. -/
structure Performance.Reports (x : Performance) (fails : Prop) : Prop where
  fault : (∃ f, x.fault = some f) ↔ fails
  silence : ∀ f, x.fault = some f → ∀ clock, x.stdout clock = ""

theorem Performance.Reports.of_fault {x : Performance} {f : Fault} {fails : Prop}
    (hfault : x.fault = some f) (hstdout : ∀ clock, x.stdout clock = "") (h : fails) :
    x.Reports fails :=
  ⟨⟨fun _ => h, fun _ => ⟨f, hfault⟩⟩, fun _ _ => hstdout⟩

theorem Performance.Reports.of_success {x : Performance} {fails : Prop}
    (hfault : x.fault = none) (h : ¬ fails) : x.Reports fails := by
  constructor
  · simp [hfault, h]
  · simp [hfault]

section Run

variable {path : String} {traceJson stats : Bool} {edges : Stimulus}

theorem performRun_of_error {f : Fault} (h : (files path).stimulus path = .error f) :
    performRun config files path traceJson stats = { fault := some f } := by
  rw [performRun, h]

theorem performRun_of_lt (h : (files path).stimulus path = .ok edges)
    (hlong : config.general.maxTicks.toNat < edges.length) :
    performRun config files path traceJson stats =
      { fault := some (.tickLimitExceeded config.general.maxTicks.toNat) } := by
  have hrefused := Bench.runOrRefuse_of_lt (b := Bench.reference (config.tracing traceJson))
    (Bench.reference (config.tracing traceJson)).powerOn hlong
  rw [performRun, h]
  simp only [hrefused]
  rfl

theorem fault_performRun_of_not_lt (h : (files path).stimulus path = .ok edges)
    (hfits : ¬ config.general.maxTicks.toNat < edges.length) :
    (performRun config files path traceJson stats).fault = none := by
  have hresult := Bench.result_runOrRefuse_of_not_lt
    (b := Bench.reference (config.tracing traceJson))
    (Bench.reference (config.tracing traceJson)).powerOn hfits
  rw [performRun, h]
  simp only [hresult]

theorem performRun_reports :
    (performRun config files path traceJson stats).Reports
      ((Task.run path traceJson stats).Fails files config) := by
  cases hread : (files path).stimulus path with
  | error f =>
      have hfails : File.LacksStimulus path (files path) :=
        File.exists_stimulus_eq_error_iff.1 ⟨f, hread⟩
      rw [performRun_of_error hread]
      exact .of_fault rfl (fun _ => rfl) (Or.inl hfails)
  | ok edges =>
      have hholds : File.HoldsStimulus path (files path) edges := File.stimulus_eq_ok_iff.1 hread
      by_cases hlong : config.general.maxTicks.toNat < edges.length
      · rw [performRun_of_lt hread hlong]
        exact .of_fault rfl (fun _ => rfl) (Or.inr ⟨edges, hholds, hlong⟩)
      · apply Performance.Reports.of_success (fault_performRun_of_not_lt hread hlong)
        rintro (hlacks | ⟨edges', hholds', hlong'⟩)
        · exact hholds.not_lacks hlacks
        · exact hlong (hholds.unique hholds' ▸ hlong')

end Run

theorem performSweep_fault (config : Configuration) (json : Bool) :
    (performSweep config json).fault = none := by
  rcases Bench.exists_result_sweep_reference_eq_ok config
    (Bench.reference config).powerOn with ⟨r, hr⟩
  rw [performSweep]
  dsimp only
  rw [hr]

theorem perform_reports (config : Configuration) (files : String → File) (task : Task) :
    (perform config files task).Reports (task.Fails files config) := by
  cases task with
  | run path traceJson stats => exact performRun_reports
  | evaluate p => exact .of_success rfl id
  | table => exact .of_success rfl id
  | sweep json => exact .of_success (performSweep_fault config json) id
  | info => exact .of_success rfl id

/-! ### Invocations -/

theorem execute_of_configuration_error {f : Fault} (h : configurationOf i files = .error f) :
    (execute files i).exit = 2 ∧ ∀ clock, (execute files i).stdout clock = "" := by
  rw [execute, h]
  exact ⟨rfl, fun _ => rfl⟩

theorem execute_of_fault {f : Fault} (h : configurationOf i files = .ok config)
    (hfault : (perform config files i.task).fault = some f) :
    (execute files i).exit = 1 ∧
      (execute files i).stdout = (perform config files i.task).stdout := by
  rw [execute, h]
  dsimp only
  rw [hfault]
  exact ⟨rfl, rfl⟩

theorem exit_execute_of_success (h : configurationOf i files = .ok config)
    (hfault : (perform config files i.task).fault = none) : (execute files i).exit = 0 := by
  rw [execute, h]
  dsimp only
  rw [hfault]

/-- A command line that names a task says so in its words, and it ends with status 2 exactly if the
words name a configuration file that cannot be read, with status 1 exactly if there is a
configuration in force under which the task fails, and else with status 0. So under any
configuration a task other than a run succeeds. With a status other than 0 nothing is printed. -/
theorem exit_status_names_cause (files : String → File) (logName : Option String)
    {args : List String} {i : Invocation} (h : readRequest args = .ok (.task i)) :
    let x := outcome files logName args
    Means args i ∧
    (x.exit = 2 ↔ ∃ path, i.config = some path ∧ (files path).Fails Configuration.ofJson) ∧
    (x.exit = 1 ↔ ∃ config, InForce files i.config config ∧ i.task.Fails files config) ∧
    (x.exit = 0 ↔ ∃ config, InForce files i.config config ∧ ¬ i.task.Fails files config) ∧
    (x.exit = 0 ∨ x.exit = 1 ∨ x.exit = 2) ∧
    (x.exit ≠ 0 → ∀ clock, x.stdout clock = "") := by
  intro x
  have hexit : x.exit = (execute files i).exit := by
    simp only [x, outcome, h]
  have hstdout : x.stdout = (execute files i).stdout := by
    simp only [x, outcome, h]
  refine ⟨readRequest_eq_task_iff.1 h, ?_⟩
  rw [hexit, hstdout, ← exists_configurationOf_eq_error_iff]
  simp only [← configurationOf_eq_ok_iff]
  cases hconfig : configurationOf i files with
  | error f =>
      rcases execute_of_configuration_error hconfig with ⟨hexit, hstdout⟩
      simp [hexit, hstdout]
  | ok config =>
      have hreports := perform_reports config files i.task
      cases hfault : (perform config files i.task).fault with
      | some f =>
          rcases execute_of_fault hconfig hfault with ⟨hexit, hstdout⟩
          have hfails : i.task.Fails files config := hreports.fault.1 ⟨f, hfault⟩
          have hsilence := hreports.silence f hfault
          simp [hexit, hstdout, hfails, hsilence]
      | none =>
          have hexit := exit_execute_of_success hconfig hfault
          have hfails : ¬ i.task.Fails files config := by
            intro hfails
            rcases hreports.fault.2 hfails with ⟨f, hf⟩
            cases hfault.symm.trans hf
          simp [hexit, hfails]

/-- Two edges under a limit of one: the configuration is read, and the stimulus is refused. Under
the same limit a single edge goes through, in JSON as the name of its file says, and a file that is
not there has nothing to run. -/
theorem exit_status_names_cause_over_limit :
    let limit : String := "\x7b\"general\":\x7b\"max_ticks\":1\x7d\x7d"
    let files : String → File := fun path =>
      if path = "c.json" then .contents limit.toUTF8
      else if path = "s.txt" then .contents "1\n0".toUTF8
      else if path = "one.JSON" then .contents "[\x7b\"serial_in\":true\x7d]".toUTF8
      else .absent
    let args (path : String) := ["-c", "c.json", "run", path]
    let x (path : String) := outcome files none (args path)
    (∀ path ∈ ["s.txt", "one.JSON", "gone.txt"],
      readRequest (args path) = .ok (.task ⟨false, some "c.json", .run path false false⟩)) ∧
    ((x "s.txt").exit = 1 ∧ ∀ clock, (x "s.txt").stdout clock = "") ∧
    (x "one.JSON").exit = 0 ∧
    ((x "gone.txt").exit = 1 ∧ ∀ clock, (x "gone.txt").stdout clock = "") := by
  intro limit files args x
  have hrequest : ∀ path ∈ ["s.txt", "one.JSON", "gone.txt"],
      readRequest (args path) = .ok (.task ⟨false, some "c.json", .run path false false⟩) := by
    simp only [List.forall_mem_cons]
    exact ⟨rfl, rfl, rfl, nofun⟩
  have hlimit : InForce files (some "c.json") { general := { maxTicks := 1 } } :=
    @InForce.named files "c.json" _ (File.yields_contents (by decide +kernel))
  have htwo : File.HoldsStimulus "s.txt" (files "s.txt") [⟨true, false⟩, ⟨false, false⟩] :=
    .inr ⟨by decide, File.yields_contents rfl⟩
  have hone : File.HoldsStimulus "one.JSON" (files "one.JSON") [⟨true, false⟩] :=
    .inl ⟨by decide, File.yields_contents (by decide +kernel)⟩
  have hgone : File.LacksStimulus "gone.txt" (files "gone.txt") := .inr ⟨by decide, .inl .absent⟩
  have hread : ∀ path ∈ ["s.txt", "one.JSON", "gone.txt"], _ := fun path hpath =>
    exit_status_names_cause files none (hrequest path hpath)
  obtain ⟨-, -, htwo', -, -, hsilence⟩ := hread "s.txt" (by decide)
  obtain ⟨-, -, -, hone', -⟩ := hread "one.JSON" (by decide)
  obtain ⟨-, -, hgone', -, -, hsilence'⟩ := hread "gone.txt" (by decide)
  have hexit := htwo'.2 ⟨_, hlimit, Or.inr ⟨_, htwo, by decide⟩⟩
  have hexit' := hgone'.2 ⟨_, hlimit, Or.inl hgone⟩
  refine ⟨hrequest, ⟨hexit, hsilence (by simp [hexit])⟩, ?_, hexit', hsilence' (by simp [hexit'])⟩
  apply hone'.2
  refine ⟨_, hlimit, ?_⟩
  rintro (hlacks | ⟨edges, hedges, hlong⟩)
  · exact hone.not_lacks hlacks
  · rw [← hone.unique hedges] at hlong
    exact absurd hlong (by decide)

end CommandLine

end LutFixture
