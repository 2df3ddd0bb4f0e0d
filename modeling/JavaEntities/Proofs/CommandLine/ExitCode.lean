import Mathlib.Order.WellFounded
import JavaEntities.CommandLine.Program
import JavaEntities.Proofs.CommandLine.Report
import JavaEntities.Proofs.Generation.Confined
import JavaEntities.Proofs.Generation.Failures

/-!
# The exit code of a command

A command goes through stages, and each of them may fail: the configuration file is read
and parsed, the outcome of all layers is checked, the directory of the inputs is listed and
the inputs are read. One command writes the output after that, and another may have to write
its plan as JSON, which cannot hold every path. What a stage needs from those before it is
given to its constructor of `Fails`, so a later stage can only fail when there is something
for it to work on.

The exit code is that of the first stage that fails, for each command
(`exitCode_runCommand`).
-/

namespace JavaEntities.CommandLine

/-- The stages of a command. -/
inductive Stage
  | readFile
  | parseFile
  | validate
  | listInputs
  | readInput
  | writeOutput
  | writeJson
  deriving DecidableEq, Repr

namespace Stage

/-- The place of a stage among all. -/
def rank : Stage → Nat
  | readFile => 0
  | parseFile => 1
  | validate => 2
  | listInputs => 3
  | readInput => 4
  | writeOutput => 5
  | writeJson => 6

/-- What the program exits with when a stage is the first that fails. -/
def exitCode : Stage → Nat
  | readFile => 7
  | parseFile => 6
  | validate => 7
  | listInputs => 4
  | readInput => 2
  | writeOutput => 5
  | writeJson => 1

end Stage

/-- Whether a stage of a command fails. -/
inductive Fails (command : Command) (o : Overrides) (fs : FileSystem) : Stage → Prop
  | readFile {file : Path} {cause : IoCause} (hfile : Settings.choose fs ⟨"."⟩ o = some file)
      (hread : fs.readText file = .error cause) : Fails command o fs .readFile
  | parseFile {file : Path} {text : String} {e : Error}
      (hfile : Settings.choose fs ⟨"."⟩ o = some file) (hread : fs.readText file = .ok text)
      (hparse : Configuration.ofToml text = .error e) : Fails command o fs .parseFile
  | validate {s : Settings} {e : Error}
      (hgather : Settings.gather Toml.parse? fs ⟨"."⟩ o = .ok s)
      (hcheck : s.configuration.check fs = .error e) : Fails command o fs .validate
  | listInputs {s : Settings} {cause : IoCause}
      (hgather : Settings.gather Toml.parse? fs ⟨"."⟩ o = .ok s)
      (hlist : fs.list s.configuration.inputDir = .error cause) : Fails command o fs .listInputs
  | readInput {s : Settings} {p : Path} {cause : IoCause}
      (hgather : Settings.gather Toml.parse? fs ⟨"."⟩ o = .ok s)
      (habort : s.configuration.onReadError = .abort)
      (hread : s.configuration.FirstUnreadable fs p cause) : Fails command o fs .readInput
  | writeOutput {s : Settings} {loaded : Loaded} {e : Error} (hcommand : command = .generate)
      (hgather : Settings.gather Toml.parse? fs ⟨"."⟩ o = .ok s)
      (hload : (s.configuration.loadInputs fs).result = .ok loaded)
      (hwrite : ((Disk.sink s.configuration.outputDir).writeAll
        (loaded.schemas.artifacts s.configuration.layout) { files := fs }).1 = .error e) :
      Fails command o fs .writeOutput
  | writeJson {s : Settings} {loaded : Loaded} {x : Artifact} (hcommand : command = .plan true)
      (hgather : Settings.gather Toml.parse? fs ⟨"."⟩ o = .ok s)
      (hload : (s.configuration.loadInputs fs).result = .ok loaded)
      (hplanned : x ∈ loaded.schemas.artifacts s.configuration.layout)
      (hpath : ¬ x.path.text.IsText) : Fails command o fs .writeJson

/-- Whether a stage fails and none before it does. -/
def FirstToFail (command : Command) (o : Overrides) (fs : FileSystem) (stage : Stage) : Prop :=
  Fails command o fs stage ∧
    ∀ earlier : Stage, earlier.rank < stage.rank → ¬ Fails command o fs earlier

variable {command : Command} {o : Overrides} {environment : Option String} {fs : FileSystem}
  {s : Settings}

/-- If any stage fails, one of them is the first. -/
theorem exists_firstToFail (h : ∃ stage, Fails command o fs stage) :
    ∃ stage, FirstToFail command o fs stage := by
  obtain ⟨stage, hstage, hfirst⟩ :=
    (measure Stage.rank).wf.has_min {stage | Fails command o fs stage} h
  exact ⟨stage, hstage, fun earlier hless hearlier => hfirst earlier hearlier hless⟩

/-- Where the user names no other output directory than a text, every plan can be written as
JSON. -/
theorem not_fails_writeJson (hasked : ∀ dir, o.outputDir = some dir → dir.text.IsText) :
    ¬ Fails command o fs .writeJson := by
  intro h
  cases h with
  | writeJson hcommand hgather hload hplanned hpath =>
    have hdir := Settings.isText_outputDir_of_gather Toml.lawful_parse? hgather hasked
    exact hpath (isText_of_mem_artifacts hdir hplanned)

/-! ## Codes of results -/

/-- What the program exits with after a result, given the codes of errors. -/
def codeOf {ε α : Type} (exitCode : ε → Nat) : Except ε α → Nat
  | .ok _ => 0
  | .error e => exitCode e

/-- The code is that of the result, whatever is logged. -/
theorem code_toOutput (x : Execution) (level : LogLevel) :
    (x.toOutput level).code = codeOf Failure.exitCode x.result := by
  unfold Execution.toOutput
  cases x.result with
  | error e => rfl
  | ok _ => rfl

/-- To write a plan fails if it has to be JSON and cannot be. -/
theorem codeOf_planReport (json : Bool) (artifacts : List Artifact) :
    (json = true ∧ (∃ x ∈ artifacts, ¬ x.path.text.IsText) ∧
        codeOf Failure.exitCode (planReport json artifacts).2 = 1) ∨
      ¬ (json = true ∧ ∃ x ∈ artifacts, ¬ x.path.text.IsText) ∧
        codeOf Failure.exitCode (planReport json artifacts).2 = 0 := by
  cases json with
  | false => exact .inr ⟨(fun h => nomatch h.1), rfl⟩
  | true =>
    rw [← renderJson?_eq_none_iff]
    unfold planReport
    cases renderJson? artifacts with
    | none => exact .inl ⟨rfl, rfl, rfl⟩
    | some text => exact .inr ⟨(fun h => nomatch h.2), rfl⟩

/-! ## Codes of commands -/

section Checked

variable (hcheck : s.configuration.check fs = .ok ())

include hcheck

/-- An error of the loading ends every command. -/
theorem codeOf_execute_of_error {e : Error}
    (hload : (s.configuration.loadInputs fs).result = .error e) (command : Command) :
    codeOf Failure.exitCode (command.execute s fs).result = e.exitCode := by
  cases command with
  | generate =>
    simp only [Command.execute, generate, hcheck, (Configuration.run_of_error hload _ _).1]
    rfl
  | plan json =>
    simp only [Command.execute, plan, hcheck, Configuration.plan_of_error hload]
    rfl
  | check =>
    simp only [Command.execute, check, hcheck, hload]
    rfl

variable {loaded : Loaded} (hload : (s.configuration.loadInputs fs).result = .ok loaded)

include hload

/-- With the inputs loaded, to generate ends as the writing of the output does. -/
theorem codeOf_generate :
    codeOf Failure.exitCode (generate s.configuration fs).result
      = codeOf Error.exitCode ((Disk.sink s.configuration.outputDir).writeAll
          (loaded.schemas.artifacts s.configuration.layout) { files := fs }).1 := by
  simp only [generate, hcheck, (Configuration.run_of_loadInputs hload _ _).1]
  cases ((Disk.sink s.configuration.outputDir).writeAll
      (loaded.schemas.artifacts s.configuration.layout) { files := fs }).1 with
  | error e => rfl
  | ok n => rfl

/-- With the inputs loaded, to list the plan ends as the writing of the plan does. -/
theorem codeOf_plan (json : Bool) :
    codeOf Failure.exitCode (plan json s.configuration fs).result
      = codeOf Failure.exitCode
          (planReport json (loaded.schemas.artifacts s.configuration.layout)).2 := by
  simp only [plan, hcheck, Configuration.plan_of_loadInputs hload]

/-- With the inputs loaded, to check succeeds. -/
theorem codeOf_check : codeOf Failure.exitCode (check s fs).result = 0 := by
  simp only [check, hcheck, hload]
  rfl

end Checked

section Resolved

variable (environment) (hgather : Settings.gather Toml.parse? fs ⟨"."⟩ o = .ok s)

include hgather

/-- With settings that pass the check, a command gives the code of what it does. -/
theorem code_of_gather (command : Command) (hcheck : s.configuration.check fs = .ok ()) :
    (runCommand command o environment fs).code
      = codeOf Failure.exitCode (command.execute s fs).result := by
  unfold runCommand Settings.resolve
  rw [hgather]
  dsimp only
  rw [hcheck]
  exact code_toOutput _ _

/-- Settings that do not pass the check give every command the code 7. -/
theorem code_of_check_error {e : Error} (hcheck : s.configuration.check fs = .error e) :
    (runCommand command o environment fs).code = 7 := by
  obtain ⟨problem, rfl⟩ := Configuration.error_of_check hcheck
  unfold runCommand Settings.resolve
  rw [hgather]
  dsimp only
  rw [hcheck]
  rfl

end Resolved

variable (environment) in
/-- Without settings, every command gives the code of what is wrong with the file. -/
theorem code_of_gather_error {e : SettingsError}
    (h : Settings.gather Toml.parse? fs ⟨"."⟩ o = .error e) :
    (runCommand command o environment fs).code = settingsExitCode e := by
  unfold runCommand Settings.resolve
  rw [h]

/-- A configuration file that gives no configuration leaves no settings. -/
theorem gather_of_file_error {file : Path} {e : Error}
    (hfile : Settings.choose fs ⟨"."⟩ o = some file)
    (h : Configuration.ofFile Toml.parse? fs file = .error e) :
    Settings.gather Toml.parse? fs ⟨"."⟩ o = .error (.file file e) := by
  unfold Settings.gather Settings.underlying
  rw [hfile]
  dsimp only
  rw [h]

/-- Without settings, the file has not been read or not been parsed. -/
theorem gather_eq_ok (hread : ¬ Fails command o fs .readFile)
    (hparse : ¬ Fails command o fs .parseFile) :
    ∃ s, Settings.gather Toml.parse? fs ⟨"."⟩ o = .ok s := by
  unfold Settings.gather Settings.underlying
  cases hfile : Settings.choose fs ⟨"."⟩ o with
  | none => exact ⟨_, rfl⟩
  | some file =>
    dsimp only
    unfold Configuration.ofFile
    cases htext : fs.readText file with
    | error cause => exact absurd (.readFile hfile htext) hread
    | ok text =>
      dsimp only
      cases hconfiguration : Configuration.ofText Toml.parse? text with
      | error e => exact absurd (.parseFile hfile htext hconfiguration) hparse
      | ok c => exact ⟨_, rfl⟩

/-- Settings pass the check if the stage for it does not fail. -/
theorem check_eq_ok (hgather : Settings.gather Toml.parse? fs ⟨"."⟩ o = .ok s)
    (hvalidate : ¬ Fails command o fs .validate) : s.configuration.check fs = .ok () := by
  cases hcheck : s.configuration.check fs with
  | error e => exact absurd (.validate hgather hcheck) hvalidate
  | ok _ => rfl

/-! ## Stages -/

section Stages

variable (environment) (hnames : fs.root.WellNamed) (htexts : fs.root.TextNamed)

include hnames htexts

/-- The first stage that fails decides the code. -/
theorem code_of_firstToFail {stage : Stage} (h : FirstToFail command o fs stage) :
    (runCommand command o environment fs).code = stage.exitCode := by
  obtain ⟨hfails, hearlier⟩ := h
  cases hfails with
  | readFile hfile hread =>
    have hgather := gather_of_file_error hfile (e := .config (.unreadable _ _)) (by
      unfold Configuration.ofFile
      rw [hread])
    rw [code_of_gather_error environment hgather]
    rfl
  | parseFile hfile hread hparse =>
    obtain ⟨fault, rfl⟩ := Configuration.error_of_ofText hparse
    have hgather := gather_of_file_error hfile (e := .configParse fault) (by
      unfold Configuration.ofFile
      rw [hread]
      exact hparse)
    rw [code_of_gather_error environment hgather]
    rfl
  | validate hgather hcheck => exact code_of_check_error environment hgather hcheck
  | listInputs hgather hlist =>
    have hcheck := check_eq_ok hgather (hearlier .validate (by decide))
    have hload := (Configuration.loadInputs_error_iff hnames
      (FileSystem.listsTexts_of_textNamed htexts _)).mpr (.inl ⟨_, hlist, rfl⟩)
    rw [code_of_gather environment hgather command hcheck, codeOf_execute_of_error hcheck hload]
    rfl
  | readInput hgather habort hread =>
    have hcheck := check_eq_ok hgather (hearlier .validate (by decide))
    have hload := (Configuration.loadInputs_error_iff hnames
      (FileSystem.listsTexts_of_textNamed htexts _)).mpr (.inr ⟨habort, _, _, hread, rfl⟩)
    rw [code_of_gather environment hgather command hcheck, codeOf_execute_of_error hcheck hload]
    rfl
  | writeOutput hcommand hgather hload hwrite =>
    subst hcommand
    have hcheck := check_eq_ok hgather (hearlier .validate (by decide))
    obtain ⟨p, cause, rfl⟩ := Disk.error_of_writeAll (Disk.unreliable_sink _) (Prod.ext hwrite rfl)
    rw [code_of_gather environment hgather .generate hcheck]
    show codeOf Failure.exitCode (generate _ fs).result = _
    rw [codeOf_generate hcheck hload, hwrite]
    rfl
  | @writeJson s loaded x hcommand hgather hload hplanned hpath =>
    subst hcommand
    have hcheck := check_eq_ok hgather (hearlier .validate (by decide))
    rw [code_of_gather environment hgather (.plan true) hcheck]
    show codeOf Failure.exitCode (plan true _ fs).result = _
    rw [codeOf_plan hcheck hload]
    rcases codeOf_planReport true (loaded.schemas.artifacts s.configuration.layout) with
      ⟨-, -, hone⟩ | ⟨hfits, -⟩
    · exact hone
    · exact absurd ⟨rfl, x, hplanned, hpath⟩ hfits

/-- A command of which no stage fails succeeds. -/
theorem code_of_no_failure (h : ∀ stage, ¬ Fails command o fs stage) :
    (runCommand command o environment fs).code = 0 := by
  obtain ⟨s, hgather⟩ := gather_eq_ok (h .readFile) (h .parseFile)
  have hcheck := check_eq_ok hgather (h .validate)
  rw [code_of_gather environment hgather command hcheck]
  cases hload : (s.configuration.loadInputs fs).result with
  | error e =>
    rcases (Configuration.loadInputs_error_iff hnames
        (FileSystem.listsTexts_of_textNamed htexts _)).mp hload with
      ⟨cause, hlist, -⟩ | ⟨habort, p, cause, hread, -⟩
    · exact absurd (.listInputs hgather hlist) (h .listInputs)
    · exact absurd (.readInput hgather habort hread) (h .readInput)
  | ok loaded =>
    cases command with
    | generate =>
      show codeOf Failure.exitCode (generate _ fs).result = _
      rw [codeOf_generate hcheck hload]
      cases hwrite : ((Disk.sink s.configuration.outputDir).writeAll
          (loaded.schemas.artifacts s.configuration.layout) { files := fs }).1 with
      | error e => exact absurd (.writeOutput rfl hgather hload hwrite) (h .writeOutput)
      | ok n => rfl
    | plan json =>
      show codeOf Failure.exitCode (plan json _ fs).result = _
      rw [codeOf_plan hcheck hload]
      rcases codeOf_planReport json (loaded.schemas.artifacts s.configuration.layout) with
        ⟨rfl, ⟨x, hplanned, hpath⟩, -⟩ | ⟨-, hzero⟩
      · exact absurd (.writeJson rfl hgather hload hplanned hpath) (h .writeJson)
      · exact hzero
    | check => exact codeOf_check hcheck hload

/-- The codes that there are. -/
theorem code_cases :
    (runCommand command o environment fs).code = 0 ∨
      ∃ stage, FirstToFail command o fs stage ∧
        (runCommand command o environment fs).code = stage.exitCode := by
  by_cases hfails : ∃ stage, Fails command o fs stage
  · obtain ⟨stage, hstage⟩ := exists_firstToFail hfails
    exact .inr ⟨stage, hstage, code_of_firstToFail environment hnames htexts hstage⟩
  · exact .inl (code_of_no_failure environment hnames htexts (not_exists.mp hfails))

/-- The code 1 is that of a plan that cannot be written as JSON. -/
theorem code_eq_one_iff :
    (runCommand command o environment fs).code = 1 ↔ FirstToFail command o fs .writeJson := by
  constructor
  · intro hone
    rcases code_cases environment hnames htexts with hzero | ⟨stage, hstage, hcode⟩
    · exact absurd (hzero.symm.trans hone) (by decide)
    · have hsame : stage.exitCode = 1 := hcode.symm.trans hone
      cases stage <;> first | exact hstage | exact absurd hsame (by decide)
  · exact code_of_firstToFail environment hnames htexts

/-- The code 3 is never given: every input that is discovered has an identifier. -/
theorem code_ne_three : (runCommand command o environment fs).code ≠ 3 := by
  intro hthree
  rcases code_cases environment hnames htexts with hzero | ⟨stage, -, hcode⟩
  · exact absurd (hzero.symm.trans hthree) (by decide)
  · have hsame : stage.exitCode = 3 := hcode.symm.trans hthree
    cases stage <;> exact absurd hsame (by decide)

end Stages

/-! ## Commands -/

/-- How the codes of the commands go together: up to the loading they are the same, and what comes
after it can only fail for a plan as JSON and for writing the output. -/
structure Agree (code : Command → Nat) : Prop where
  lines : code (.plan false) = code .check
  json : code (.plan true) = code .check ∨ code .check = 0 ∧ code (.plan true) = 1
  generate : code .generate = code .check ∨ code .check = 0 ∧ code .generate = 5

theorem Agree.of_same {code : Command → Nat} {k : Nat} (h : ∀ command, code command = k) :
    Agree code :=
  have hcheck : ∀ command, code command = code .check := fun _ => (h _).trans (h _).symm
  ⟨hcheck _, .inl (hcheck _), .inl (hcheck _)⟩

/-- With the inputs loaded, each command ends as its own last stage does. -/
theorem agree_of_loadInputs {loaded : Loaded}
    (hgather : Settings.gather Toml.parse? fs ⟨"."⟩ o = .ok s)
    (hcheck : s.configuration.check fs = .ok ())
    (hload : (s.configuration.loadInputs fs).result = .ok loaded) :
    Agree fun command => (runCommand command o environment fs).code := by
  have hcode := fun command => code_of_gather environment hgather command hcheck
  have hlisting := (hcode .check).trans (codeOf_check hcheck hload)
  have hplan := fun json => (hcode (.plan json)).trans (codeOf_plan hcheck hload json)
  have hgenerate := (hcode .generate).trans (codeOf_generate hcheck hload)
  refine ⟨(hplan false).trans hlisting.symm, ?_, ?_⟩
  · rcases codeOf_planReport true (loaded.schemas.artifacts s.configuration.layout) with
      ⟨-, -, hone⟩ | ⟨-, hzero⟩
    · exact .inr ⟨hlisting, (hplan true).trans hone⟩
    · exact .inl (((hplan true).trans hzero).trans hlisting.symm)
  · cases hwrite : ((Disk.sink s.configuration.outputDir).writeAll
        (loaded.schemas.artifacts s.configuration.layout) { files := fs }).1 with
    | error e =>
      obtain ⟨p, cause, rfl⟩ :=
        Disk.error_of_writeAll (Disk.unreliable_sink _) (Prod.ext hwrite rfl)
      rw [hwrite] at hgenerate
      exact .inr ⟨hlisting, hgenerate⟩
    | ok n =>
      rw [hwrite] at hgenerate
      exact .inl (hgenerate.trans hlisting.symm)

/-- The codes of the commands agree, whatever happens. -/
theorem agree_codes (o : Overrides) (environment : Option String) (fs : FileSystem) :
    Agree fun command => (runCommand command o environment fs).code := by
  cases hgather : Settings.gather Toml.parse? fs ⟨"."⟩ o with
  | error e => exact .of_same fun _ => code_of_gather_error environment hgather
  | ok s =>
    cases hcheck : s.configuration.check fs with
    | error e => exact .of_same fun _ => code_of_check_error environment hgather hcheck
    | ok _ =>
      cases hload : (s.configuration.loadInputs fs).result with
      | error e =>
        exact .of_same fun command => (code_of_gather environment hgather command hcheck).trans
          (codeOf_execute_of_error hcheck hload command)
      | ok loaded => exact agree_of_loadInputs hgather hcheck hload

/-- One input in the current directory, which is not text. -/
def brokenInput : FileSystem where
  root := .dir [("users.csv", .file ⟨#[0xFF]⟩)]

/-- The same with an input that can be read. -/
def readableInput : FileSystem where
  root := .dir [("users.csv", .file ByteArray.empty)]

theorem wellNamed_oneFile (bytes : ByteArray) :
    (FileSystem.Node.dir [("users.csv", .file bytes)]).WellNamed :=
  have hnames := FileSystem.Node.lasting_wellNamed
  FileSystem.Node.everywhere_singleton hnames (by decide) (FileSystem.Node.everywhere_file hnames _)

theorem textNamed_oneFile (bytes : ByteArray) :
    (FileSystem.Node.dir [("users.csv", .file bytes)]).TextNamed :=
  FileSystem.Node.textNamed_singleton (RawText.isText_ofString _)
    (FileSystem.Node.textNamed_file bytes)

/-- What asks for an output directory whose name is no text. -/
def illegibleOutput : Overrides := { outputDir := some ⟨.ofList [0xFF]⟩ }

/-- The configuration for them. -/
def illegibleConfiguration : Configuration := { outputDir := ⟨.ofList [0xFF]⟩ }

end JavaEntities.CommandLine
