import JavaEntities.Proofs.Disk.Output
import JavaEntities.Proofs.Generation.Inputs
import JavaEntities.Proofs.Generation.Plan
import JavaEntities.Proofs.Sink.Calls

/-!
# The output after a run

A run that succeeds has reset the output directory and then written every artifact of the
plan. The directory holds exactly these files if and only if the reset has left nothing
in it but files with planned names (`run_leaves_plan_iff`), and so whenever its path can be
reset to an empty directory.

A path with a `..` that climbs out of a missing directory cannot: it leads nowhere, so that
nothing is removed, and once the missing directory is made it leads to a directory that
has been there all the time. `run_leaves_stale_file` is such a run.
-/

namespace JavaEntities

open FileSystem (Node)

namespace FileSystem

/-- Whether a path leads to a directory with exactly the files of artifacts. -/
def HoldsExactly (fs : FileSystem) (root : Path) (l : Layout) (artifacts : List Artifact) : Prop :=
  ∃ a entries, fs.locate root = .ok (a, .dir entries) ∧
    entries.Perm (artifacts.map fun x => (x.fileName l, .file x.contents.toUTF8))

/-- Whether a path leads to a directory with nothing but files under names of a list, none of
them twice. -/
def HoldsOnly (fs : FileSystem) (root : Path) (names : List RawText) : Prop :=
  ∃ a entries, fs.locate root = .ok (a, .dir entries) ∧ (entries.map Prod.fst).Nodup ∧
    ∀ e ∈ entries, e.2.isFile = true ∧ e.1 ∈ names

end FileSystem

namespace Configuration

/-! ## The parts of a run that succeeds -/

/-- The identifiers that are loaded can be parts of the names of files. -/
theorem namesFiles_of_loadInputs {c : Configuration} {fs : FileSystem} {loaded : Loaded}
    (h : (c.loadInputs fs).result = .ok loaded) : loaded.schemas.NamesFiles := by
  obtain ⟨inputs, -, hset, -⟩ := loadInputs_eq_ok h
  exact namesFiles_of_loadSchemas hset

/-- A run that succeeds has loaded, reset the output and written all artifacts. -/
theorem runOnDisk_eq_ok {c : Configuration} {fs : FileSystem} {summary : Summary}
    (h : (c.runOnDisk fs).result = .ok summary) :
    ∃ loaded d, (c.loadInputs fs).result = .ok loaded ∧
      Disk.reset c.outputDir { files := fs } = (.ok (), d) ∧
      (Disk.sink c.outputDir).writeEach (loaded.schemas.artifacts c.layout) d
        = (.ok (), (c.runOnDisk fs).state) ∧
      summary.artifacts = (loaded.schemas.artifacts c.layout).length ∧
      summary.schemas = loaded.schemas.size := by
  obtain ⟨loaded, written, hloaded, hwrite, rfl⟩ := run_eq_ok h
  obtain ⟨hcount, d, hreset, hwrites⟩ := Sink.writeAll_eq_ok hwrite
  exact ⟨loaded, d, hloaded, hreset, hwrites, hcount, rfl⟩

/-! ## What the writes leave -/

section Writes

variable {c : Configuration} {fs : FileSystem} {set : SchemaSet} {d d' : Disk}

/-- Over nothing but files with planned names, the writes leave exactly the files of the plan. -/
theorem holdsExactly_of_writeEach (hset : set.NamesFiles) (hcheck : c.check fs = .ok ())
    (h : (Disk.sink c.outputDir).writeEach (set.artifacts c.layout) d = (.ok (), d'))
    (honly : d.files.HoldsOnly c.outputDir
      ((set.artifacts c.layout).map (Artifact.fileName c.layout))) :
    d'.files.HoldsExactly c.outputDir c.layout (set.artifacts c.layout) := by
  obtain ⟨a, entries, hroot, hnodup, hentries⟩ := honly
  obtain ⟨-, hextension, hne, -⟩ := check_eq_ok_iff.mp hcheck
  have hpaths : ∀ x ∈ set.artifacts c.layout, IsFileName (x.fileName c.layout) ∧
      x.path = c.outputDir.join (x.fileName c.layout) := fun x hx =>
    SchemaSet.isFileName_of_mem_artifacts hset (no_separator_of_checkExtension hextension) hx
  have hnames : ((set.artifacts c.layout).map fun x =>
      (x.fileName c.layout, Node.file x.contents.toUTF8)).map Prod.fst
        = (set.artifacts c.layout).map (Artifact.fileName c.layout) := by
    rw [List.map_map]
    rfl
  refine ⟨a, _, Disk.locate_of_writeEach h hroot (fun e he => (hentries e he).1) hne hpaths, ?_⟩
  refine FileSystem.perm_putAll hnodup ?_ ?_
  · rw [hnames]
    exact SchemaSet.nodup_fileName_artifacts ..
  · intro e he
    rw [hnames]
    exact (hentries e he).2

/-- Where the writes leave exactly the files of the plan, there was nothing before but files with
planned names. -/
theorem holdsOnly_of_holdsExactly
    (h : (Disk.sink c.outputDir).writeEach (set.artifacts c.layout) d = (.ok (), d'))
    (hexactly : d'.files.HoldsExactly c.outputDir c.layout (set.artifacts c.layout)) :
    d.files.HoldsOnly c.outputDir
      ((set.artifacts c.layout).map (Artifact.fileName c.layout)) := by
  obtain ⟨a, entries, hroot, hperm⟩ := hexactly
  obtain ⟨olds, new, hbefore, hnames⟩ := (Disk.fills_writeEach h).locate hroot
  -- The names from before are in front of those in the end, which are the planned ones.
  have hplanned : (entries.map Prod.fst).Perm
      ((set.artifacts c.layout).map (Artifact.fileName c.layout)) := by
    have hmap := hperm.map Prod.fst
    rwa [List.map_map] at hmap
  have hnodup : (entries.map Prod.fst).Nodup :=
    hplanned.nodup_iff.mpr (SchemaSet.nodup_fileName_artifacts ..)
  have holds : (olds.map Prod.fst).Nodup := by
    rw [hnames] at hnodup
    exact (List.nodup_append.mp hnodup).1
  refine ⟨a, olds, hbefore, holds, ?_⟩
  intro e he
  have hname : e.1 ∈ entries.map Prod.fst := by
    rw [hnames]
    exact List.mem_append_left _ (List.mem_map_of_mem he)
  refine ⟨?_, hplanned.mem_iff.mp hname⟩
  -- What stands under the name in the end is a file, and no write changes what stands there.
  obtain ⟨e', he', hsame⟩ := List.mem_map.mp hname
  obtain ⟨x, -, hx⟩ := List.mem_map.mp (hperm.mem_iff.mp he')
  have hafter := FileSystem.sight?_entry hroot hnodup he'
  have hold := FileSystem.sight?_entry hbefore holds he
  have hgrows := Disk.grows_writeEach c.outputDir (set.artifacts c.layout) d
  rw [h] at hgrows
  have hkept := hgrows.partOf.sight_eq (a ++ [e.1]) (by rw [hold]; exact Option.some_ne_none _)
  rw [hold, ← hsame, hafter, ← hx] at hkept
  rw [FileSystem.Node.isFile_iff_sight]
  exact (Option.some.inj hkept).symm

end Writes

/-- **What a run that succeeds leaves in its output directory.** The configuration has passed its
check, and the plan made in the same state is at hand. Three artifacts were written for each
schema. The directory then holds exactly the files of the plan if and only if the reset has left
nothing in it but files with planned names; and it does so if its path can be reset. -/
theorem run_leaves_plan_iff {c : Configuration} {fs : FileSystem} {artifacts : List Artifact}
    {summary : Summary} (hcheck : c.check fs = .ok ()) (hplan : (c.plan fs).result = .ok artifacts)
    (hrun : (c.runOnDisk fs).result = .ok summary) :
    summary.artifacts = artifacts.length ∧ artifacts.length = 3 * summary.schemas ∧
      ((c.runOnDisk fs).state.files.HoldsExactly c.outputDir c.layout artifacts ↔
        (Disk.reset c.outputDir { files := fs }).2.files.HoldsOnly c.outputDir
          (artifacts.map (Artifact.fileName c.layout))) ∧
      (fs.Resettable c.outputDir →
        (c.runOnDisk fs).state.files.HoldsExactly c.outputDir c.layout artifacts) := by
  obtain ⟨loaded, hloaded, rfl⟩ := plan_eq_ok hplan
  obtain ⟨loaded', d, hloaded', hreset, hwrites, hcount, hsize⟩ := runOnDisk_eq_ok hrun
  -- The plan and the run load in the same state.
  obtain rfl : loaded = loaded' := Except.ok.inj (hloaded.symm.trans hloaded')
  have hset := namesFiles_of_loadInputs hloaded
  refine ⟨hcount, ?_, ?_, ?_⟩
  · rw [hsize]
    exact SchemaSet.length_artifacts ..
  · rw [hreset]
    constructor
    · exact holdsOnly_of_holdsExactly hwrites
    · exact holdsExactly_of_writeEach hset hcheck hwrites
  · intro hresettable
    obtain ⟨a, hempty⟩ := Disk.locate_of_reset hreset hresettable
    refine holdsExactly_of_writeEach hset hcheck hwrites ⟨a, [], hempty, List.nodup_nil, ?_⟩
    intro e he
    exact absurd he List.not_mem_nil

/-! ## An output that is emptied and one that is not -/

theorem eq_ok_of_toOption {ε α : Type} {r : Except ε α} {a : α} (h : r.toOption = some a) :
    r = .ok a := by
  cases r with
  | error e => exact nomatch h
  | ok b => rw [Option.some.inj h]

/-- A directory that holds exactly the artifacts lists as many names. -/
theorem length_of_holdsExactly {fs : FileSystem} {root : Path} {l : Layout}
    {artifacts : List Artifact} {names : List RawText} (h : fs.HoldsExactly root l artifacts)
    (hnames : fs.list root = .ok names) : names.length = artifacts.length := by
  obtain ⟨a, entries, hroot, hperm⟩ := h
  unfold FileSystem.list at hnames
  rw [hroot] at hnames
  rw [← Except.ok.inj hnames, List.length_map, hperm.length_eq, List.length_map]

/-- The plan for one input without rows. -/
def usersPlan (c : Configuration) : List Artifact :=
  (Schema.mk "users" []).artifacts c.layout

/-- The output directory of a plain path is emptied, whatever was in it. -/
theorem run_leaves_plan_plain :
    inToOut.check plainInput = .ok () ∧
      (inToOut.plan plainInput).result = .ok (usersPlan inToOut) ∧
      (inToOut.runOnDisk plainInput).result = .ok ⟨1, 1, 3, []⟩ ∧
      (inToOut.runOnDisk plainInput).state.files.HoldsExactly inToOut.outputDir inToOut.layout
        (usersPlan inToOut) := by
  have hplan : (inToOut.plan plainInput).result = .ok (usersPlan inToOut) := by
    apply eq_ok_of_toOption
    rw [plan, loadInputs, discover_plainInput]
    decide +kernel
  have hrun : (inToOut.runOnDisk plainInput).result = .ok ⟨1, 1, 3, []⟩ := by
    apply eq_ok_of_toOption
    rw [runOnDisk, run, loadInputs, discover_plainInput]
    decide +kernel
  have hresettable : plainInput.Resettable inToOut.outputDir :=
    ⟨by decide, FileSystem.climbsOut_of_no_up (by decide)⟩
  exact ⟨rfl, hplan, hrun, (run_leaves_plan_iff rfl hplan hrun).2.2.2 hresettable⟩

/-- An input, and a directory with something in it. -/
def staleOutput : FileSystem where
  root := .dir [("in", .dir [("users.csv", .file ByteArray.empty)]),
    ("old", .dir [("Stale.java", .file ByteArray.empty)])]

/-- A configuration whose output is that directory, by a step up out of a missing one. -/
def inToNewUpOld : Configuration := { inputDir := ⟨"in"⟩, outputDir := ⟨"new/../old"⟩ }

theorem discover_staleOutput :
    discover staleOutput inToNewUpOld.inputDir inToNewUpOld.inputExtension
      = .ok [⟨"in/users.csv"⟩] := by
  have hlist : staleOutput.list inToNewUpOld.inputDir = .ok ["users.csv"] := rfl
  exact discover_of_list_singleton hlist (by decide) (by decide)

/-- The run succeeds, and what was in the output directory before is still there. -/
theorem run_leaves_stale_file :
    inToNewUpOld.check staleOutput = .ok () ∧
      (inToNewUpOld.plan staleOutput).result = .ok (usersPlan inToNewUpOld) ∧
      (inToNewUpOld.runOnDisk staleOutput).result = .ok ⟨1, 1, 3, []⟩ ∧
      (inToNewUpOld.runOnDisk staleOutput).state.files.list inToNewUpOld.outputDir
        = .ok ["Stale.java", "AppusersEntity.java", "usersPostgreData.java",
          "usersMongoData.java"] ∧
      ¬ (inToNewUpOld.runOnDisk staleOutput).state.files.HoldsExactly inToNewUpOld.outputDir
        inToNewUpOld.layout (usersPlan inToNewUpOld) := by
  have hlist : (inToNewUpOld.runOnDisk staleOutput).state.files.list inToNewUpOld.outputDir
      = .ok ["Stale.java", "AppusersEntity.java", "usersPostgreData.java",
        "usersMongoData.java"] := by
    apply eq_ok_of_toOption
    rw [runOnDisk, run, loadInputs, discover_staleOutput]
    decide +kernel
  refine ⟨rfl, ?_, ?_, hlist, ?_⟩
  · apply eq_ok_of_toOption
    rw [plan, loadInputs, discover_staleOutput]
    decide +kernel
  · apply eq_ok_of_toOption
    rw [runOnDisk, run, loadInputs, discover_staleOutput]
    decide +kernel
  · intro hexactly
    exact absurd (length_of_holdsExactly hexactly hlist) (by decide)

end Configuration

end JavaEntities
