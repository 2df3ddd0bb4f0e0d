import JavaEntities.Proofs.Disk.Confined
import JavaEntities.Proofs.Generation.Calls
import JavaEntities.Proofs.Generation.Output

/-!
# What a run leaves alone

A run that does not load its inputs leaves the file system as it is. One that does turns
to the output directory, and in a tree without links nothing changes outside of it, however
the run ends and whichever call breaks off (`run_confined`).
-/

namespace JavaEntities

open FileSystem (Confined)
open FileSystem.Node (LinkFree)

namespace Configuration

variable {c : Configuration} {fs : FileSystem} {out : Sink Disk}

/-- Writing any of the artifacts of a loaded set is confined to the output directory. -/
theorem confined_writeAll {set : SchemaSet} {artifacts : List Artifact}
    (hout : Disk.Unreliable c.outputDir out) (hlinks : fs.root.LinkFree)
    (hcheck : c.check fs = .ok ()) (hup : Component.up ∉ c.outputDir.components)
    (hset : set.NamesFiles) (hartifacts : artifacts ⊆ set.artifacts c.layout) :
    Confined (fs.lexical c.outputDir) fs
      (out.writeAll artifacts { files := fs }).2.files := by
  obtain ⟨-, hextension, hne, -⟩ := check_eq_ok_iff.mp hcheck
  have hplain := no_separator_of_checkExtension hextension
  refine Disk.confined_writeAll (d := { files := fs }) hout hlinks hup hne ?_
  intro x hx
  exact ⟨x.fileName c.layout, SchemaSet.isFileName_of_mem_artifacts hset hplain (hartifacts hx)⟩

/-- Once the inputs are loaded, a run fails only with an error of the output. -/
theorem error_of_run (hout : Disk.Unreliable c.outputDir out) {loaded : Loaded} {e : Error}
    (h : (c.loadInputs fs).result = .ok loaded)
    (he : (c.run fs out { files := fs }).result = .error e) :
    ∃ p cause, e = .outputWrite p cause := by
  rw [(run_of_loadInputs h _ _).1, map_eq_error_iff] at he
  exact Disk.error_of_writeAll hout (Prod.ext he rfl)

/-- A run changes nothing but the output directory, however it ends. -/
theorem confined_run (hout : Disk.Unreliable c.outputDir out) (hlinks : fs.root.LinkFree)
    (hcheck : c.check fs = .ok ()) (hup : Component.up ∉ c.outputDir.components) :
    Confined (fs.lexical c.outputDir) fs (c.run fs out { files := fs }).state.files := by
  cases hload : (c.loadInputs fs).result with
  | error e =>
    rw [(run_of_error hload out _).2]
    exact .refl _ fs
  | ok loaded =>
    rw [(run_of_loadInputs hload out _).2]
    exact confined_writeAll hout hlinks hcheck hup (namesFiles_of_loadInputs hload) fun _ hx => hx

/-- A run that fails before it writes leaves the files as they were. -/
theorem files_eq_of_run (hout : Disk.Unreliable c.outputDir out) {e : Error}
    (he : (c.run fs out { files := fs }).result = .error e)
    (hother : ∀ p cause, e ≠ .outputWrite p cause) :
    (c.run fs out { files := fs }).state.files = fs := by
  cases hload : (c.loadInputs fs).result with
  | error _ => rw [(run_of_error hload out _).2]
  | ok loaded =>
    obtain ⟨p, cause, rfl⟩ := error_of_run hout hload he
    exact absurd rfl (hother p cause)

/-- A run on a disk is confined to the output, however it ends. -/
theorem confined_runOnDisk (hlinks : fs.root.LinkFree) (hcheck : c.check fs = .ok ())
    (hup : Component.up ∉ c.outputDir.components) :
    Confined (fs.lexical c.outputDir) fs (c.runOnDisk fs).state.files :=
  confined_run (Disk.unreliable_sink c.outputDir) hlinks hcheck hup

/-- **Nothing outside the output directory is touched.** There is no link in the file system, the
configuration has passed its check, and the path of its output has no `..`. Then what a run changes
is confined to the output directory, whether it succeeds or not, and an error that is not one of
the output leaves the file system as it was. Nor does it matter at which write a run is stopped,
or whether the disk can break off in the middle of a removal or a write. -/
theorem run_confined {c : Configuration} {fs : FileSystem} (hlinks : fs.root.LinkFree)
    (hcheck : c.check fs = .ok ()) (hup : Component.up ∉ c.outputDir.components) :
    Confined (fs.lexical c.outputDir) fs (c.runOnDisk fs).state.files ∧
      (∀ e, (c.runOnDisk fs).result = .error e → (∀ p cause, e ≠ .outputWrite p cause) →
        (c.runOnDisk fs).state.files = fs) ∧
      (∀ artifacts, (c.plan fs).result = .ok artifacts → ∀ n,
        Confined (fs.lexical c.outputDir) fs
          ((Disk.sink c.outputDir).writeAll (artifacts.take n) { files := fs }).2.files) ∧
      ∀ out, Disk.Unreliable c.outputDir out →
        Confined (fs.lexical c.outputDir) fs (c.run fs out { files := fs }).state.files ∧
          ∀ e, (c.run fs out { files := fs }).result = .error e →
            (∀ p cause, e ≠ .outputWrite p cause) →
            (c.run fs out { files := fs }).state.files = fs := by
  have hdisk := Disk.unreliable_sink c.outputDir
  refine ⟨confined_runOnDisk hlinks hcheck hup, fun _ => files_eq_of_run hdisk, ?_, ?_⟩
  · intro artifacts hplan n
    obtain ⟨loaded, hload, rfl⟩ := plan_eq_ok hplan
    exact confined_writeAll hdisk hlinks hcheck hup (namesFiles_of_loadInputs hload)
      fun _ hx => List.mem_of_mem_take hx
  · intro out hout
    exact ⟨confined_run hout hlinks hcheck hup, fun _ => files_eq_of_run hout⟩

/-- A configuration whose output can be emptied but not removed by its path. -/
def inToDot : Configuration := { inputDir := ⟨"in"⟩, outputDir := ⟨"out/."⟩ }

theorem everywhere_plainInput {P : FileSystem.Node → Prop} (hP : FileSystem.Node.Lasting P) :
    plainInput.root.Everywhere P := by
  have hfile := FileSystem.Node.everywhere_file hP ByteArray.empty
  refine FileSystem.Node.everywhere_dir (hP.dir (by decide) (by decide)) ?_
  simpa using ⟨FileSystem.Node.everywhere_singleton (m := "users.csv") hP (by decide) hfile,
    FileSystem.Node.everywhere_singleton (m := "Old.java") hP (by decide) hfile⟩

/-- The reset stops half way: what was in the output is gone, and the input is still there. -/
theorem run_confined_of_stuck_reset :
    plainInput.root.LinkFree ∧ inToDot.check plainInput = .ok () ∧
      Component.up ∉ inToDot.outputDir.components ∧
      (inToDot.runOnDisk plainInput).result
        = .error (.outputWrite ⟨"out/."⟩ (.os .invalidArgument)) ∧
      (inToDot.runOnDisk plainInput).state.files.root.sight? ["out", "Old.java"] = none ∧
      (inToDot.runOnDisk plainInput).state.files.root.sight? ["in", "users.csv"] = some .file := by
  have hlinks : plainInput.root.LinkFree :=
    everywhere_plainInput FileSystem.Node.lasting_linkFree
  have hcheck : inToDot.check plainInput = .ok () := rfl
  have hup : Component.up ∉ inToDot.outputDir.components := by decide
  have hinputs : discover plainInput inToDot.inputDir inToDot.inputExtension
      = .ok [⟨"in/users.csv"⟩] := discover_plainInput
  obtain ⟨hconfined, -, -, -⟩ := run_confined hlinks hcheck hup
  have hkept := hconfined.kept ["in", "users.csv"] (by decide) (by decide)
  refine ⟨hlinks, hcheck, hup, ?_, ?_, hkept.1.trans (by decide)⟩
  · rw [runOnDisk, run, loadInputs, hinputs]
    decide +kernel
  · rw [runOnDisk, run, loadInputs, hinputs]
    decide +kernel

end Configuration

end JavaEntities
