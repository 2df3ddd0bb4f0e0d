import JavaEntities.Proofs.Configuration.Check
import JavaEntities.Proofs.Disk.Again
import JavaEntities.Proofs.Generation.Confined
import JavaEntities.Proofs.Generation.Order

/-!
# Running again

A run changes the file system that the next run checks its configuration in and discovers
its inputs in: the output directory may be new, and it may lie in that of the inputs. But
the check only compares addresses, and what was changed is not above the inputs nor one of
them, for the output is a directory where it was no file before. So the next run loads the
same (`loadInputs_again`), and writes it in the same way (`run_idempotent`).
-/

namespace JavaEntities

open FileSystem (Confined)
open FileSystem.Node (Lasting)

namespace Configuration

variable {c : Configuration} {fs fs' : FileSystem}

/-- A run keeps what is everywhere. -/
theorem everywhere_runOnDisk {P : FileSystem.Node → Prop} (hP : Lasting P) (c : Configuration)
    (h : fs.root.Everywhere P) : (c.runOnDisk fs).state.files.root.Everywhere P := by
  cases hload : (c.loadInputs fs).result with
  | error e => rwa [runOnDisk_of_error hload]
  | ok loaded =>
    rw [runOnDisk_of_loadInputs hload]
    exact Disk.everywhere_writeAll (d := { files := fs }) hP c.outputDir _ h

/-- An output that passes the check has a path at which a directory can be made. -/
theorem chain_outputDir_ne_nil (hlinks : fs.root.LinkFree) (hnames : fs.WellNamed)
    (hcheck : c.check fs = .ok ()) : FileSystem.chain c.outputDir ≠ [] := by
  have hroot : fs.lexical c.outputDir ≠ [] := by
    intro hroot
    have happart := lexical_not_prefix_of_check hlinks hnames hcheck
    rw [hroot] at happart
    exact happart List.nil_prefix
  exact FileSystem.chain_ne_nil (check_eq_ok_iff.mp hcheck).2.2.1 hroot

section Inputs

variable (hlinks : fs.root.LinkFree) (hnames : fs.WellNamed)
  (hlinks' : fs'.root.LinkFree) (hnames' : fs'.WellNamed)
  (hin : Component.up ∉ c.inputDir.components)

include hlinks hnames hlinks' hnames' hin

/-- **What is loaded is the same** after a change that is confined to the output, if that was no
file and is none. -/
theorem loadInputs_again (hcheck : c.check fs = .ok ())
    (hconfined : Confined (fs.lexical c.outputDir) fs fs')
    (hfile : fs.root.sight? (fs.lexical c.outputDir) ≠ some .file)
    (hfile' : fs'.root.sight? (fs.lexical c.outputDir) ≠ some .file) {loaded : Loaded}
    (hload : (c.loadInputs fs).result = .ok loaded) : c.loadInputs fs' = c.loadInputs fs := by
  obtain ⟨inputs, hinputs, -, -⟩ := loadInputs_eq_ok hload
  obtain ⟨names, hlist, -⟩ := discover_eq_ok hinputs
  obtain ⟨i, entries, hdir, -⟩ := FileSystem.list_eq_ok hlist
  -- The output is not the directory of the inputs nor above it, which is thus still there.
  have happart : ¬ fs.lexical c.outputDir <+: i := by
    rw [FileSystem.lexical_of_reached hlinks (FileSystem.locate_eq_ok_iff.mp hdir).1]
    exact lexical_not_prefix_of_check hlinks hnames hcheck
  obtain ⟨entries', hdir'⟩ := hconfined.locate_dir hlinks hdir happart hin
  have hlist' := FileSystem.list_of_locate hdir'
  obtain ⟨hplain, hdistinct⟩ := FileSystem.names_of_list hnames.root hlist
  obtain ⟨hplain', hdistinct'⟩ := FileSystem.names_of_list hnames'.root hlist'
  refine loadInputs_congr hlist hplain hdistinct hlist' hplain' hdistinct' fun n hn _ => ?_
  refine hconfined.bytes?_join hlinks hdir happart hlinks' hin hn ?_
  by_cases hout : fs.lexical c.outputDir = i ++ [n]
  · rw [← hout, FileSystem.Node.fileAt?_eq_none hfile, FileSystem.Node.fileAt?_eq_none hfile']
  · refine hconfined.fileAt?_eq fun hbelow => ?_
    rcases List.prefix_concat_iff.mp hbelow with hsame | habove
    · exact hout hsame
    · exact happart habove

end Inputs

/-- **Generation is idempotent.** There is no link in the file system, the paths of both
directories have no `..`, and the configuration has passed its check. If a run succeeds, then the
configuration passes its check again afterwards, a second run succeeds with the same summary, and
it leaves the files exactly as they were after the first. -/
theorem run_idempotent {c : Configuration} {fs : FileSystem} {summary : Summary}
    (hlinks : fs.root.LinkFree) (hnames : fs.WellNamed)
    (hin : Component.up ∉ c.inputDir.components) (hout : Component.up ∉ c.outputDir.components)
    (hcheck : c.check fs = .ok ()) (hrun : (c.runOnDisk fs).result = .ok summary) :
    let after := (c.runOnDisk fs).state.files
    c.check after = .ok () ∧ (c.runOnDisk after).result = .ok summary ∧
      (c.runOnDisk after).state.files = after := by
  intro after
  have hlinks' : after.root.LinkFree :=
    everywhere_runOnDisk FileSystem.Node.lasting_linkFree c hlinks
  have hconfined : Confined (fs.lexical c.outputDir) fs after :=
    confined_runOnDisk hlinks hcheck hout
  have hnames' : after.WellNamed :=
    ⟨everywhere_runOnDisk FileSystem.Node.lasting_wellNamed c hnames.root,
      hconfined.current_eq ▸ hnames.current⟩
  have hchain := chain_outputDir_ne_nil hlinks hnames hcheck
  obtain ⟨loaded, written, hload, hwrite, rfl⟩ := run_eq_ok hrun
  obtain ⟨hfile, hdir⟩ := Disk.sight?_of_writeAll hlinks hout hchain hwrite
  have hfile' : after.root.sight? (fs.lexical c.outputDir) ≠ some .file := by
    intro he
    exact nomatch hdir.symm.trans he
  have hload' : (c.loadInputs after).result = .ok loaded :=
    (congrArg Logged.result (loadInputs_again hlinks hnames hlinks' hnames' hin hcheck hconfined
      hfile hfile' hload)).trans hload
  -- The same artifacts are written over what they have left.
  obtain ⟨-, hextension, hne, -⟩ := check_eq_ok_iff.mp hcheck
  have hsame : ({ files := after } : Disk).files = (c.runOnDisk fs).state.files := rfl
  obtain ⟨hagain, hfiles⟩ := Disk.writeAll_again hlinks hnames.root hout hchain hne
    (fun x hx => SchemaSet.isFileName_of_mem_artifacts (namesFiles_of_loadInputs hload)
      (no_separator_of_checkExtension hextension) hx) hwrite hsame
  obtain ⟨hresult, hstate⟩ := run_of_loadInputs hload' (Disk.sink c.outputDir) { files := after }
  refine ⟨?_, ?_, ?_⟩
  · rw [check_congr hlinks hnames hlinks' hnames' hconfined.current_eq, hcheck]
  · rw [runOnDisk, hresult, hagain]
    rfl
  · rw [runOnDisk, hstate]
    exact hfiles

/-- One input in the current directory. -/
def inputHere : FileSystem where
  root := .dir [("users.csv", .file ByteArray.empty)]

theorem everywhere_inputHere {P : FileSystem.Node → Prop} (hP : Lasting P) :
    inputHere.root.Everywhere P :=
  FileSystem.Node.everywhere_singleton hP (by decide) (FileSystem.Node.everywhere_file hP _)

/-- The output is made in the directory of the inputs, and a second run leaves it as it is. -/
theorem run_idempotent_here :
    let c : Configuration := {}
    let after := (c.runOnDisk inputHere).state.files
    (c.runOnDisk inputHere).result = .ok ⟨1, 1, 3, []⟩ ∧
      after.list ⟨"."⟩ = .ok ["users.csv", "out"] ∧
      c.check after = .ok () ∧ (c.runOnDisk after).result = .ok ⟨1, 1, 3, []⟩ ∧
      (c.runOnDisk after).state.files = after := by
  intro c after
  have hlist : inputHere.list ⟨"."⟩ = .ok ["users.csv"] := rfl
  have hinputs : discover inputHere c.inputDir c.inputExtension = .ok [⟨"./users.csv"⟩] :=
    discover_of_list_singleton hlist (by decide) (by decide)
  have hcheck : Configuration.check {} inputHere = .ok () := rfl
  have hrun : (c.runOnDisk inputHere).result = .ok ⟨1, 1, 3, []⟩ := by
    apply eq_ok_of_toOption
    rw [runOnDisk, run, loadInputs, hinputs]
    decide +kernel
  refine ⟨hrun, ?_, ?_⟩
  · apply eq_ok_of_toOption
    show (FileSystem.list (c.runOnDisk inputHere).state.files ⟨"."⟩).toOption = _
    rw [runOnDisk, run, loadInputs, hinputs]
    decide +kernel
  · exact run_idempotent (everywhere_inputHere FileSystem.Node.lasting_linkFree)
      ⟨everywhere_inputHere FileSystem.Node.lasting_wellNamed,
        fun _ hn => absurd hn List.not_mem_nil⟩
      (by decide) (by decide) hcheck hrun

end Configuration

end JavaEntities
