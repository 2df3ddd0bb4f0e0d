import JavaEntities.Proofs.Configuration.Check
import JavaEntities.Proofs.Disk.Contents
import JavaEntities.Proofs.Generation.Loading

/-!
# The inputs after a run

The check of a configuration compares the directory of the inputs with that of the
output, as they are resolved. What it protects is a plain file in the directory of the
inputs (`shown_of_check`). An input may also be a link, and the way to the directory
itself may pass through others; the check looks at none of them.

`run_keeps_input_iff` says exactly which inputs are the same after a run. `linkedInput`
passes the check, and the run loses its only input, a link into the output directory.
-/

namespace JavaEntities

open FileSystem (PartOf Address)

namespace Configuration

/-- The run of a configuration on a disk. -/
def runOnDisk (c : Configuration) (fs : FileSystem) : Outcome Disk :=
  c.run fs (Disk.sink c.outputDir) { files := fs }

/-- Whether the removal of the output directory spares an input: everything on the way to it
is still there after the removal, or is the input itself, directly in the directory of the
inputs. -/
def Spares (c : Configuration) (fs : FileSystem) (p : Path) : Prop :=
  ∀ x, fs.OnWay p x → (fs.cleared c.outputDir).root.sight? x ≠ none ∨
    (fs.canonical? p = some x ∧ fs.canonical? c.inputDir = some x.dropLast)

/-! ## What the check protects -/

/-- A plain file directly in the directory of the inputs is not removed. -/
theorem shown_of_check {c : Configuration} {fs : FileSystem} {x : Address}
    (hcheck : c.check fs = .ok ()) (hx : fs.root.sight? x = some .file)
    (hdir : fs.canonical? c.inputDir = some x.dropLast) :
    (fs.cleared c.outputDir).root.sight? x ≠ none := by
  have hshown : fs.root.sight? x ≠ none := by
    rw [hx]
    exact Option.some_ne_none _
  intro hgone
  rcases FileSystem.taken_cleared hgone hshown with ⟨target, hlink⟩ | ⟨a, ha, hadir, hbelow⟩
  · rw [hx] at hlink
    exact nomatch hlink
  · -- The output is a directory above the file, hence the one it lies in or one above that.
    have hne : a ≠ x := by
      intro heq
      subst heq
      rw [hx] at hadir
      exact nomatch hadir
    obtain ⟨r, rfl⟩ := hbelow
    have hr : r ≠ [] := by
      intro heq
      subst heq
      exact hne (List.append_nil a).symm
    rw [List.dropLast_append_of_ne_nil hr] at hdir
    exact not_prefix_of_check hcheck hdir ha (List.prefix_append _ _)

/-! ## Inputs -/

/-- What is discovered is a file. -/
theorem bytes?_of_mem_discover {fs : FileSystem} {dir p : Path} {extension : String}
    {inputs : List Path} (h : discover fs dir extension = .ok inputs) (hp : p ∈ inputs) :
    ∃ bytes, fs.bytes? p = some bytes := by
  obtain ⟨names, -, rfl⟩ := discover_eq_ok h
  obtain ⟨n, hn, rfl⟩ := List.mem_map.mp (List.mem_mergeSort.mp hp)
  -- What is listed has passed the test for a file, which follows links.
  have hfile : fs.isFile (dir.join n) = true := by
    have hboth := (List.mem_filter.mp hn).2
    rw [Bool.and_eq_true] at hboth
    exact hboth.1
  exact FileSystem.isFile_iff.mp hfile

/-! ## Inputs after the removal -/

/-- The removal leaves an input that it spares. -/
theorem cleared_of_spares {c : Configuration} {fs : FileSystem} {p : Path}
    {bytes : ByteArray} (hcheck : c.check fs = .ok ()) (hbytes : fs.bytes? p = some bytes)
    (hspares : c.Spares fs p) :
    (fs.cleared c.outputDir).bytes? p = some bytes ∧
      (fs.cleared c.outputDir).canonical? p = fs.canonical? p := by
  have hpart := fs.partOf_cleared c.outputDir
  obtain ⟨a, ha, hfile⟩ := FileSystem.bytes?_eq_some_iff.mp hbytes
  have hsight : fs.root.sight? a = some .file :=
    FileSystem.Node.sight?_eq_file_iff.mpr ⟨bytes, FileSystem.Node.fileAt?_eq_some_iff.mp hfile⟩
  have hshown : ∀ x, fs.OnWay p x → (fs.cleared c.outputDir).root.sight? x ≠ none := by
    intro x hx
    rcases hspares x hx with hkept | ⟨hown, hdir⟩
    · exact hkept
    · rw [ha] at hown
      obtain rfl := Option.some.inj hown
      exact shown_of_check hcheck hsight hdir
  -- So the way is all there, and leads to the same file, which no removal writes to.
  obtain ⟨ha', -⟩ := hpart.of_shown ha hshown
  refine ⟨FileSystem.bytes?_eq_some_iff.mpr ⟨a, ha', ?_⟩, ha'.trans ha.symm⟩
  rw [← hpart.file_eq a (hshown a (Or.inr ha)) id]
  exact hfile

/-! ## The run on a disk -/

/-- A run that fails to load leaves the disk as it was. -/
theorem runOnDisk_of_error {c : Configuration} {fs : FileSystem} {e : Error}
    (h : (c.loadInputs fs).result = .error e) : (c.runOnDisk fs).state.files = fs := by
  rw [runOnDisk, (run_of_error h _ _).2]

/-- A run that has loaded leaves what the writing leaves. -/
theorem runOnDisk_of_loadInputs {c : Configuration} {fs : FileSystem} {loaded : Loaded}
    (h : (c.loadInputs fs).result = .ok loaded) :
    (c.runOnDisk fs).state = ((Disk.sink c.outputDir).writeAll
      (loaded.schemas.artifacts c.layout) { files := fs }).2 :=
  (run_of_loadInputs h _ _).2

/-- The artifacts that a run wrote: those of the plan, up to the first write that failed. -/
def written (c : Configuration) (fs : FileSystem) : List Artifact :=
  ((c.plan fs).result.toOption.getD []).take (c.runOnDisk fs).state.writes

section Loaded

variable {c : Configuration} {fs : FileSystem} {loaded : Loaded}

/-- A run that has loaded its inputs only adds to what the clearing leaves. -/
theorem partOf_runOnDisk (h : (c.loadInputs fs).result = .ok loaded) :
    PartOf (c.runOnDisk fs).state.WroteTo (fs.cleared c.outputDir)
      (c.runOnDisk fs).state.files := by
  rw [runOnDisk_of_loadInputs h]
  exact Disk.partOf_writeAll c.outputDir (loaded.schemas.artifacts c.layout) { files := fs }

/-- What files hold after a run that has loaded its inputs. -/
theorem fileAt?_runOnDisk (h : (c.loadInputs fs).result = .ok loaded) (a : Address) :
    (c.runOnDisk fs).state.files.root.fileAt? a
      = Disk.contentsAt (fs.cleared c.outputDir) (c.runOnDisk fs).state.files (c.written fs) a := by
  unfold written
  rw [plan_of_loadInputs h, runOnDisk_of_loadInputs h]
  exact Disk.fileAt?_writeAll c.outputDir _ rfl a

end Loaded

/-! ## Inputs after the run -/

/-- Whether an input is replaced by a run: its way leads over something that the run made or to a
file that it wrote, and what the run left or wrote there has its bytes. -/
def Replaces (c : Configuration) (fs : FileSystem) (p : Path) : Prop :=
  ∃ a, (c.runOnDisk fs).state.files.canonical? p = some a ∧
    ((∃ x, (c.runOnDisk fs).state.files.OnWay p x ∧
        (fs.cleared c.outputDir).root.sight? x = none) ∨ (c.runOnDisk fs).state.WroteTo a) ∧
    Disk.contentsAt (fs.cleared c.outputDir) (c.runOnDisk fs).state.files (c.written fs) a
      = fs.bytes? p

/-- A path whose way after the run was there before all along was spared. -/
theorem spares_of_shown {c : Configuration} {fs : FileSystem} {loaded : Loaded} {p : Path}
    {a : Address} (h : (c.loadInputs fs).result = .ok loaded)
    (ha : (c.runOnDisk fs).state.files.canonical? p = some a)
    (hshown : ∀ x, (c.runOnDisk fs).state.files.OnWay p x →
      (fs.cleared c.outputDir).root.sight? x ≠ none) :
    c.Spares fs p ∧ fs.canonical? p = some a := by
  have hrun := partOf_runOnDisk h
  have hcleared := fs.partOf_cleared c.outputDir
  obtain ⟨ha', -⟩ := hrun.of_shown ha hshown
  refine ⟨?_, hcleared.canonical?_eq ha'⟩
  intro x hx
  left
  -- The way is the same one before the run, after the clearing and in the end.
  apply hshown x
  rwa [hrun.onWay_iff ha', ← hcleared.onWay_iff ha']

/-- **Which inputs are the same after a run.** The configuration has passed its check, and the
path is one of the inputs discovered before the run. Then it leads to a file with the same
bytes after the run, whether that succeeds or not, if and only if the run ends before it turns to
the output, or the removal spares the input and no write is to its file, or the run replaces it by
a file with the same bytes. -/
theorem run_keeps_input_iff {c : Configuration} {fs : FileSystem} {inputs : List Path} {p : Path}
    (hcheck : c.check fs = .ok ())
    (hinputs : discover fs c.inputDir c.inputExtension = .ok inputs) (hp : p ∈ inputs) :
    (∃ bytes, fs.bytes? p = some bytes ∧
        (c.runOnDisk fs).state.files.bytes? p = some bytes) ↔
      (∃ e, (c.loadInputs fs).result = .error e) ∨
        (c.Spares fs p ∧
          ∀ a, fs.canonical? p = some a → ¬ (c.runOnDisk fs).state.WroteTo a) ∨
        c.Replaces fs p := by
  obtain ⟨bytes, hbytes⟩ := bytes?_of_mem_discover hinputs hp
  cases hload : (c.loadInputs fs).result with
  | error e =>
    constructor
    · intro _
      exact .inl ⟨e, rfl⟩
    · intro _
      exact ⟨bytes, hbytes, by rw [runOnDisk_of_error hload]; exact hbytes⟩
  | ok loaded =>
    constructor
    · intro hkept
      right
      obtain ⟨bytes', hbytes', hafter⟩ := hkept
      obtain ⟨a, ha, hfile⟩ := FileSystem.bytes?_eq_some_iff.mp hafter
      rw [fileAt?_runOnDisk hload] at hfile
      have hsame := hfile.trans hbytes'.symm
      by_cases hmade : ∃ x, (c.runOnDisk fs).state.files.OnWay p x ∧
          (fs.cleared c.outputDir).root.sight? x = none
      · exact .inr ⟨a, ha, .inl hmade, hsame⟩
      · obtain ⟨hspares, hleads⟩ := spares_of_shown hload ha fun x hx hnone => hmade ⟨x, hx, hnone⟩
        by_cases hwritten : (c.runOnDisk fs).state.WroteTo a
        · exact .inr ⟨a, ha, .inr hwritten, hsame⟩
        · left
          refine ⟨hspares, ?_⟩
          intro b hb
          rwa [← Option.some.inj (hleads.symm.trans hb)]
    · intro hcases
      rcases hcases with ⟨e, he⟩ | ⟨hspares, hunwritten⟩ | ⟨a, ha, -, hsame⟩
      · exact nomatch he
      · obtain ⟨hkept, hleads⟩ := cleared_of_spares hcheck hbytes hspares
        refine ⟨bytes, hbytes, (partOf_runOnDisk hload).bytes?_eq hkept ?_⟩
        intro a ha
        exact hunwritten a (hleads ▸ ha)
      · refine ⟨bytes, hbytes, FileSystem.bytes?_eq_some_iff.mpr ⟨a, ha, ?_⟩⟩
        rw [fileAt?_runOnDisk hload, hsame]
        exact hbytes

/-! ## An input that is kept and one that is lost -/

/-- The only entry of a directory is discovered if it is a file with the name of an input. -/
theorem discover_of_list_singleton {fs : FileSystem} {dir : Path} {extension : String}
    {name : RawText} (hlist : fs.list dir = .ok [name]) (hfile : fs.isFile (dir.join name) = true)
    (hname : isInputName extension name = true) :
    discover fs dir extension = .ok [dir.join name] := by
  have hkept : ([name].filter fun n => fs.isFile (dir.join n) && isInputName extension n)
      = [name] := by
    rw [List.filter_cons, if_pos (by rw [hfile, hname]; rfl), List.filter_nil]
  rw [discover, hlist]
  show Except.ok (inputsAmong fs dir extension [name]) = .ok [dir.join name]
  rw [inputsAmong, hkept, List.map_singleton, List.mergeSort_singleton]

/-- One input, and an output directory with something in it. -/
def plainInput : FileSystem where
  root := .dir [("in", .dir [("users.csv", .file ByteArray.empty)]),
    ("out", .dir [("Old.java", .file ByteArray.empty)])]

/-- The same with an input that is a link into the output directory. -/
def linkedInput : FileSystem where
  root := .dir [("in", .dir [("users.csv", .link "../out/data.csv")]),
    ("out", .dir [("data.csv", .file "id,,Numeric\n".toUTF8)])]

/-- A configuration for both. -/
def inToOut : Configuration := { inputDir := ⟨"in"⟩, outputDir := ⟨"out"⟩ }

theorem discover_plainInput :
    discover plainInput inToOut.inputDir inToOut.inputExtension = .ok [⟨"in/users.csv"⟩] := by
  have hlist : plainInput.list inToOut.inputDir = .ok ["users.csv"] := rfl
  exact discover_of_list_singleton hlist (by decide) (by decide)

theorem discover_linkedInput :
    discover linkedInput inToOut.inputDir inToOut.inputExtension = .ok [⟨"in/users.csv"⟩] := by
  have hlist : linkedInput.list inToOut.inputDir = .ok ["users.csv"] := rfl
  exact discover_of_list_singleton hlist (by decide) (by decide)

/-- The plain input is the same after the run: its way is spared and nothing is written to it. -/
theorem run_keeps_plain_input :
    inToOut.check plainInput = .ok () ∧
      discover plainInput inToOut.inputDir inToOut.inputExtension = .ok [⟨"in/users.csv"⟩] ∧
      ∃ bytes, plainInput.bytes? ⟨"in/users.csv"⟩ = some bytes ∧
        (inToOut.runOnDisk plainInput).state.files.bytes? ⟨"in/users.csv"⟩ = some bytes := by
  have htrail : plainInput.trail ⟨"in/users.csv"⟩
      = ([["in"], ["in", "users.csv"]] : List FileSystem.Address) := by
    decide
  have hleads : plainInput.canonical? ⟨"in/users.csv"⟩
      = some (["in", "users.csv"] : FileSystem.Address) := by
    decide
  have hwrites : ∀ q ∈ (inToOut.runOnDisk plainInput).state.events.filterMap Event.writtenPath?,
      (inToOut.runOnDisk plainInput).state.files.canonical? q
        ≠ some (["in", "users.csv"] : FileSystem.Address) := by
    rw [runOnDisk, run, loadInputs, discover_plainInput]
    decide +kernel
  refine ⟨rfl, discover_plainInput,
    (run_keeps_input_iff rfl discover_plainInput (List.mem_singleton_self _)).mpr
      (.inr (.inl ⟨?_, ?_⟩))⟩
  · intro x hx
    left
    unfold FileSystem.OnWay at hx
    rw [htrail, hleads] at hx
    have hcases : x = (["in"] : FileSystem.Address) ∨
        x = (["in", "users.csv"] : FileSystem.Address) := by
      simpa [eq_comm] using hx
    rcases hcases with rfl | rfl
    · decide
    · decide
  · intro a ha hwrote
    obtain ⟨p, size, hevent, hp⟩ := hwrote
    rw [hleads] at ha
    exact hwrites p (List.mem_filterMap.mpr ⟨_, hevent, rfl⟩) (hp.trans ha.symm)

/-- The linked input passes the check, the run succeeds, and its file is gone. -/
theorem run_loses_linked_input :
    inToOut.check linkedInput = .ok () ∧
      discover linkedInput inToOut.inputDir inToOut.inputExtension = .ok [⟨"in/users.csv"⟩] ∧
      linkedInput.bytes? ⟨"in/users.csv"⟩ = some "id,,Numeric\n".toUTF8 ∧
      (inToOut.runOnDisk linkedInput).result.toOption = some ⟨1, 1, 3, []⟩ ∧
      (inToOut.runOnDisk linkedInput).state.files.bytes? ⟨"in/users.csv"⟩ = none := by
  refine ⟨rfl, discover_linkedInput, ?_, ?_, ?_⟩
  · decide +kernel
  · rw [runOnDisk, run, loadInputs, discover_linkedInput]
    decide +kernel
  · rw [runOnDisk, run, loadInputs, discover_linkedInput]
    decide +kernel

end Configuration

end JavaEntities
