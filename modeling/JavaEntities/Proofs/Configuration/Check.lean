import JavaEntities.Configuration.Check
import JavaEntities.Proofs.Error.Steps
import JavaEntities.Proofs.FileSystem.Lexical

/-!
# The check of a configuration

A configuration passes its check if its extensions are single words, its output has a path
and the directory of the output does not hold that of the inputs (`check_eq_ok_iff`). If it
does not pass, the configuration itself is at fault (`error_of_check`).

In a tree without links a directory is resolved to its lexical address, whether it is
there or not (`resolveDir_of_linkFree`). So the verdict on a configuration is one on lexical
addresses (`check_of_linkFree`): it depends on the current directory alone, and is the same
after any change that makes no link (`check_congr`).
-/

namespace JavaEntities

open FileSystem (Address)

/-! ## Extensions -/

/-- Whether an extension is a single word: not empty, without dots and without separators of any
system. -/
structure IsSingleWord (extension : String) : Prop where
  ne_empty : extension ≠ ""
  no_dot : '.' ∉ extension.toList
  no_separator : '/' ∉ extension.toList
  no_backslash : '\\' ∉ extension.toList

/-- What a single word must not hold, character by character. -/
theorem isCompound_eq_false_iff {extension : String} :
    isCompound extension = false ↔
      '.' ∉ extension.toList ∧ '/' ∉ extension.toList ∧ '\\' ∉ extension.toList := by
  unfold isCompound
  rw [List.any_eq_false]
  constructor
  · intro h
    refine ⟨fun hc => h _ hc ?_, fun hc => h _ hc ?_, fun hc => h _ hc ?_⟩
    · decide
    · decide
    · decide
  · rintro ⟨hdot, hseparator, hbackslash⟩ c hc hcompound
    have hcases : (c = '.' ∨ c = '/') ∨ c = '\\' := by simpa using hcompound
    rcases hcases with (rfl | rfl) | rfl
    · exact hdot hc
    · exact hseparator hc
    · exact hbackslash hc

/-- **Extensions that pass their check are the single words.** -/
theorem checkExtension_eq_ok_iff {key : ExtensionKey} {extension : String} :
    checkExtension key extension = .ok () ↔ IsSingleWord extension := by
  unfold checkExtension
  by_cases hempty : extension = ""
  · rw [if_pos hempty]
    exact iff_of_false (fun h => nomatch h) fun h => h.ne_empty hempty
  · rw [if_neg hempty]
    cases hcompound : isCompound extension with
    | true =>
      refine iff_of_false (fun h => nomatch h) fun h => ?_
      rw [isCompound_eq_false_iff.mpr ⟨h.no_dot, h.no_separator, h.no_backslash⟩] at hcompound
      exact nomatch hcompound
    | false =>
      obtain ⟨hdot, hseparator, hbackslash⟩ := isCompound_eq_false_iff.mp hcompound
      exact iff_of_true rfl ⟨hempty, hdot, hseparator, hbackslash⟩

/-- An accepted extension does not divide a path. -/
theorem no_separator_of_checkExtension {key : ExtensionKey} {extension : String}
    (h : checkExtension key extension = .ok ()) : '/' ∉ extension.toList :=
  (checkExtension_eq_ok_iff.mp h).no_separator

/-! ## Directories -/

variable {fs fs' : FileSystem}

/-- The absolute path of a lexical address leads to that address, if it leads anywhere. -/
theorem eq_lexical_of_canonical?_pathOf (hlinks : fs.root.LinkFree)
    (hcurrent : ∀ n ∈ fs.current, IsFileName n) {dir : Path} {a : Address}
    (h : fs.canonical? (FileSystem.pathOf (fs.lexical dir)) = some a) : a = fs.lexical dir := by
  rw [FileSystem.lexical_of_canonical? hlinks h]
  exact FileSystem.lexical_pathOf fun n => FileSystem.isFileName_of_mem_lexical hcurrent

/-- **A directory is resolved to its lexical address where there are no links**, whether it is
there or not. -/
theorem resolveDir_of_linkFree (hlinks : fs.root.LinkFree)
    (hcurrent : ∀ n ∈ fs.current, IsFileName n) (dir : Path) :
    resolveDir fs dir = if dir.text = "" then .error (.config (.unresolvable dir .emptyPath))
      else .ok (fs.lexical dir) := by
  unfold resolveDir
  split
  · next a ha =>
    have hlead := (FileSystem.follow_eq_ok_iff.mp (FileSystem.canonical?_eq_some_iff.mp ha).1).1
    rw [if_neg hlead.ne_empty, FileSystem.lexical_of_canonical? hlinks ha]
  · split
    · next cause hcause =>
      obtain ⟨hempty, rfl⟩ := FileSystem.absolute_eq_error hcause
      rw [if_pos hempty]
    · next components hcomponents =>
      rw [if_neg (FileSystem.ne_empty_of_absolute hcomponents)]
      dsimp only
      rw [FileSystem.fold_absolute hcomponents]
      -- The second question asks for the path of the lexical address.
      cases hagain : fs.canonical? (FileSystem.pathOf (fs.lexical dir)) with
      | none => rfl
      | some b =>
        rw [eq_lexical_of_canonical?_pathOf hlinks hcurrent hagain]
        rfl

namespace Configuration

variable {c : Configuration} {e : Error}

/-! ## Faults -/

/-- An extension is refused with a fault of the configuration. -/
theorem error_of_checkExtension {key : ExtensionKey} {extension : String}
    (h : checkExtension key extension = .error e) : ∃ problem, e = .config problem := by
  unfold checkExtension at h
  split at h
  · exact ⟨_, (Except.error.inj h).symm⟩
  · split at h
    · exact ⟨_, (Except.error.inj h).symm⟩
    · exact nomatch h

/-- A directory that cannot be resolved is a fault of the configuration. -/
theorem error_of_resolveDir {dir : Path} (h : resolveDir fs dir = .error e) :
    ∃ problem, e = .config problem := by
  unfold resolveDir at h
  split at h
  · exact nomatch h
  · split at h
    · exact ⟨_, (Except.error.inj h).symm⟩
    · exact nomatch h

/-- The directories are refused with a fault of the configuration. -/
theorem error_of_checkDirs (h : c.checkDirs fs = .error e) : ∃ problem, e = .config problem := by
  unfold checkDirs at h
  rcases bind_eq_error h with hin | ⟨input, h⟩
  · exact error_of_resolveDir hin
  · rcases bind_eq_error h with hout | ⟨output, h⟩
    · exact error_of_resolveDir hout
    · split at h
      · exact ⟨_, (Except.error.inj h).symm⟩
      · exact nomatch h

/-- A configuration that does not pass its check is at fault itself. -/
theorem error_of_check (h : c.check fs = .error e) : ∃ problem, e = .config problem := by
  unfold check at h
  rcases bind_eq_error h with hin | ⟨_, h⟩
  · exact error_of_checkExtension hin
  · rcases bind_eq_error h with hout | ⟨_, h⟩
    · exact error_of_checkExtension hout
    · split at h
      · exact ⟨_, (Except.error.inj h).symm⟩
      · exact error_of_checkDirs h

/-! ## Verdicts -/

/-- A configuration is accepted if and only if each of the four checks accepts it. -/
theorem check_eq_ok_iff {c : Configuration} {fs : FileSystem} :
    c.check fs = .ok () ↔
      checkExtension .input c.inputExtension = .ok () ∧
        checkExtension .output c.outputExtension = .ok () ∧ c.outputDir.text ≠ "" ∧
        c.checkDirs fs = .ok () := by
  unfold check
  cases checkExtension .input c.inputExtension with
  | error e => simp [bind, Except.bind]
  | ok _ =>
    cases checkExtension .output c.outputExtension with
    | error e => simp [bind, Except.bind]
    | ok _ =>
      by_cases hempty : c.outputDir.text = ""
      · simp [bind, Except.bind, hempty]
      · simp [bind, Except.bind, hempty]

/-- In an accepted configuration the inputs are not in the output, as far as both exist. -/
theorem not_prefix_of_check {c : Configuration} {fs : FileSystem} {i a : Address}
    (hcheck : c.check fs = .ok ()) (hi : fs.canonical? c.inputDir = some i)
    (ha : fs.canonical? c.outputDir = some a) : ¬ a <+: i := by
  intro hbelow
  have hin : resolveDir fs c.inputDir = .ok i := by rw [resolveDir, hi]
  have hout : resolveDir fs c.outputDir = .ok a := by rw [resolveDir, ha]
  have hdirs := (check_eq_ok_iff.mp hcheck).2.2.2
  rw [checkDirs, hin, hout] at hdirs
  simp [bind, Except.bind, List.isPrefixOf_iff_prefix.mpr hbelow] at hdirs

/-- The directories pass if the address of the output is not that of the inputs nor above it. -/
theorem checkDirs_of_linkFree (hlinks : fs.root.LinkFree)
    (hcurrent : ∀ n ∈ fs.current, IsFileName n) (hout : c.outputDir.text ≠ "") :
    c.checkDirs fs = .ok () ↔
      c.inputDir.text ≠ "" ∧ ¬ fs.lexical c.outputDir <+: fs.lexical c.inputDir := by
  rw [checkDirs, resolveDir_of_linkFree hlinks hcurrent, resolveDir_of_linkFree hlinks hcurrent,
    if_neg hout]
  by_cases hin : c.inputDir.text = ""
  · rw [if_pos hin]
    exact iff_of_false (fun h => nomatch h) fun h => h.1 hin
  · rw [if_neg hin]
    by_cases hbelow : fs.lexical c.outputDir <+: fs.lexical c.inputDir
    · simp [bind, Except.bind, List.isPrefixOf_iff_prefix.mpr hbelow, hbelow]
    · simp [bind, Except.bind, pure, Except.pure, hbelow, hin]

/-- **The verdict of the check depends on the current directory alone** where there are no
links. -/
theorem check_congr (hlinks : fs.root.LinkFree) (hnames : fs.WellNamed)
    (hlinks' : fs'.root.LinkFree) (hnames' : fs'.WellNamed) (hcurrent : fs'.current = fs.current) :
    c.check fs' = c.check fs := by
  have hresolve : ∀ dir, resolveDir fs' dir = resolveDir fs dir := by
    intro dir
    rw [resolveDir_of_linkFree hlinks hnames.current,
      resolveDir_of_linkFree hlinks' hnames'.current, FileSystem.lexical_congr hcurrent]
  unfold check checkDirs
  rw [hresolve, hresolve]

/-- Without links, the same holds of the places that the two paths spell. -/
theorem lexical_not_prefix_of_check (hlinks : fs.root.LinkFree) (hnames : fs.WellNamed)
    (hcheck : c.check fs = .ok ()) : ¬ fs.lexical c.outputDir <+: fs.lexical c.inputDir := by
  obtain ⟨-, -, hout, hdirs⟩ := check_eq_ok_iff.mp hcheck
  exact ((checkDirs_of_linkFree hlinks hnames.current hout).mp hdirs).2

/-- **The check is exact where there are no links.** Every path is resolved to its lexical address,
that of its components made absolute: this is where the path leads, if it leads anywhere, what its
components fold to, and where the absolute path of that address leads, if it leads anywhere. A
configuration passes if and only if both extensions are single words, both directories have a path
and the address of the output is not a beginning of that of the inputs. If it does not pass, the
configuration is at fault. -/
theorem check_of_linkFree (hlinks : fs.root.LinkFree)
    (hcurrent : ∀ n ∈ fs.current, IsFileName n) (c : Configuration) :
    (∀ dir : Path, dir.text ≠ "" →
        resolveDir fs dir = .ok (fs.lexical dir) ∧
          (∀ a, fs.canonical? dir = some a → a = fs.lexical dir) ∧
          (∃ components, fs.absolute dir = .ok components ∧
            FileSystem.fold components = fs.lexical dir) ∧
          ∀ a, fs.canonical? (FileSystem.pathOf (fs.lexical dir)) = some a →
            a = fs.lexical dir) ∧
      (c.check fs = .ok () ↔
        IsSingleWord c.inputExtension ∧ IsSingleWord c.outputExtension ∧
          c.inputDir.text ≠ "" ∧ c.outputDir.text ≠ "" ∧
          ¬ fs.lexical c.outputDir <+: fs.lexical c.inputDir) ∧
      ∀ e, c.check fs = .error e → ∃ problem, e = .config problem := by
  refine ⟨?_, ?_, fun e => error_of_check⟩
  · intro dir hdir
    refine ⟨?_, fun a => FileSystem.lexical_of_canonical? hlinks, ?_,
      fun a => eq_lexical_of_canonical?_pathOf hlinks hcurrent⟩
    · rw [resolveDir_of_linkFree hlinks hcurrent, if_neg hdir]
    · cases habsolute : fs.absolute dir with
      | error cause => exact absurd (FileSystem.absolute_eq_error habsolute).1 hdir
      | ok components => exact ⟨components, rfl, FileSystem.fold_absolute habsolute⟩
  · rw [check_eq_ok_iff, checkExtension_eq_ok_iff, checkExtension_eq_ok_iff]
    constructor
    · rintro ⟨hin, hout, hne, hdirs⟩
      obtain ⟨hne', happart⟩ := (checkDirs_of_linkFree hlinks hcurrent hne).mp hdirs
      exact ⟨hin, hout, hne', hne, happart⟩
    · rintro ⟨hin, hout, hne', hne, happart⟩
      exact ⟨hin, hout, hne, (checkDirs_of_linkFree hlinks hcurrent hne).mpr ⟨hne', happart⟩⟩

/-- A working directory with one directory of inputs. -/
def atWork : FileSystem where
  root := .dir [("work", .dir [("in", .dir [("users.csv", .file ByteArray.empty)])])]
  current := ["work"]

/-- A way through a file leads nowhere and is folded, steps above the root stay there, and a name
that only begins like that of the inputs is no beginning of their address. -/
theorem check_of_work :
    let c : Configuration :=
      { inputDir := ⟨"in/users.csv/../../in"⟩, outputDir := ⟨"../../..//work/./in2"⟩ }
    atWork.canonical? c.inputDir = none ∧ resolveDir atWork c.inputDir = .ok ["work", "in"] ∧
      resolveDir atWork c.outputDir = .ok ["work", "in2"] ∧ c.check atWork = .ok () ∧
      ∃ problem, ({ c with outputDir := ⟨"missing/.."⟩ } : Configuration).check atWork
        = .error (.config problem) := by
  intro c
  have hlinks : atWork.root.LinkFree := by
    have hlasting := FileSystem.Node.lasting_linkFree
    refine FileSystem.Node.everywhere_singleton hlasting (by decide) ?_
    refine FileSystem.Node.everywhere_singleton hlasting (by decide) ?_
    exact FileSystem.Node.everywhere_singleton hlasting (by decide)
      (FileSystem.Node.everywhere_file hlasting _)
  obtain ⟨hresolve, hverdict, -⟩ := check_of_linkFree hlinks (by decide) c
  obtain ⟨-, hverdict', hfault⟩ := check_of_linkFree hlinks (by decide)
    { c with outputDir := ⟨"missing/.."⟩ }
  have hin : atWork.lexical c.inputDir = (["work", "in"] : FileSystem.Address) := by decide
  have hout : atWork.lexical c.outputDir = (["work", "in2"] : FileSystem.Address) := by decide
  refine ⟨by decide, ?_, ?_, hverdict.mpr ⟨?_, ?_, by decide, by decide, by decide⟩, ?_⟩
  · rw [(hresolve c.inputDir (by decide)).1, hin]
  · rw [(hresolve c.outputDir (by decide)).1, hout]
  · exact ⟨by decide, by decide, by decide, by decide⟩
  · exact ⟨by decide, by decide, by decide, by decide⟩
  · cases hcheck : ({ c with outputDir := ⟨"missing/.."⟩ } : Configuration).check atWork with
    | ok _ => exact absurd (hverdict'.mp hcheck).2.2.2.2 (by decide)
    | error e =>
      obtain ⟨problem, rfl⟩ := hfault e hcheck
      exact ⟨problem, rfl⟩

end Configuration

end JavaEntities
