import JavaEntities.Proofs.Disk.Confined
import JavaEntities.Proofs.FileSystem.Remade

/-!
# Running again on a disk

A reset that succeeded has made the output directory, and what was written since is in it.
A second reset takes all of that away and makes the same directory in its place
(`reset_again`). From there the same artifacts are written in the same way, so the files
after a second run are those after the first (`writeAll_again`).
-/

namespace JavaEntities

open FileSystem (ChangedAt Node Address)

namespace Disk

variable {root : Path} {d d' d₁ d₂ : Disk} {artifacts : List Artifact}

/-! ## Events say nothing about files -/

/-- What a write does to the files has nothing to do with the events before it. -/
theorem write_congr (h : d'.files = d.files) (p : Path) (contents : String) :
    (write p contents d').1 = (write p contents d).1 ∧
      (write p contents d').2.files = (write p contents d).2.files := by
  unfold write
  rw [h]
  split
  · exact ⟨rfl, h⟩
  · exact ⟨rfl, rfl⟩

/-- How writes end, and what files they leave, depends on the files alone. -/
theorem writeEach_congr (root : Path) (artifacts : List Artifact) (h : d'.files = d.files) :
    ((sink root).writeEach artifacts d').1 = ((sink root).writeEach artifacts d).1 ∧
      ((sink root).writeEach artifacts d').2.files
        = ((sink root).writeEach artifacts d).2.files := by
  induction artifacts generalizing d d' with
  | nil => exact ⟨rfl, h⟩
  | cons x rest ih =>
    obtain ⟨hresult, hfiles⟩ := write_congr h x.path x.contents
    have hwrite : ∀ d : Disk, (sink root).write x.path x.contents d = write x.path x.contents d :=
      fun _ => rfl
    unfold Sink.writeEach
    rw [hwrite, hwrite]
    revert hresult hfiles
    rcases write x.path x.contents d with ⟨e | u, d₁⟩
    · rcases write x.path x.contents d' with ⟨e' | u', d₁'⟩
      · intro hresult hfiles
        exact ⟨hresult, hfiles⟩
      · intro hresult
        cases hresult
    · rcases write x.path x.contents d' with ⟨e' | u', d₁'⟩
      · intro hresult
        cases hresult
      · intro _ hfiles
        exact ih hfiles

/-! ## The output directory -/

/-- Writes to entries of a directory change the directory. -/
theorem changedAt_writeEach (hlinks : d.files.root.LinkFree) (hne : root.text ≠ "")
    (hpaths : ∀ x ∈ artifacts, ∃ n, IsFileName n ∧ x.path = root.join n) :
    ChangedAt (d.files.lexical root) d.files ((sink root).writeEach artifacts d).2.files := by
  suffices h : ((sink root).writeEach artifacts d).2.files.root.LinkFree ∧
      ChangedAt (d.files.lexical root) d.files ((sink root).writeEach artifacts d).2.files from h.2
  refine Sink.writeEach_keeps (I := fun d' : Disk => d'.files.root.LinkFree ∧
      ChangedAt (d.files.lexical root) d.files d'.files) ?_ ⟨hlinks, .refl _ d.files⟩
  rintro x hx d' ⟨hlinks', hchanged⟩
  obtain ⟨n, hn, hpath⟩ := hpaths x hx
  have hcurrent : d'.files.current = d.files.current := by
    obtain ⟨f, hf⟩ := hchanged
    rw [hf]
  refine ⟨everywhere_write Node.lasting_linkFree x.path x.contents hlinks', ?_⟩
  show ChangedAt _ _ (write x.path x.contents d').2.files
  unfold write
  split
  · exact hchanged
  · next hwrite =>
    rw [hpath] at hwrite
    have hstep := FileSystem.changedAt_writeBytes hlinks' hn hne hwrite
    rw [FileSystem.lexical_congr hcurrent] at hstep
    exact hchanged.trans hstep

/-- **A second reset undoes what was written**, and leaves what the first one left. -/
theorem reset_again (hlinks : d.files.root.LinkFree) (hnames : d.files.root.WellNamed)
    (hup : Component.up ∉ root.components) (hchain : FileSystem.chain root ≠ [])
    (h : reset root d = (.ok (), d₁))
    (hchanged : ChangedAt (d.files.lexical root) d₁.files d₂.files)
    (hlinks₂ : d₂.files.root.LinkFree) {a : Address} {entries : List (RawText × Node)}
    (hroot : d₂.files.locate root = .ok (a, .dir entries)) :
    (reset root d₂).1 = .ok () ∧ (reset root d₂).2.files = d₁.files := by
  obtain ⟨hmissing, hmake⟩ := reset_eq_ok h
  obtain ⟨before, hmakes, hlast⟩ := FileSystem.makeDir_of_makeDirs hmake hmissing hchain
    (FileSystem.climbsOut_of_no_up hup)
  have hbefore : ∀ {P : Node → Prop}, Node.Lasting P → d.files.root.Everywhere P →
      before.root.Everywhere P := fun hP hroot =>
    FileSystem.everywhere_of_makes hP hmakes (FileSystem.everywhere_cleared hP root hroot)
  have hcurrent : before.current = d.files.current :=
    (FileSystem.partOf_of_makes hmakes).current_eq.trans
      (FileSystem.confined_cleared hlinks root).current_eq
  rw [← FileSystem.lexical_congr hcurrent] at hchanged
  have hremove := FileSystem.removeAll_of_made (hbefore Node.lasting_linkFree hlinks)
    (hbefore Node.lasting_wellNamed hnames) hlast hchanged hlinks₂ hroot
  have hexists := FileSystem.exists?_iff.mpr ⟨a, _, hroot⟩
  unfold reset
  rw [if_pos hexists, hremove]
  dsimp only
  unfold makeOutput
  rw [show (report { d₂ with files := before } (.outputRemoved root)).files = before from rfl,
    FileSystem.makeDirs_of_makeDir hlast hchain]
  exact ⟨rfl, rfl⟩

/-- **Where the output was there was no file**, or the reset would have failed, and there is a
directory afterwards. -/
theorem sight?_of_reset (hlinks : d.files.root.LinkFree) (hup : Component.up ∉ root.components)
    (hchain : FileSystem.chain root ≠ []) (h : reset root d = (.ok (), d₁)) :
    d.files.root.sight? (d.files.lexical root) ≠ some .file ∧
      d₁.files.root.sight? (d.files.lexical root) = some .dir := by
  have hconfined := confined_reset hlinks hup
  have hlinks₁ := everywhere_reset Node.lasting_linkFree root hlinks
  rw [h] at hconfined hlinks₁
  obtain ⟨a, hmade⟩ := locate_of_reset h ⟨hchain, FileSystem.climbsOut_of_no_up hup⟩
  obtain ⟨hfollow, hempty⟩ := FileSystem.locate_eq_ok_iff.mp hmade
  have hplace : a = d.files.lexical root := by
    rw [FileSystem.lexical_of_reached hlinks₁ hfollow,
      FileSystem.lexical_congr hconfined.current_eq]
  have hdir := Node.sight?_eq_dir_iff.mpr ⟨[], hempty⟩
  rw [hplace] at hdir
  refine ⟨fun hfile => ?_, hdir⟩
  -- A file would have outlasted the clearing, and then the directories that were made.
  have hcleared : (d.files.cleared root).root.sight? (d.files.lexical root) ≠ none := by
    intro hgone
    have hshown : d.files.root.sight? (d.files.lexical root) ≠ none := by
      rw [hfile]
      exact Option.some_ne_none _
    rcases FileSystem.taken_cleared hgone hshown with ⟨target, hlink⟩ | ⟨b, hb, hbdir, -⟩
    · exact hlinks.sight?_ne_link _ target hlink
    · rw [FileSystem.lexical_of_canonical? hlinks hb, hfile] at hbdir
      exact nomatch hbdir
  have hkept := (d.files.partOf_cleared root).sight_eq _ hcleared
  have hmakes := (FileSystem.partOf_makeDirs (d.files.cleared root) root).sight_eq _ hcleared
  rw [(reset_eq_ok h).2, hdir, ← hkept, hfile] at hmakes
  exact nomatch hmakes

/-- After the output is written, there is a directory at its place, and there was no file. -/
theorem sight?_of_writeAll {n : Nat} (hlinks : d.files.root.LinkFree)
    (hup : Component.up ∉ root.components) (hchain : FileSystem.chain root ≠ [])
    (h : (sink root).writeAll artifacts d = (.ok n, d₂)) :
    d.files.root.sight? (d.files.lexical root) ≠ some .file ∧
      d₂.files.root.sight? (d.files.lexical root) = some .dir := by
  obtain ⟨-, d₁, hreset, hwrites⟩ := Sink.writeAll_eq_ok h
  obtain ⟨hbefore, hmade⟩ := sight?_of_reset hlinks hup hchain hreset
  have hgrows := grows_writeEach root artifacts d₁
  rw [hwrites] at hgrows
  refine ⟨hbefore, ?_⟩
  rw [hgrows.partOf.sight_eq _ (by rw [hmade]; exact Option.some_ne_none _), hmade]

/-! ## Runs -/

/-- Writing anew ends like the writes before, if the reset leaves the same files. -/
theorem writeAll_of_reset {n : Nat} (hreset : (reset root d').1 = .ok ())
    (hfiles : (reset root d').2.files = d₁.files)
    (hwrites : (sink root).writeEach artifacts d₁ = (.ok (), d₂)) (hn : n = artifacts.length) :
    ((sink root).writeAll artifacts d').1 = .ok n ∧
      ((sink root).writeAll artifacts d').2.files = d₂.files := by
  obtain ⟨hresult, hafter⟩ := writeEach_congr root artifacts hfiles
  rw [hwrites] at hresult hafter
  have hsink : (sink root).reset d' = (.ok (), (reset root d').2) := Prod.ext hreset rfl
  have hall : (sink root).writeEach artifacts (reset root d').2
      = (.ok (), ((sink root).writeEach artifacts (reset root d').2).2) := Prod.ext hresult rfl
  unfold Sink.writeAll
  rw [hsink]
  dsimp only
  rw [hall, hn]
  exact ⟨rfl, hafter⟩

/-- **Writing the same artifacts again ends in the same way and with the same files.** -/
theorem writeAll_again {name : Artifact → RawText} {n : Nat} (hlinks : d.files.root.LinkFree)
    (hnames : d.files.root.WellNamed) (hup : Component.up ∉ root.components)
    (hchain : FileSystem.chain root ≠ []) (hne : root.text ≠ "")
    (hpaths : ∀ x ∈ artifacts, IsFileName (name x) ∧ x.path = root.join (name x))
    (h : (sink root).writeAll artifacts d = (.ok n, d₂)) (hd' : d'.files = d₂.files) :
    ((sink root).writeAll artifacts d').1 = .ok n ∧
      ((sink root).writeAll artifacts d').2.files = d₂.files := by
  obtain ⟨hcount, d₁, hreset, hwrites⟩ := Sink.writeAll_eq_ok h
  have hreset' : reset root d = (.ok (), d₁) := hreset
  -- What the writes have changed is the directory that the reset had made.
  have hfirst := confined_reset hlinks hup
  rw [hreset'] at hfirst
  have hlinks₁ := everywhere_reset Node.lasting_linkFree root hlinks
  rw [hreset'] at hlinks₁
  have hchanged := changedAt_writeEach hlinks₁ hne fun x hx => ⟨name x, hpaths x hx⟩
  rw [hwrites, FileSystem.lexical_congr hfirst.current_eq] at hchanged
  have hlinks₂ := everywhere_writeAll Node.lasting_linkFree root artifacts hlinks
  rw [h] at hlinks₂
  obtain ⟨a, hmade⟩ := locate_of_reset hreset' ⟨hchain, FileSystem.climbsOut_of_no_up hup⟩
  have hroot :=
    locate_of_writeEach hwrites hmade (fun e he => absurd he List.not_mem_nil) hne hpaths
  rw [← hd'] at hchanged hlinks₂ hroot
  obtain ⟨hok, hfiles⟩ := reset_again hlinks hnames hup hchain hreset' hchanged hlinks₂ hroot
  exact writeAll_of_reset hok hfiles hwrites hcount

end Disk

end JavaEntities
