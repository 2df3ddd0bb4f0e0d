import JavaEntities.Proofs.Disk.Output
import JavaEntities.Proofs.FileSystem.Confined

/-!
# What a disk leaves alone

On a disk without links, what a run changes is confined to the output directory, whatever
call it stops at (`confined_writeAll`): a reset removes what is at the lexical address of
the directory and makes it again, and every write is to an entry of it. What holds
everywhere in the tree and is of a lasting kind is kept (`everywhere_writeAll`), so there
are no links afterwards either.

On a real disk a call may also break off: the disk is full, or there is no permission for
a part of what it removes. `Unreliable` are the sinks on which any call may do so, and what
is said of a run is said of all of them. Whatever a run fails with is an error of the
output (`error_of_writeAll`).
-/

namespace JavaEntities

open FileSystem (Confined Node Address)
open FileSystem.Node (Lasting)

variable {P : Node → Prop} {root : Path}

theorem FileSystem.everywhere_cleared {fs : FileSystem} (hP : Lasting P) (root : Path)
    (h : fs.root.Everywhere P) : (fs.cleared root).root.Everywhere P := by
  unfold FileSystem.cleared
  split
  · exact FileSystem.everywhere_removeAll hP root h
  · exact h

/-- Clearing the output changes nothing outside it. -/
theorem FileSystem.confined_cleared {fs : FileSystem} (hlinks : fs.root.LinkFree) (root : Path) :
    Confined (fs.lexical root) fs (fs.cleared root) := by
  unfold FileSystem.cleared
  split
  · exact FileSystem.confined_removeAll hlinks root
  · exact .refl _ fs

namespace Disk

variable {d d' : Disk} {artifacts : List Artifact}

/-- To make the output is to make its directory. -/
theorem files_makeOutput (root : Path) (d : Disk) :
    (makeOutput root d).2.files = (d.files.makeDirs root).2 := by
  unfold makeOutput
  split
  · next h => rw [h]
  · next h => rw [h]

/-- A reset clears the directory, and unless that fails it makes the directory again. -/
theorem files_reset (root : Path) (d : Disk) :
    (reset root d).2.files = d.files.cleared root ∨
      (reset root d).2.files = ((d.files.cleared root).makeDirs root).2 := by
  unfold reset FileSystem.cleared
  split
  · split
    · next h => rw [h]; exact .inl rfl
    · next h => rw [h]; exact .inr (files_makeOutput root _)
  · exact .inr (files_makeOutput root d)

/-! ## What holds everywhere -/

/-- What is lasting is kept by a reset. -/
theorem everywhere_reset (hP : Lasting P) (root : Path) (h : d.files.root.Everywhere P) :
    (reset root d).2.files.root.Everywhere P := by
  have hcleared := FileSystem.everywhere_cleared hP root h
  rcases files_reset root d with hfiles | hfiles
  · rwa [hfiles]
  · rw [hfiles]
    exact FileSystem.everywhere_makeDirs hP root hcleared

/-- What is lasting is kept by a write. -/
theorem everywhere_write (hP : Lasting P) (p : Path) (contents : String)
    (h : d.files.root.Everywhere P) : (write p contents d).2.files.root.Everywhere P := by
  unfold write
  split
  · exact h
  · next hwrite => exact FileSystem.everywhere_writeBytes hP hwrite h

/-- What is lasting is kept while everything is written. -/
theorem everywhere_writeAll (hP : Lasting P) (root : Path) (artifacts : List Artifact)
    (h : d.files.root.Everywhere P) :
    ((sink root).writeAll artifacts d).2.files.root.Everywhere P :=
  Sink.writeAll_keeps (I := fun d : Disk => d.files.root.Everywhere P) (everywhere_reset hP root h)
    fun x _ _ hd => everywhere_write hP x.path x.contents hd

/-! ## What is changed -/

/-- A reset is confined to its root, however it ends. -/
theorem confined_reset (hlinks : d.files.root.LinkFree) (hup : Component.up ∉ root.components) :
    Confined (d.files.lexical root) d.files (reset root d).2.files := by
  have hcleared := FileSystem.confined_cleared hlinks root
  rcases files_reset root d with hfiles | hfiles
  · rwa [hfiles]
  · have hlinks' := FileSystem.everywhere_cleared Node.lasting_linkFree root hlinks
    have hmade := FileSystem.confined_makeDirs hlinks' hup
    rw [FileSystem.lexical_congr hcleared.current_eq] at hmade
    rw [hfiles]
    exact hcleared.trans hmade

/-- A write is confined to the place that its path spells. -/
theorem confined_write (hlinks : d.files.root.LinkFree) (p : Path) (contents : String) :
    Confined (d.files.lexical p) d.files (write p contents d).2.files := by
  unfold write
  split
  · exact .refl _ d.files
  · next hwrite => exact FileSystem.confined_writeBytes hlinks hwrite

/-! ## Errors -/

/-- A reset fails with an error of the output. -/
theorem error_of_reset {e : Error} (h : (reset root d).1 = .error e) :
    ∃ p cause, e = .outputWrite p cause := by
  have hmake : ∀ d : Disk, (makeOutput root d).1 = .error e →
      ∃ p cause, e = .outputWrite p cause := by
    intro d h
    unfold makeOutput at h
    split at h
    · next cause _ _ => exact ⟨root, cause, (Except.error.inj h).symm⟩
    · exact nomatch h
  unfold reset at h
  split at h
  · split at h
    · next cause _ _ => exact ⟨root, cause, (Except.error.inj h).symm⟩
    · exact hmake _ h
  · exact hmake d h

/-- A write fails with an error of the output. -/
theorem error_of_write {p : Path} {contents : String} {e : Error}
    (h : (write p contents d).1 = .error e) : ∃ p cause, e = .outputWrite p cause := by
  unfold write at h
  split at h
  · next cause _ => exact ⟨p, cause, (Except.error.inj h).symm⟩
  · exact nomatch h

/-! ## Disks that break off -/

/-- How a call can end on a disk that may fail at any moment: as it does on one that fails only
where its state says so, or with an error of the output after one of the stages of the call, while
it was changing what stands at an address. -/
inductive MayEnd (a : Address) (stage : FileSystem → Prop) (whole : Except Error Unit × Disk) :
    Except Error Unit × Disk → Prop
  | whole : MayEnd a stage whole whole
  | halfway {fs : FileSystem} {d : Disk} (p : Path) (cause : IoCause) (hstage : stage fs)
      (htouched : FileSystem.Touched a fs d.files) :
      MayEnd a stage whole (.error (.outputWrite p cause), d)

/-- The file systems that a reset goes through: before the removal, and after it with any number of
the directories made again. -/
def ResetStage (root : Path) (before fs : FileSystem) : Prop :=
  fs = before ∨
    Relation.ReflTransGen (FileSystem.Makes (FileSystem.chain root)) (before.cleared root) fs

/-- The file systems that a write goes through. -/
def WriteStage (p : Path) (contents : String) (d : Disk) (fs : FileSystem) : Prop :=
  fs = d.files ∨ fs = (write p contents d).2.files

/-- Whether a sink is a disk on which any call may break off. A removal can have taken a part of
the directory, and a write can have truncated the file or made it without its bytes. -/
structure Unreliable (root : Path) (sink : Sink Disk) : Prop where
  reset (d : Disk) :
    MayEnd (d.files.lexical root) (ResetStage root d.files) (reset root d) (sink.reset d)
  write (p : Path) (contents : String) (d : Disk) :
    MayEnd (d.files.lexical p) (WriteStage p contents d) (write p contents d)
      (sink.write p contents d)

/-- A disk on which no call breaks off is one of them. -/
theorem unreliable_sink (root : Path) : Unreliable root (sink root) :=
  ⟨fun _ => .whole, fun _ _ _ => .whole⟩

variable {out : Sink Disk} {a : Address} {stage : FileSystem → Prop}
  {whole result : Except Error Unit × Disk}

/-- A call that may break off leaves what it leaves otherwise, or a change that is confined. -/
theorem MayEnd.leaves (h : MayEnd a stage whole result) {fs : FileSystem}
    (hlinks : whole.2.files.root.LinkFree) (hwhole : Confined a fs whole.2.files)
    (hstage : ∀ fs', stage fs' → Confined a fs fs') :
    Sink.Leaves (fun d => d.files.root.LinkFree ∧ Confined a fs d.files)
      (fun d => Confined a fs d.files) result := by
  cases h with
  | whole =>
    rcases whole with ⟨e | u, d⟩
    · exact hwhole
    · exact ⟨hlinks, hwhole⟩
  | halfway p cause hreached htouched =>
    exact (hstage _ hreached).trans (FileSystem.confined_of_touched htouched)

/-- A call that may break off fails with an error of the output if the whole call does. -/
theorem MayEnd.error (h : MayEnd a stage whole result)
    (hwhole : ∀ {e}, whole.1 = .error e → ∃ p cause, e = .outputWrite p cause) {e : Error}
    (he : result.1 = .error e) : ∃ p cause, e = .outputWrite p cause := by
  cases h with
  | whole => exact hwhole he
  | halfway p cause _ _ => exact ⟨p, cause, (Except.error.inj he).symm⟩

/-- Every stage of a reset is confined to its root. -/
theorem confined_of_resetStage (hlinks : d.files.root.LinkFree)
    (hup : Component.up ∉ root.components) {fs : FileSystem} (h : ResetStage root d.files fs) :
    Confined (d.files.lexical root) d.files fs := by
  rcases h with rfl | hmakes
  · exact .refl _ d.files
  · have hcleared := FileSystem.confined_cleared hlinks root
    have hlinks' := FileSystem.everywhere_cleared Node.lasting_linkFree root hlinks
    refine hcleared.trans (FileSystem.confined_of_makes hlinks' hmakes fun q hq => ?_)
    rw [FileSystem.lexical_congr hcleared.current_eq]
    exact FileSystem.lexical_of_mem_chain hup hq

/-- Every stage of a write is confined to the place that its path spells. -/
theorem confined_of_writeStage (hlinks : d.files.root.LinkFree) {p : Path} {contents : String}
    {fs : FileSystem} (h : WriteStage p contents d fs) :
    Confined (d.files.lexical p) d.files fs := by
  rcases h with rfl | rfl
  · exact .refl _ d.files
  · exact confined_write hlinks p contents

/-- **What a run changes is confined to the output directory**, whether it succeeds or not, and
also if one of its calls breaks off. -/
theorem confined_writeAll (hout : Unreliable root out) (hlinks : d.files.root.LinkFree)
    (hup : Component.up ∉ root.components) (hne : root.text ≠ "")
    (hpaths : ∀ x ∈ artifacts, ∃ n, IsFileName n ∧ x.path = root.join n) :
    Confined (d.files.lexical root) d.files (out.writeAll artifacts d).2.files := by
  -- A call that succeeds keeps the tree without links, which the next one needs. One that breaks
  -- off need not: it is the last.
  let I (d' : Disk) : Prop :=
    d'.files.root.LinkFree ∧ Confined (d.files.lexical root) d.files d'.files
  let J (d' : Disk) : Prop := Confined (d.files.lexical root) d.files d'.files
  suffices h : Sink.Leaves I J (out.writeAll artifacts d) from
    Sink.leaves_self.mp (h.imp (fun _ hd => hd.2) fun _ hd => hd)
  refine Sink.writeAll_leaves ((hout.reset d).leaves
    (everywhere_reset Node.lasting_linkFree root hlinks) (confined_reset hlinks hup)
    fun _ => confined_of_resetStage hlinks hup) ?_
  rintro x hx d' ⟨hlinks', hconfined⟩
  obtain ⟨n, hn, hpath⟩ := hpaths x hx
  have hplace : d'.files.lexical x.path = d.files.lexical root ++ [n] := by
    rw [hpath, FileSystem.lexical_join hn hne, FileSystem.lexical_congr hconfined.current_eq]
  have honward : ∀ {fs}, Confined (d'.files.lexical x.path) d'.files fs →
      Confined (d.files.lexical root) d.files fs := by
    intro fs h
    rw [hplace] at h
    exact hconfined.trans (h.mono (List.prefix_append _ [n]))
  have hwrite := (hout.write x.path x.contents d').leaves
    (everywhere_write Node.lasting_linkFree x.path x.contents hlinks')
    (confined_write hlinks' x.path x.contents) fun _ => confined_of_writeStage hlinks'
  exact hwrite.imp (fun _ hd => ⟨hd.1, honward hd.2⟩) fun _ hd => honward hd

/-- Whatever a run on a disk fails with is an error of the output. -/
theorem error_of_writeAll (hout : Unreliable root out) {e : Error}
    (h : out.writeAll artifacts d = (.error e, d')) : ∃ p cause, e = .outputWrite p cause := by
  rcases Sink.writeAll_eq_error h with hreset | ⟨x, -, d₁, hwrite⟩
  · exact (hout.reset d).error error_of_reset hreset
  · exact (hout.write x.path x.contents d₁).error error_of_write hwrite

end Disk

end JavaEntities
