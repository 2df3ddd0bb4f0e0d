import JavaEntities.Disk
import JavaEntities.Proofs.FileSystem.Changes
import JavaEntities.Proofs.Sink.Calls

/-!
# What a disk keeps

A run on a disk first clears the output directory and from then on only adds: what is
left after the clearing is a part of the disk in the end (`partOf_writeAll`). The only
files whose bytes may change are those to which the writes that were reported lead.
-/

namespace JavaEntities

/-- The file system after the removal of an output directory that is there. -/
def FileSystem.cleared (fs : FileSystem) (root : Path) : FileSystem :=
  if fs.exists? root then (fs.removeAll root).2 else fs

open FileSystem (PartOf Address)

/-- What is left when the output is cleared was there before. -/
theorem FileSystem.partOf_cleared (fs : FileSystem) (root : Path) :
    PartOf (fun _ => False) (fs.cleared root) fs := by
  unfold FileSystem.cleared
  split
  · exact FileSystem.partOf_removeAll fs root
  · exact .refl _ fs

/-- The removal takes nothing but a link, or the output directory and what that holds. -/
theorem FileSystem.taken_cleared {fs : FileSystem} {root : Path} {x : Address}
    (hgone : (fs.cleared root).root.sight? x = none) (hx : fs.root.sight? x ≠ none) :
    (∃ target, fs.root.sight? x = some (.link target)) ∨
      ∃ a, fs.canonical? root = some a ∧ fs.root.sight? a = some .dir ∧ a <+: x := by
  unfold FileSystem.cleared at hgone
  split at hgone
  · exact FileSystem.taken_removeAll hgone hx
  · exact absurd hgone hx

/-- The path of the file that an event reports as written. -/
def Event.writtenPath? : Event → Option Path
  | .artifactWritten p _ => some p
  | _ => none

namespace Disk

/-- Whether the file at an address is one to which a reported write leads. -/
def WroteTo (d : Disk) (a : Address) : Prop :=
  ∃ p size, Event.artifactWritten p size ∈ d.events ∧ d.files.canonical? p = some a

/-- What a disk goes through when nothing is removed: it keeps what it shows and reports, and
the only files that change are those that were written to. -/
structure Grows (d d' : Disk) : Prop where
  events_subset : d.events ⊆ d'.events
  partOf : PartOf d'.WroteTo d.files d'.files

namespace Grows

variable {d d' d'' : Disk}

theorem refl (d : Disk) : Grows d d :=
  ⟨List.Subset.refl _, .refl _ _⟩

/-- What was written to stays so, since its path leads to the same address later. -/
theorem wroteTo (h : Grows d d') {a : Address} (ha : d.WroteTo a) : d'.WroteTo a := by
  obtain ⟨p, size, hevent, hp⟩ := ha
  exact ⟨p, size, h.events_subset hevent, h.partOf.canonical?_eq hp⟩

theorem trans (h : Grows d d') (h' : Grows d' d'') : Grows d d'' :=
  ⟨List.Subset.trans h.events_subset h'.events_subset,
    (h.partOf.mono fun _ => h'.wroteTo).trans h'.partOf⟩

end Grows

/-- To make the output lets the disk grow. -/
theorem grows_makeOutput (root : Path) (d : Disk) : Grows d (makeOutput root d).2 := by
  have hpart := FileSystem.partOf_makeDirs d.files root
  unfold makeOutput
  split
  · next h =>
    rw [h] at hpart
    exact ⟨List.Subset.refl _, hpart.mono fun _ => False.elim⟩
  · next h =>
    rw [h] at hpart
    exact ⟨List.Subset.refl _, hpart.mono fun _ => False.elim⟩

/-- After the clearing, a reset only adds. -/
theorem grows_reset (root : Path) (d : Disk) :
    ∃ events, Grows ⟨d.files.cleared root, events⟩ (reset root d).2 := by
  unfold reset FileSystem.cleared
  split
  · split
    · next h =>
      rw [h]
      exact ⟨d.events, .refl _⟩
    · next h =>
      rw [h]
      exact ⟨_, grows_makeOutput root _⟩
  · exact ⟨d.events, grows_makeOutput root d⟩

/-- A write lets the disk grow. -/
theorem grows_write (p : Path) (contents : String) (d : Disk) :
    Grows d (write p contents d).2 := by
  unfold write
  split
  · exact .refl d
  · next files h =>
    refine ⟨List.subset_append_left _ _, (FileSystem.partOf_writeBytes h).mono ?_⟩
    intro x hx
    exact ⟨p, contents.utf8ByteSize, List.mem_append_right _ (List.mem_singleton_self _), hx⟩

/-- Writes one after the other let the disk grow. -/
theorem grows_writeEach (root : Path) (artifacts : List Artifact) (d : Disk) :
    Grows d ((sink root).writeEach artifacts d).2 :=
  Sink.writeEach_keeps (fun x _ _ h => h.trans (grows_write x.path x.contents _)) (.refl d)

/-- **After the clearing, a run only adds**, whether it succeeds or not. -/
theorem partOf_writeAll (root : Path) (artifacts : List Artifact) (d : Disk) :
    PartOf ((sink root).writeAll artifacts d).2.WroteTo (d.files.cleared root)
      ((sink root).writeAll artifacts d).2.files := by
  obtain ⟨events, hreset⟩ := grows_reset root d
  have hrun : Grows ⟨d.files.cleared root, events⟩ ((sink root).writeAll artifacts d).2 :=
    Sink.writeAll_keeps hreset fun x _ _ h => h.trans (grows_write x.path x.contents _)
  exact hrun.partOf

end Disk

end JavaEntities
