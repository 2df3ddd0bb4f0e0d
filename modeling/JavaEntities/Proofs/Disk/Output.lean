import JavaEntities.Proofs.Disk.Contents
import JavaEntities.Proofs.FileSystem.Entries

/-!
# The output directory of a disk

A reset that succeeds has removed what the path led to, and then made the directory
(`reset_eq_ok`). Where no step up of the path climbs out of a directory that had to be
made, the directory is empty (`locate_of_reset`). The writes of a run fill it, and put
one entry after the other where it has only files (`locate_of_writeEach`).
-/

namespace JavaEntities

open FileSystem (Address Node Fills putAll)

/-- Whether a path can be reset to an empty directory: it names something, and once it is
cleared, each `..` in it climbs out of a directory that is there. -/
structure FileSystem.Resettable (fs : FileSystem) (root : Path) : Prop where
  names : FileSystem.chain root ≠ []
  climbs : (fs.cleared root).ClimbsOut root

namespace Disk

variable {root : Path} {d d' : Disk}

/-! ## Resetting -/

/-- The output is made when its directory is. -/
theorem makeOutput_eq_ok (h : makeOutput root d = (.ok (), d')) :
    d.files.makeDirs root = (.ok (), d'.files) := by
  unfold makeOutput at h
  split at h
  · exact nomatch (Prod.mk.inj h).1
  · next files hmake =>
    rw [hmake, ← (Prod.mk.inj h).2]

/-- A reset that succeeds makes the directory at a path that it has made lead nowhere. -/
theorem reset_eq_ok (h : reset root d = (.ok (), d')) :
    (d.files.cleared root).exists? root = false ∧
      (d.files.cleared root).makeDirs root = (.ok (), d'.files) := by
  unfold FileSystem.cleared
  unfold reset at h
  by_cases hexists : d.files.exists? root = true
  · rw [if_pos hexists] at h ⊢
    split at h
    · exact nomatch (Prod.mk.inj h).1
    · next files hremove =>
      rw [hremove]
      exact ⟨FileSystem.not_exists_of_removeAll hremove, makeOutput_eq_ok h⟩
  · rw [if_neg hexists] at h ⊢
    exact ⟨by simpa using hexists, makeOutput_eq_ok h⟩

/-- **A reset that succeeds leaves an empty directory** at a path that can be reset. -/
theorem locate_of_reset (h : reset root d = (.ok (), d')) (hroot : d.files.Resettable root) :
    ∃ a, d'.files.locate root = .ok (a, .dir []) := by
  obtain ⟨hmissing, hmake⟩ := reset_eq_ok h
  exact FileSystem.locate_of_makeDirs hmake hmissing hroot.names hroot.climbs

/-! ## Writing -/

/-- When all writes succeed, the first does, and so do the others after it. -/
theorem writeEach_cons_eq_ok {σ : Type} {sink : Sink σ} {x : Artifact} {rest : List Artifact}
    {s s' : σ} (h : sink.writeEach (x :: rest) s = (.ok (), s')) :
    ∃ s₁, sink.write x.path x.contents s = (.ok (), s₁) ∧
      sink.writeEach rest s₁ = (.ok (), s') := by
  unfold Sink.writeEach at h
  split at h
  · exact nomatch (Prod.mk.inj h).1
  · next s₁ hwrite => exact ⟨s₁, hwrite, h⟩

/-- Writes that succeed only fill. -/
theorem fills_writeEach {artifacts : List Artifact}
    (h : (sink root).writeEach artifacts d = (.ok (), d')) : Fills d.files d'.files := by
  induction artifacts generalizing d with
  | nil =>
    rw [← (Prod.mk.inj h).2]
    exact .refl _
  | cons x rest ih =>
    obtain ⟨d₁, hwrite, hrest⟩ := writeEach_cons_eq_ok h
    exact (FileSystem.fills_writeBytes (write_eq_ok hwrite).1).trans (ih hrest)

/-- Writes that succeed to entries of a directory that has only files put these entries, one after
the other. -/
theorem locate_of_writeEach {name : Artifact → RawText} {artifacts : List Artifact} {a : Address}
    {entries : List (RawText × Node)} (h : (sink root).writeEach artifacts d = (.ok (), d'))
    (hroot : d.files.locate root = .ok (a, .dir entries))
    (hfiles : ∀ e ∈ entries, e.2.isFile = true) (hne : root.text ≠ "")
    (hpaths : ∀ x ∈ artifacts, IsFileName (name x) ∧ x.path = root.join (name x)) :
    d'.files.locate root = .ok (a, .dir (putAll entries
      (artifacts.map fun x => (name x, .file x.contents.toUTF8)))) := by
  induction artifacts generalizing d entries with
  | nil =>
    rw [← (Prod.mk.inj h).2]
    exact hroot
  | cons x rest ih =>
    obtain ⟨d₁, hwrite, hrest⟩ := writeEach_cons_eq_ok h
    obtain ⟨hname, hpath⟩ := hpaths x (List.mem_cons_self ..)
    have hbytes := (write_eq_ok hwrite).1
    rw [hpath] at hbytes
    have hstep := FileSystem.locate_of_writeBytes hbytes hroot hfiles hname hne
    exact ih hrest hstep (fun e he => FileSystem.isFile_of_mem_put hfiles rfl he)
      fun y hy => hpaths y (List.mem_cons_of_mem _ hy)

end Disk

end JavaEntities
