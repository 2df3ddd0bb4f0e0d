import JavaEntities.Proofs.Path.Order
import JavaEntities.Proofs.SortedMap.Lookup
import JavaEntities.Sink

/-!
# What a memory sink holds

Whatever a memory sink held before, once artifacts were written to it it holds the files of
these alone, inserted in order (`writeAll_eq`). Artifacts whose paths differ are all there:
one file for each (`size_writeAll`), with its contents under its path (`get?_writeAll`).
-/

namespace JavaEntities

/-- Whether no two artifacts have the same path, however it is spelled. -/
def Apart (artifacts : List Artifact) : Prop :=
  artifacts.Pairwise fun x y => x.path.components ≠ y.path.components

namespace MemorySink

/-- The files of artifacts under their paths. -/
def filesOf (artifacts : List Artifact) : List (Path × String) :=
  artifacts.map fun x => (x.path, x.contents)

/-- Writes to memory insert the files and report each path. -/
theorem writeEach_eq (artifacts : List Artifact) (m : MemorySink) :
    sink.writeEach artifacts m
      = (.ok (), ⟨m.files.insertAll (filesOf artifacts),
          m.events ++ artifacts.map fun x => .write x.path⟩) := by
  induction artifacts generalizing m with
  | nil =>
    rw [List.map_nil, List.append_nil]
    rfl
  | cons x rest ih =>
    show sink.writeEach rest (m.write x.path x.contents) = _
    rw [ih, List.map_cons, List.append_cons]
    rfl

/-- **A memory sink holds what was written to it last**, and nothing from before. -/
theorem writeAll_eq (artifacts : List Artifact) (m : MemorySink) :
    sink.writeAll artifacts m
      = (.ok artifacts.length, ⟨SortedMap.insertAll .empty (filesOf artifacts),
          m.events ++ .reset :: artifacts.map fun x => .write x.path⟩) := by
  have hreset : sink.reset m = (.ok (), m.reset) := rfl
  simp only [Sink.writeAll, hreset, writeEach_eq, reset]
  rw [List.append_assoc]
  rfl

/-- Writing everything to memory leaves the files of the artifacts and no others. -/
theorem files_writeAll (artifacts : List Artifact) (m : MemorySink) :
    (sink.writeAll artifacts m).2.files = SortedMap.insertAll .empty (filesOf artifacts) := by
  rw [writeAll_eq]

variable {artifacts : List Artifact}

theorem pairwise_filesOf (h : Apart artifacts) :
    (filesOf artifacts).Pairwise fun e e' => compare e.1 e'.1 ≠ .eq := by
  refine List.pairwise_map.mpr (h.imp ?_)
  intro x y hne heq
  exact hne (Path.compare_eq_iff.mp heq)

/-- Artifacts that are apart leave one file each. -/
theorem size_writeAll (h : Apart artifacts) (m : MemorySink) :
    (sink.writeAll artifacts m).2.files.size = artifacts.length := by
  have hempty : (SortedMap.empty : SortedMap Path String).size = 0 := rfl
  have hlength : (filesOf artifacts).length = artifacts.length := List.length_map ..
  have hnew : ∀ e ∈ filesOf artifacts, (SortedMap.empty : SortedMap Path String).get? e.1 = none :=
    fun _ _ => rfl
  have hsize := SortedMap.size_insertAll (pairwise_filesOf h) hnew
  rw [hempty, hlength, Nat.zero_add] at hsize
  rw [files_writeAll]
  exact hsize

/-- Artifacts that are apart are found under their paths. -/
theorem get?_writeAll (h : Apart artifacts) (m : MemorySink) {x : Artifact} (hx : x ∈ artifacts) :
    (sink.writeAll artifacts m).2.get? x.path = some x.contents := by
  have hentry : (x.path, x.contents) ∈ filesOf artifacts := List.mem_map.mpr ⟨x, hx, rfl⟩
  have hfound := SortedMap.get?_insertAll_of_mem (m := .empty) (pairwise_filesOf h) hentry
  unfold get?
  rw [files_writeAll]
  exact hfound

end MemorySink

end JavaEntities
