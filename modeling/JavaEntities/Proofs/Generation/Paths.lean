import JavaEntities.Proofs.Configuration.Check
import JavaEntities.Proofs.Generation.Plan
import JavaEntities.Proofs.Loading.Outcome
import JavaEntities.Proofs.Sink.Memory

/-!
# Paths of class files

Every class file goes to an entry of the output directory: its path has the components of
the directory and one name more (`components_pathFor`), which tells the identifier and the
variant (`components_pathFor_eq_iff`). So the artifacts of a loaded set are apart from each
other (`SchemaSet.apart_artifacts`), and a memory sink that they are written to ends with all
of them.
-/

namespace JavaEntities

namespace Layout

variable {l : Layout}

/-- A class file is an entry of the output directory, however that is spelled. -/
theorem components_pathFor {identifier : String} (v : Variant)
    (hidentifier : '/' ∉ identifier.toList) (hextension : '/' ∉ l.extension.toList) :
    (l.pathFor identifier v).components
      = l.dir.components ++ [.name (v.fileStem identifier ++ "." ++ l.extension)] :=
  Path.components_join l.dir (isFileName_fileName v hidentifier hextension)

/-- The path of a class file tells its identifier and its variant. -/
theorem components_pathFor_eq_iff {i i' : String} {v v' : Variant} (hi : '/' ∉ i.toList)
    (hi' : '/' ∉ i'.toList) (hextension : '/' ∉ l.extension.toList) :
    (l.pathFor i v).components = (l.pathFor i' v').components ↔ i = i' ∧ v = v' := by
  unfold pathFor
  rw [Path.components_join_eq_iff l.dir (isFileName_fileName v hi hextension)
    (isFileName_fileName v' hi' hextension)]
  rw [RawText.ofString_inj]
  exact ⟨fileName_inj, fun h => by rw [h.1, h.2]⟩

end Layout

/-- The artifacts of a set go to paths that are apart. -/
theorem SchemaSet.apart_artifacts {set : SchemaSet} {l : Layout} (h : set.NamesFiles)
    (hextension : '/' ∉ l.extension.toList) : Apart (set.artifacts l) := by
  refine List.Pairwise.imp_of_mem ?_ (List.pairwise_map.mp (set.nodup_fileName_artifacts l))
  intro x y hx hy hne heq
  obtain ⟨hxname, hxpath⟩ := isFileName_of_mem_artifacts h hextension hx
  obtain ⟨hyname, hypath⟩ := isFileName_of_mem_artifacts h hextension hy
  rw [hxpath, hypath, Path.components_join_eq_iff l.dir hxname hyname] at heq
  exact hne heq

/-- **No class file takes the place of another, and none leaves the output directory.** -/
theorem Layout.pathFor_apart {l : Layout} {key : ExtensionKey}
    (hextension : checkExtension key l.extension = .ok ()) :
    (∀ i i' v v', IsIdentifier i → IsIdentifier i' →
        ((l.pathFor i v).components = (l.pathFor i' v').components ↔ i = i' ∧ v = v')) ∧
      (∀ i v, IsIdentifier i →
        IsFileName (v.fileStem i ++ "." ++ l.extension) ∧
          (l.pathFor i v).components
            = l.dir.components ++ [.name (v.fileStem i ++ "." ++ l.extension)]) ∧
      ∀ fs policy inputs set, (loadSchemas fs policy inputs).result = .ok set →
        ∀ m : MemorySink,
          let written := MemorySink.sink.writeAll (set.artifacts l) m
          written.1 = .ok (3 * set.size) ∧ written.2.files.size = 3 * set.size ∧
            ∀ x ∈ set.artifacts l, written.2.get? x.path = some x.contents := by
  have hplain := no_separator_of_checkExtension hextension
  refine ⟨?_, ?_, ?_⟩
  · intro i i' v v' hi hi'
    exact components_pathFor_eq_iff hi.no_separator hi'.no_separator hplain
  · intro i v hi
    exact ⟨isFileName_fileName v hi.no_separator hplain,
      components_pathFor v hi.no_separator hplain⟩
  · intro fs policy inputs set hset m
    have hapart := SchemaSet.apart_artifacts (namesFiles_of_loadSchemas hset) hplain
    have hlength := set.length_artifacts l
    refine ⟨?_, ?_, fun x hx => MemorySink.get?_writeAll hapart m hx⟩
    · rw [MemorySink.writeAll_eq, hlength]
    · rw [MemorySink.size_writeAll hapart, hlength]

/-- Two inputs, with identifiers of which one begins with the text that marks a variant. -/
def twoInputs : FileSystem where
  root := .dir [("in", .dir [("users.csv", .file ByteArray.empty),
    ("Appusers.csv", .file ByteArray.empty)])]

/-- A layout whose directory is spelled with steps that lead nowhere. -/
def dottedLayout : Layout := { dir := ⟨"./new/../out/"⟩ }

/-- Six files for the two inputs, among those of a sink that already had one. -/
theorem pathFor_apart_of_dotted_dir :
    (dottedLayout.pathFor "users" .app).components
        = [.here, .name "new", .up, .name "out", .name "AppusersEntity.java"] ∧
      (dottedLayout.pathFor "users" .app).components
        ≠ (dottedLayout.pathFor "Appusers" .relational).components ∧
      ∃ set,
        (loadSchemas twoInputs .skip [⟨"in/users.csv"⟩, ⟨"in/Appusers.csv"⟩]).result = .ok set ∧
        set.size = 2 ∧
        let before : MemorySink := { files := SortedMap.insert .empty ⟨"out/Old.java"⟩ "old" }
        (MemorySink.sink.writeAll (set.artifacts dottedLayout) before).2.files.size = 6 := by
  have hextension : checkExtension .output dottedLayout.extension = .ok () := by decide
  have husers : IsIdentifier "users" := ⟨⟨"in/users.csv"⟩, by decide⟩
  have happ : IsIdentifier "Appusers" := ⟨⟨"in/Appusers.csv"⟩, by decide⟩
  obtain ⟨hiff, hcomponents, hwritten⟩ := Layout.pathFor_apart hextension
  refine ⟨?_, ?_, ?_⟩
  · rw [(hcomponents "users" .app husers).2]
    decide
  · rw [ne_eq, hiff "users" "Appusers" .app .relational husers happ]
    decide
  · have hload : (loadSchemas twoInputs .skip [⟨"in/users.csv"⟩, ⟨"in/Appusers.csv"⟩]).result
        = .ok (SchemaSet.empty.absorb (readSchema twoInputs)
          [⟨"in/users.csv"⟩, ⟨"in/Appusers.csv"⟩]) := loadInto_result ..
    obtain ⟨-, hsize, -⟩ := hwritten _ _ _ _ hload
      { files := SortedMap.insert .empty ⟨"out/Old.java"⟩ "old" }
    have htwo : (SchemaSet.empty.absorb (readSchema twoInputs)
        [⟨"in/users.csv"⟩, ⟨"in/Appusers.csv"⟩]).size = 2 := by decide +kernel
    rw [htwo] at hsize
    exact ⟨_, hload, htwo, hsize⟩

end JavaEntities
