import Mathlib.Data.List.Nodup
import JavaEntities.Generation
import JavaEntities.Proofs.Layout.Names
import JavaEntities.Proofs.Loading.Reading
import JavaEntities.Proofs.SortedMap.Order

/-!
# What is planned

A set that was loaded keeps every schema under its own identifier, and each identifier
once. So its artifacts, three for each schema, have distinct names, and each goes to the
entry of the output directory with its name.
-/

namespace JavaEntities

/-! ## Loading, step by step -/

/-- What holds of a set, and goes on holding when an input is passed over or its schema
inserted, holds of the set that is loaded. -/
theorem loadInto_invariant {P : SchemaSet → Prop} {read : Path → Except Error Reading}
    {policy : ReadErrorPolicy} {inputs : List Path} {set loaded : SchemaSet}
    (hskip : ∀ set p, P set → P (set.skip p))
    (hinsert : ∀ set p r, read p = .ok r → P set → P (set.insert r.schema))
    (h : (loadInto read policy inputs set).result = .ok loaded) (hset : P set) : P loaded := by
  induction inputs generalizing set with
  | nil =>
    rw [← Except.ok.inj h]
    exact hset
  | cons p rest ih =>
    unfold loadInto at h
    split at h
    · next r hr => exact ih h (hinsert set p r hr hset)
    · split at h
      · exact nomatch h
      · exact ih h (hskip set p hset)

namespace SchemaSet

/-- Whether the identifiers of a set can be parts of the names of files. -/
def NamesFiles (set : SchemaSet) : Prop :=
  ∀ s ∈ set.schemas, '/' ∉ s.identifier.toList

/-- An insertion adds its own schema at most. -/
theorem NamesFiles.insert {set : SchemaSet} {s : Schema} (h : set.NamesFiles)
    (hs : '/' ∉ s.identifier.toList) : (set.insert s).NamesFiles := by
  intro t ht
  obtain ⟨e, he, rfl⟩ := List.mem_map.mp ht
  rcases SortedMap.mem_insertEntry he with ⟨-, hvalue⟩ | he
  · rw [hvalue]
    exact hs
  · exact h e.2 (List.mem_map_of_mem he)

/-- No two schemas of a set have one identifier. -/
theorem nodup_identifiers (set : SchemaSet) :
    (set.schemas.map Schema.identifier).Nodup := by
  have hkeys : set.schemas.map Schema.identifier = set.byIdentifier.keys := by
    unfold SchemaSet.schemas SortedMap.values SortedMap.keys
    rw [List.map_map]
    exact List.map_congr_left set.keyed
  rw [hkeys]
  exact SortedMap.nodup_keys set.byIdentifier

end SchemaSet

/-- The identifiers of a set that was loaded come from the names of files. -/
theorem namesFiles_of_loadSchemas {fs : FileSystem} {policy : ReadErrorPolicy}
    {inputs : List Path} {set : SchemaSet} (h : (loadSchemas fs policy inputs).result = .ok set) :
    set.NamesFiles := by
  have hskip : ∀ (set : SchemaSet) (p : Path), set.NamesFiles → (set.skip p).NamesFiles :=
    fun _ _ hset => hset
  have hempty : SchemaSet.empty.NamesFiles := fun _ hs => absurd hs List.not_mem_nil
  refine loadInto_invariant hskip ?_ h hempty
  intro set p r hr hset
  exact hset.insert (IsIdentifier.no_separator ⟨p, identifierOf_of_readSchema hr⟩)

/-! ## Artifacts -/

/-- The name of the file of an artifact. -/
def Artifact.fileName (l : Layout) (x : Artifact) : RawText :=
  l.fileName x.identifier x.variant

namespace SchemaSet

variable {set : SchemaSet} {l : Layout}

/-- An artifact is that of a schema in a variant. -/
theorem mem_artifacts {x : Artifact} (hx : x ∈ set.artifacts l) :
    ∃ s ∈ set.schemas, ∃ v, x = (s.entity l v).artifact := by
  obtain ⟨s, hs, hx⟩ := List.mem_flatMap.mp hx
  obtain ⟨e, he, rfl⟩ := List.mem_map.mp hx
  obtain ⟨v, -, rfl⟩ := List.mem_map.mp he
  exact ⟨s, hs, v, rfl⟩

/-- There are three artifacts for each schema. -/
theorem length_artifacts (set : SchemaSet) (l : Layout) :
    (set.artifacts l).length = 3 * set.size := by
  have hthree : ∀ schemas : List Schema,
      (schemas.flatMap fun s => s.artifacts l).length = 3 * schemas.length := by
    intro schemas
    induction schemas with
    | nil => rfl
    | cons s rest ih =>
      rw [List.flatMap_cons, List.length_append, ih, List.length_cons]
      show 3 + 3 * rest.length = _
      omega
  have hsize : set.schemas.length = set.size := List.length_map ..
  rw [← hsize]
  exact hthree set.schemas

/-- The names of artifacts are those for each identifier in each variant. -/
theorem fileName_artifacts (set : SchemaSet) (l : Layout) :
    (set.artifacts l).map (Artifact.fileName l)
      = (set.schemas.map Schema.identifier).flatMap fun i =>
        Variant.all.map fun v => (l.fileName i v : RawText) := by
  unfold SchemaSet.artifacts
  rw [List.map_flatMap, List.flatMap_map]
  rfl

/-- **No two artifacts of a set have the same file name.** -/
theorem nodup_fileName_artifacts (set : SchemaSet) (l : Layout) :
    ((set.artifacts l).map (Artifact.fileName l)).Nodup := by
  rw [fileName_artifacts, List.nodup_flatMap]
  constructor
  · intro i _
    refine List.Nodup.map ?_ (by decide)
    intro v v' hv
    exact (Layout.fileName_inj (RawText.ofString_inj.mp hv)).2
  · -- A name in the files of two schemas would give both the same identifier.
    refine set.nodup_identifiers.imp ?_
    intro i i' hne n hn hn'
    obtain ⟨v, -, hv⟩ := List.mem_map.mp hn
    obtain ⟨v', -, hv'⟩ := List.mem_map.mp hn'
    exact hne (Layout.fileName_inj (RawText.ofString_inj.mp (hv.trans hv'.symm))).1

/-- An artifact goes to the entry of the output with its name. -/
theorem isFileName_of_mem_artifacts {x : Artifact} (h : set.NamesFiles)
    (hextension : '/' ∉ l.extension.toList) (hx : x ∈ set.artifacts l) :
    IsFileName (x.fileName l) ∧ x.path = l.dir.join (x.fileName l) := by
  obtain ⟨s, hs, v, rfl⟩ := mem_artifacts hx
  exact ⟨Layout.isFileName_fileName v (h s hs) hextension, rfl⟩

end SchemaSet

end JavaEntities
