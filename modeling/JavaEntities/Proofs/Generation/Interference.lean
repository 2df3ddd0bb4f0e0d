import JavaEntities.Proofs.Generation.Order
import JavaEntities.Proofs.Generation.Output
import JavaEntities.Proofs.Loading.Reading
import JavaEntities.Proofs.SchemaSet.History

/-!
# One input and the entities of others

Inputs that give one identifier have no say in the artifacts of the others. The view that
others have of each stage is a filter: of the names that are listed, of the schemas that
are read from them, of the entries of the map that these are inserted into and of the
artifacts in the end. Each stage takes the view before it to the view after it, so two
directories that others see as the same give plans that they see as the same
(`plan_apart`).
-/

namespace JavaEntities

/-- Whether the artifacts with an identifier are absent from a list, or three in a row. -/
def AbsentOrThree (identifier : String) (artifacts : List Artifact) : Prop :=
  (∀ x ∈ artifacts, x.identifier ≠ identifier) ∨
    ∃ before own after, artifacts = before ++ own ++ after ∧ own.length = 3 ∧
      (∀ x ∈ own, x.identifier = identifier) ∧
      ∀ x ∈ before ++ after, x.identifier ≠ identifier

namespace SchemaSet

variable {set : SchemaSet} {l : Layout}

/-! ## Artifacts by identifier -/

/-- The artifacts of a kind of identifiers are those of the schemas with such identifiers. -/
theorem filter_artifacts (P : String → Bool) (set : SchemaSet) (l : Layout) :
    (set.artifacts l).filter (fun x => P x.identifier)
      = (set.schemas.filter fun s => P s.identifier).flatMap fun s => s.artifacts l := by
  unfold SchemaSet.artifacts
  induction set.schemas with
  | nil => rfl
  | cons s rest ih =>
    rw [List.flatMap_cons, List.filter_append, ih, List.filter_cons]
    by_cases hs : P s.identifier = true
    · have hall : (s.artifacts l).filter (fun x => P x.identifier) = s.artifacts l :=
        List.filter_eq_self.mpr fun x hx => by rwa [identifier_of_mem_artifacts hx]
      rw [if_pos hs, hall, List.flatMap_cons]
    · have hnone : (s.artifacts l).filter (fun x => P x.identifier) = [] :=
        List.filter_eq_nil_iff.mpr fun x hx => by rwa [identifier_of_mem_artifacts hx]
      rw [if_neg hs, hnone, List.nil_append]

/-- A set has one schema with an identifier, whose artifacts stand together, or none. -/
theorem absentOrThree_artifacts (set : SchemaSet) (identifier : String) (l : Layout) :
    AbsentOrThree identifier (set.artifacts l) := by
  have hothers : ∀ schemas : List Schema, (∀ s ∈ schemas, s.identifier ≠ identifier) →
      ∀ x ∈ schemas.flatMap fun s => s.artifacts l, x.identifier ≠ identifier := by
    intro schemas hschemas x hx
    obtain ⟨s, hs, hx⟩ := List.mem_flatMap.mp hx
    rw [identifier_of_mem_artifacts hx]
    exact hschemas s hs
  by_cases hmem : ∃ s ∈ set.schemas, s.identifier = identifier
  · obtain ⟨s, hs, rfl⟩ := hmem
    obtain ⟨front, back, hsplit⟩ := List.append_of_mem hs
    have hdistinct := set.nodup_identifiers
    rw [hsplit, List.map_append, List.map_cons, List.nodup_middle, List.nodup_cons,
      ← List.map_append] at hdistinct
    have hapart : ∀ s' ∈ front ++ back, s'.identifier ≠ s.identifier := fun s' hs' heq =>
      hdistinct.1 (heq ▸ List.mem_map_of_mem hs')
    refine .inr ⟨front.flatMap fun s => s.artifacts l, s.artifacts l,
      back.flatMap fun s => s.artifacts l, ?_, rfl, fun x hx => identifier_of_mem_artifacts hx, ?_⟩
    · rw [artifacts, hsplit, List.flatMap_append, List.flatMap_cons, List.append_assoc]
    · rw [← List.flatMap_append]
      exact hothers (front ++ back) hapart
  · left
    exact hothers set.schemas fun s hs heq => hmem ⟨s, hs, heq⟩

/-! ## Schemas by identifier -/

/-- The schemas of a kind of identifiers stand under keys of that kind. -/
theorem filter_schemas (P : String → Bool) (set : SchemaSet) :
    set.schemas.filter (fun s => P s.identifier) = (set.byIdentifier.filterKeys P).values := by
  unfold schemas SortedMap.values
  rw [List.filter_map]
  refine congrArg (List.map Prod.snd) (List.filter_congr fun e he => ?_)
  rw [Function.comp_apply, set.keyed e he]

/-- Of what inputs come to, the schemas of a kind of identifiers are what the readable schemas of
that kind come to alone. -/
theorem filter_schemas_absorb (P : String → Bool) (read : Path → Except Error Reading)
    (inputs : List Path) :
    (SchemaSet.empty.absorb read inputs).schemas.filter (fun s => P s.identifier)
      = (SortedMap.insertAll .empty (((readable read inputs).filter fun s => P s.identifier).map
          fun s => (s.identifier, s))).values := by
  rw [filter_schemas, byIdentifier_absorb, SortedMap.filterKeys_insertAll, List.filter_map]
  rfl

end SchemaSet

/-! ## What is read -/

/-- The schemas with other identifiers are read from inputs whose paths give other ones. -/
theorem filter_readable (fs : FileSystem) (identifier : String) (inputs : List Path) :
    (readable (readSchema fs) inputs).filter (fun s => s.identifier ≠ identifier)
      = readable (readSchema fs) (inputs.filter fun p => identifierOf p ≠ some identifier) := by
  induction inputs with
  | nil => rfl
  | cons p rest ih =>
    rw [List.filter_cons]
    cases hp : readSchema fs p with
    | ok r =>
      have hidentifier := identifierOf_of_readSchema hp
      rw [readable_cons_of_ok hp, List.filter_cons, ih, hidentifier]
      by_cases hr : r.schema.identifier = identifier
      · rw [if_neg (by simpa using hr), if_neg (by simpa using hr)]
      · rw [if_pos (by simpa using hr), if_pos (by simpa using hr), readable_cons_of_ok hp]
    | error e =>
      rw [readable_cons_of_error hp, ih]
      split
      · rw [readable_cons_of_error hp]
      · rfl

theorem readable_congr {read read' : Path → Except Error Reading} {inputs : List Path}
    (h : ∀ p ∈ inputs, read' p = read p) : readable read' inputs = readable read inputs :=
  List.filterMap_congr fun p hp => by rw [h p hp]

namespace Configuration

/-- Whether two states of the directory of the inputs have the same inputs, with the same bytes, but
for those that give one identifier. -/
structure SameInputsBut (identifier : String) (c : Configuration) (fs fs' : FileSystem)
    (names names' : List RawText) : Prop where
  isInput_iff : ∀ n, identifierOf (c.inputDir.join n) ≠ some identifier →
    (IsInput fs' c.inputDir c.inputExtension names' n ↔
      IsInput fs c.inputDir c.inputExtension names n)
  bytes?_eq : ∀ n, identifierOf (c.inputDir.join n) ≠ some identifier →
    IsInput fs c.inputDir c.inputExtension names n →
      fs'.bytes? (c.inputDir.join n) = fs.bytes? (c.inputDir.join n)

variable {c : Configuration} {fs fs' : FileSystem} {names names' : List RawText}
  {identifier : String}

/-- The schemas with other identifiers, from the names of the inputs that give these. -/
theorem filter_schemas_of_loadInputs (identifier : String) (hlist : fs.list c.inputDir = .ok names)
    (hnames : ∀ n ∈ names, IsFileName n) {loaded : Loaded}
    (h : (c.loadInputs fs).result = .ok loaded) :
    loaded.schemas.schemas.filter (fun s => s.identifier ≠ identifier)
      = (SortedMap.insertAll .empty ((readable (readSchema fs)
          (((inputNames fs c.inputDir c.inputExtension names).filter fun n =>
            identifierOf (c.inputDir.join n) ≠ some identifier).map c.inputDir.join)).map
          fun s => (s.identifier, s))).values := by
  rw [schemas_of_loadInputs hlist hnames h,
    SchemaSet.filter_schemas_absorb (fun i => i ≠ identifier), filter_readable, List.filter_map]
  rfl

/-- Two states that others see as the same give schemas that others see as the same. -/
theorem filter_schemas_eq (hlist : fs.list c.inputDir = .ok names)
    (hnames : ∀ n ∈ names, IsFileName n) (hdistinct : names.Nodup)
    (hlist' : fs'.list c.inputDir = .ok names') (hnames' : ∀ n ∈ names', IsFileName n)
    (hdistinct' : names'.Nodup) (hsame : SameInputsBut identifier c fs fs' names names')
    {loaded loaded' : Loaded} (h : (c.loadInputs fs).result = .ok loaded)
    (h' : (c.loadInputs fs').result = .ok loaded') :
    loaded'.schemas.schemas.filter (fun s => s.identifier ≠ identifier)
      = loaded.schemas.schemas.filter fun s => s.identifier ≠ identifier := by
  have hinputs : (inputNames fs' c.inputDir c.inputExtension names').filter
        (fun n => identifierOf (c.inputDir.join n) ≠ some identifier)
      = (inputNames fs c.inputDir c.inputExtension names).filter
        fun n => identifierOf (c.inputDir.join n) ≠ some identifier :=
    filter_inputNames_eq hdistinct hdistinct' fun n hn => hsame.isInput_iff n (of_decide_eq_true hn)
  rw [filter_schemas_of_loadInputs identifier hlist hnames h,
    filter_schemas_of_loadInputs identifier hlist' hnames' h', hinputs]
  congr 3
  refine readable_congr fun p hp => ?_
  obtain ⟨n, hn, rfl⟩ := List.mem_map.mp hp
  obtain ⟨hn, hother⟩ := List.mem_filter.mp hn
  have hinput := mem_inputNames.mp hn
  obtain ⟨bytes, hbytes⟩ := FileSystem.isFile_iff.mp hinput.isFile
  exact readSchema_congr hbytes
    ((hsame.bytes?_eq n (of_decide_eq_true hother) hinput).trans hbytes)

/-- Under `skip` there is a plan whenever the directory of the inputs can be listed. -/
theorem plan_of_skip (hskip : c.onReadError = .skip) (hlist : fs.list c.inputDir = .ok names) :
    ∃ artifacts, (c.plan fs).result = .ok artifacts := by
  cases hload : (c.loadInputs fs).result with
  | ok loaded => exact ⟨_, plan_of_loadInputs hload⟩
  | error e =>
    have hinputs : discover fs c.inputDir c.inputExtension
        = .ok (inputsAmong fs c.inputDir c.inputExtension names) := by
      rw [discover, hlist]
    rw [loadInputs_result hinputs, map_eq_error_iff, loadSchemas, load_eq_error_iff, hskip] at hload
    exact absurd hload.1 (by decide)

/-- **One input affects only its own entity.** Two states of the directory of the inputs have the
same inputs, with the same bytes, but for those that give one identifier. Under `skip` there is a
plan in both. And if there is one in both, the artifacts with other identifiers are the same in the
same order, and those with the identifier are absent from either plan, or three in a row. -/
theorem plan_apart {c : Configuration} {fs fs' : FileSystem} {names names' : List RawText}
    {identifier : String} (hlist : fs.list c.inputDir = .ok names)
    (hnames : ∀ n ∈ names, IsFileName n) (hdistinct : names.Nodup)
    (hlist' : fs'.list c.inputDir = .ok names') (hnames' : ∀ n ∈ names', IsFileName n)
    (hdistinct' : names'.Nodup) (hsame : SameInputsBut identifier c fs fs' names names') :
    (c.onReadError = .skip → (∃ artifacts, (c.plan fs).result = .ok artifacts) ∧
        ∃ artifacts, (c.plan fs').result = .ok artifacts) ∧
      ∀ artifacts artifacts', (c.plan fs).result = .ok artifacts →
        (c.plan fs').result = .ok artifacts' →
        artifacts'.filter (fun x => x.identifier ≠ identifier)
            = artifacts.filter (fun x => x.identifier ≠ identifier) ∧
          AbsentOrThree identifier artifacts ∧ AbsentOrThree identifier artifacts' := by
  refine ⟨fun hskip => ⟨plan_of_skip hskip hlist, plan_of_skip hskip hlist'⟩, ?_⟩
  intro artifacts artifacts' hplan hplan'
  obtain ⟨loaded, hload, rfl⟩ := plan_eq_ok hplan
  obtain ⟨loaded', hload', rfl⟩ := plan_eq_ok hplan'
  refine ⟨?_, loaded.schemas.absentOrThree_artifacts identifier c.layout,
    loaded'.schemas.absentOrThree_artifacts identifier c.layout⟩
  have hschemas := filter_schemas_eq hlist hnames hdistinct hlist' hnames' hdistinct' hsame hload
    hload'
  rw [SchemaSet.filter_artifacts (fun i => i ≠ identifier),
    SchemaSet.filter_artifacts (fun i => i ≠ identifier), hschemas]

/-- Two tables. -/
def twoTables : FileSystem :=
  withInputs [("users.csv", .file "id,,Numeric\n".toUTF8), ("orders.csv", .file ByteArray.empty)]

/-- The same with the first table in another file, which is not text. -/
def brokenTable : FileSystem :=
  withInputs [("orders.csv", .file ByteArray.empty), ("users.v2.csv", .file ⟨#[0xFF]⟩)]

/-- The other table has the same plan, whatever becomes of the first. -/
theorem plan_apart_of_broken :
    SameInputsBut "users" skipping twoTables brokenTable ["users.csv", "orders.csv"]
        ["orders.csv", "users.v2.csv"] ∧
      ∃ artifacts artifacts', (skipping.plan twoTables).result = .ok artifacts ∧
        (skipping.plan brokenTable).result = .ok artifacts' ∧
        artifacts'.filter (fun x => x.identifier ≠ "users")
          = artifacts.filter (fun x => x.identifier ≠ "users") ∧
        AbsentOrThree "users" artifacts ∧ AbsentOrThree "users" artifacts' := by
  have hlist : twoTables.list skipping.inputDir = .ok ["users.csv", "orders.csv"] := rfl
  have hlist' : brokenTable.list skipping.inputDir = .ok ["orders.csv", "users.v2.csv"] := rfl
  -- The only input of either state whose path does not give the identifier.
  have horders : ∀ n, identifierOf (skipping.inputDir.join n) ≠ some "users" →
      n ∈ (["users.csv", "orders.csv"] : List RawText) ∨
        n ∈ (["orders.csv", "users.v2.csv"] : List RawText) → n = "orders.csv" := by
    intro n hother hn
    have hcases : n = "users.csv" ∨ n = "orders.csv" ∨ n = "users.v2.csv" := by
      simpa [or_comm, or_assoc, or_left_comm] using hn
    rcases hcases with rfl | rfl | rfl
    · exact absurd (by decide) hother
    · rfl
    · exact absurd (by decide) hother
  have hsame : SameInputsBut "users" skipping twoTables brokenTable ["users.csv", "orders.csv"]
      ["orders.csv", "users.v2.csv"] := by
    refine ⟨fun n hother => ⟨fun h => ?_, fun h => ?_⟩, fun n hother h => ?_⟩
    · rw [horders n hother (.inr h.listed)]
      exact ⟨by decide, by decide, by decide⟩
    · rw [horders n hother (.inl h.listed)]
      exact ⟨by decide, by decide, by decide⟩
    · rw [horders n hother (.inl h.listed)]
      rfl
  obtain ⟨hplans, hapart⟩ := plan_apart hlist (by decide) (by decide) hlist' (by decide) (by decide)
    hsame
  obtain ⟨⟨artifacts, hplan⟩, artifacts', hplan'⟩ := hplans rfl
  exact ⟨hsame, artifacts, artifacts', hplan, hplan', hapart artifacts artifacts' hplan hplan'⟩

end Configuration

end JavaEntities
