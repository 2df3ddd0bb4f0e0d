import JavaEntities.Proofs.Discovery.Order
import JavaEntities.Proofs.Generation.Loading
import JavaEntities.Proofs.List.First

/-!
# What is loaded, whatever the order of listing

The inputs of a configuration are sorted before they are loaded, so the order in which the
operating system lists the directory has no say in what is loaded (`loadInputs_of_list`).
Of several inputs with one identifier the last in the order of bytes is kept, inputs are
passed over in that order, and the error under `abort` is that of the first.
-/

namespace JavaEntities

open Text

namespace Configuration

variable {c : Configuration} {fs fs' : FileSystem} {names : List RawText}

/-! ## Another order of listing -/

/-- The order of listing has no say in what is read. -/
theorem readSchema_of_relisted (h : fs.Relisted fs') : readSchema fs' = readSchema fs := by
  funext p
  unfold readSchema
  rw [h.readText_eq]

/-- The order of listing has no say in what is discovered. -/
theorem discover_of_relisted {dir : Path} (extension : String) (h : fs.Relisted fs')
    (hnames : ∀ names, fs.list dir = .ok names → ∀ n ∈ names, IsFileName n) :
    discover fs' dir extension = discover fs dir extension := by
  unfold discover
  rcases h.list dir with ⟨cause, herror, herror'⟩ | ⟨names, names', hlist, hlist', hperm⟩
  · rw [herror, herror']
  · have hplain := hnames names hlist
    have hplain' : ∀ n ∈ names', IsFileName n := fun n hn => hplain n (hperm.mem_iff.mpr hn)
    rw [hlist, hlist']
    dsimp only
    rw [inputsAmong_eq hplain, inputsAmong_eq hplain', inputNames_eq_of_perm h hperm]

/-- The order of listing has no say in what is loaded. -/
theorem loadInputs_of_relisted (h : fs.Relisted fs')
    (hnames : ∀ names, fs.list c.inputDir = .ok names → ∀ n ∈ names, IsFileName n) :
    c.loadInputs fs' = c.loadInputs fs := by
  unfold loadInputs loadSchemas
  rw [discover_of_relisted c.inputExtension h hnames, readSchema_of_relisted h]

/-! ## The same files -/

/-- What is read depends on the bytes of the file alone. -/
theorem readSchema_congr {p : Path} {bytes : ByteArray} (h : fs.bytes? p = some bytes)
    (h' : fs'.bytes? p = some bytes) : readSchema fs' p = readSchema fs p := by
  unfold readSchema
  rw [FileSystem.readText_of_bytes? h, FileSystem.readText_of_bytes? h']

/-! ## Which inputs decide -/

section Listed

variable (hlist : fs.list c.inputDir = .ok names) (hnames : ∀ n ∈ names, IsFileName n)
  (hdistinct : names.Nodup)

include hlist hnames

/-- The inputs come in the order of their names. -/
theorem discover_of_list :
    discover fs c.inputDir c.inputExtension
      = .ok ((inputNames fs c.inputDir c.inputExtension names).map c.inputDir.join) := by
  rw [discover, hlist]
  dsimp only
  rw [inputsAmong_eq hnames]

/-- **What is loaded depends on the files under names of inputs alone.** -/
theorem loadInputs_congr {names' : List RawText} (hdistinct : names.Nodup)
    (hlist' : fs'.list c.inputDir = .ok names') (hnames' : ∀ n ∈ names', IsFileName n)
    (hdistinct' : names'.Nodup)
    (h : ∀ n, IsFileName n → isInputName c.inputExtension n = true →
      fs'.bytes? (c.inputDir.join n) = fs.bytes? (c.inputDir.join n)) :
    c.loadInputs fs' = c.loadInputs fs := by
  have hinputs : inputNames fs' c.inputDir c.inputExtension names'
      = inputNames fs c.inputDir c.inputExtension names := by
    have hall := filter_inputNames_eq (P := fun _ => true) hdistinct hdistinct' fun n _ =>
      isInput_congr hlist hnames hlist' hnames' (h n)
    rwa [List.filter_true, List.filter_true] at hall
  have hread : ∀ p ∈ (inputNames fs c.inputDir c.inputExtension names).map c.inputDir.join,
      readSchema fs' p = readSchema fs p := by
    intro p hp
    obtain ⟨n, hn, rfl⟩ := List.mem_map.mp hp
    have hinput := mem_inputNames.mp hn
    have hname := hnames n hinput.listed
    obtain ⟨hform, bytes, hbytes⟩ := (isInput_iff hlist hname).mp hinput
    exact readSchema_congr hbytes ((h n hname hform).trans hbytes)
  unfold loadInputs loadSchemas load
  rw [discover_of_list hlist hnames, discover_of_list hlist' hnames', hinputs]
  dsimp only
  rw [loadInto_congr hread]

/-- The schemas that are loaded are those of the inputs in the order of their names. -/
theorem schemas_of_loadInputs {loaded : Loaded} (h : (c.loadInputs fs).result = .ok loaded) :
    loaded.schemas = SchemaSet.empty.absorb (readSchema fs)
      ((inputNames fs c.inputDir c.inputExtension names).map c.inputDir.join) := by
  obtain ⟨inputs, hinputs, hset, -⟩ := loadInputs_eq_ok h
  rw [discover_of_list hlist hnames] at hinputs
  rw [Except.ok.inj hinputs]
  exact load_eq_ok hset

include hdistinct

/-- The greatest name with an identifier gives the schema under it. -/
theorem get?_of_loadInputs {loaded : Loaded} (h : (c.loadInputs fs).result = .ok loaded)
    {identifier : String} {s : Schema} :
    loaded.schemas.get? identifier = some s ↔
      ∃ n, IsInput fs c.inputDir c.inputExtension names n ∧
        ReadsAs (readSchema fs) identifier (c.inputDir.join n) s ∧
        ∀ m, IsInput fs c.inputDir c.inputExtension names m →
          (∃ s', ReadsAs (readSchema fs) identifier (c.inputDir.join m) s') →
          m.toList ≤ n.toList := by
  have hincreasing := increasing_inputNames fs c.inputDir c.inputExtension hdistinct
  have hlast := exists_last_iff (f := c.inputDir.join)
    (P := fun p => ReadsAs (readSchema fs) identifier p s)
    (Q := fun p => ∃ s', ReadsAs (readSchema fs) identifier p s') hincreasing
    fun n m => List.lt_asymm
  simp only [mem_inputNames, not_exists] at hlast
  rw [schemas_of_loadInputs hlist hnames h, get?_absorb_eq_some_iff]
  exact hlast

/-- What is passed over is listed in the order of bytes. -/
theorem skipped_of_loadInputs {loaded : Loaded} (h : (c.loadInputs fs).result = .ok loaded) :
    ∃ ns : List RawText, loaded.schemas.skipped = ns.map c.inputDir.join ∧
      (ns.Pairwise fun n m => n.toList < m.toList) ∧
      ∀ n, n ∈ ns ↔ IsInput fs c.inputDir c.inputExtension names n ∧
        ∃ e, readSchema fs (c.inputDir.join n) = .error e := by
  have hincreasing := increasing_inputNames fs c.inputDir c.inputExtension hdistinct
  refine ⟨(inputNames fs c.inputDir c.inputExtension names).filter
    fun n => !(readSchema fs (c.inputDir.join n)).isOk, ?_, hincreasing.filter _, ?_⟩
  · rw [schemas_of_loadInputs hlist hnames h]
    show [] ++ unreadable _ _ = _
    rw [List.nil_append, unreadable, List.filter_map]
    rfl
  · intro n
    rw [List.mem_filter, mem_inputNames]
    cases readSchema fs (c.inputDir.join n) with
    | ok r => simp [Except.isOk, Except.toBool]
    | error e => simp [Except.isOk, Except.toBool]

/-- The least name that cannot be read gives the error, under `abort`. -/
theorem loadInputs_eq_error_iff {e : Error} :
    (c.loadInputs fs).result = .error e ↔
      c.onReadError = .abort ∧
        ∃ n, IsInput fs c.inputDir c.inputExtension names n ∧
          readSchema fs (c.inputDir.join n) = .error e ∧
          ∀ m, IsInput fs c.inputDir c.inputExtension names m →
            (∃ e', readSchema fs (c.inputDir.join m) = .error e') → n.toList ≤ m.toList := by
  have hincreasing := increasing_inputNames fs c.inputDir c.inputExtension hdistinct
  have hfirst := exists_first_iff (f := c.inputDir.join)
    (P := fun p => readSchema fs p = .error e)
    (Q := fun p => ∃ e', readSchema fs p = .error e') hincreasing
    fun n m => List.lt_asymm
  simp only [mem_inputNames] at hfirst
  rw [loadInputs_result (discover_of_list hlist hnames), map_eq_error_iff, loadSchemas,
    load_eq_error_iff, firstError_eq_some_iff]
  exact and_congr_right fun _ => hfirst

end Listed

/-- **The order of listing has no say in what is loaded**, and the order of names has. For a
directory with distinct names that can stand in a path, loading gives the same in every other
order of listing. The schema under an identifier is that of the greatest name, in bytes, among the
inputs that can be read and have the identifier, and what is passed over is in the order of bytes.
There is an error only under `abort`, that of the least name among the inputs that cannot be
read. -/
theorem loadInputs_of_list {c : Configuration} {fs : FileSystem} {names : List RawText}
    (hlist : fs.list c.inputDir = .ok names) (hnames : ∀ n ∈ names, IsFileName n)
    (hdistinct : names.Nodup) :
    (∀ fs', fs.Relisted fs' → c.loadInputs fs' = c.loadInputs fs) ∧
      (∀ loaded, (c.loadInputs fs).result = .ok loaded →
        (∀ identifier s, loaded.schemas.get? identifier = some s ↔
          ∃ n, IsInput fs c.inputDir c.inputExtension names n ∧
            ReadsAs (readSchema fs) identifier (c.inputDir.join n) s ∧
            ∀ m, IsInput fs c.inputDir c.inputExtension names m →
              (∃ s', ReadsAs (readSchema fs) identifier (c.inputDir.join m) s') →
              m.toList ≤ n.toList) ∧
        ∃ ns : List RawText, loaded.schemas.skipped = ns.map c.inputDir.join ∧
          (ns.Pairwise fun n m => n.toList < m.toList) ∧
          ∀ n, n ∈ ns ↔ IsInput fs c.inputDir c.inputExtension names n ∧
            ∃ e, readSchema fs (c.inputDir.join n) = .error e) ∧
      ∀ e, (c.loadInputs fs).result = .error e ↔
        c.onReadError = .abort ∧
          ∃ n, IsInput fs c.inputDir c.inputExtension names n ∧
            readSchema fs (c.inputDir.join n) = .error e ∧
            ∀ m, IsInput fs c.inputDir c.inputExtension names m →
              (∃ e', readSchema fs (c.inputDir.join m) = .error e') → n.toList ≤ m.toList := by
  refine ⟨?_, ?_, ?_⟩
  · intro fs' h
    refine loadInputs_of_relisted h ?_
    intro names' hlist'
    rw [← Except.ok.inj (hlist.symm.trans hlist')]
    exact hnames
  · intro loaded h
    exact ⟨fun identifier s => get?_of_loadInputs hlist hnames hdistinct h,
      skipped_of_loadInputs hlist hnames hdistinct h⟩
  · intro e
    exact loadInputs_eq_error_iff hlist hnames hdistinct

/-- Three versions of one table, listed as they may come. -/
def versions : List (RawText × FileSystem.Node) :=
  [("users.v2.csv", .file "id,,Numeric\n".toUTF8), ("users.csv", .file ByteArray.empty),
    ("users.v10.csv", .file ByteArray.empty)]

/-- A file system with entries in one directory. -/
def withInputs (entries : List (RawText × FileSystem.Node)) : FileSystem where
  root := .dir [("in", .dir entries)]

/-- A configuration that passes over what it cannot read. -/
def skipping : Configuration := { inputDir := ⟨"in"⟩, onReadError := .skip }

/-- The second version comes after the tenth, in either order of listing. -/
theorem loadInputs_of_versions :
    skipping.loadInputs (withInputs versions.reverse) = skipping.loadInputs (withInputs versions) ∧
      ∃ loaded, (skipping.loadInputs (withInputs versions)).result = .ok loaded ∧
        loaded.schemas.get? "users" = some ⟨"users", parseRows "id,,Numeric\n"⟩ := by
  have hlist : (withInputs versions).list skipping.inputDir
      = .ok ["users.v2.csv", "users.csv", "users.v10.csv"] := rfl
  obtain ⟨hrelisted, hloaded, herror⟩ := loadInputs_of_list hlist (by decide) (by decide)
  have hreverse : (withInputs versions).Relisted (withInputs versions.reverse) :=
    FileSystem.relisted_of_perm (a := ["in"]) rfl (by decide) versions.reverse_perm.symm
  refine ⟨hrelisted _ hreverse, ?_⟩
  cases hresult : (skipping.loadInputs (withInputs versions)).result with
  | error e => exact absurd ((herror e).mp hresult).1 (by decide)
  | ok loaded =>
    have hreads : ReadsAs (readSchema (withInputs versions)) "users" ⟨"in/users.v2.csv"⟩
        ⟨"users", parseRows "id,,Numeric\n"⟩ :=
      ⟨⟨⟨"users", parseRows "id,,Numeric\n"⟩, 0⟩, by decide +kernel, rfl, rfl⟩
    refine ⟨loaded, rfl, ((hloaded loaded hresult).1 _ _).mpr
      ⟨"users.v2.csv", ⟨by decide, by decide, by decide⟩, hreads, ?_⟩⟩
    intro m hm _
    have hcases : m = "users.v2.csv" ∨ m = "users.csv" ∨ m = "users.v10.csv" := by
      simpa using hm.listed
    rcases hcases with rfl | rfl | rfl
    · decide
    · decide
    · decide

end Configuration

end JavaEntities
