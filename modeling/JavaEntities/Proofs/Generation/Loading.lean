import JavaEntities.Generation
import JavaEntities.Proofs.Error.Steps
import JavaEntities.Proofs.Loading.Outcome

/-!
# The inputs of a configuration, loaded

A plan and a run load the same way first: the inputs are discovered, and then their schemas
are loaded. Either may fail. What is loaded comes with the number of the inputs, which the
schemas and the inputs that were passed over do not exceed (`schemas_add_skipped_le`).
-/

namespace JavaEntities

namespace Configuration

/-- What is discovered is among the names that are listed. -/
theorem discover_eq_ok {fs : FileSystem} {dir : Path} {extension : String}
    {inputs : List Path} (h : discover fs dir extension = .ok inputs) :
    ∃ names, fs.list dir = .ok names ∧ inputs = inputsAmong fs dir extension names := by
  unfold discover at h
  split at h
  · exact nomatch h
  · next names hnames => exact ⟨names, hnames, (Except.ok.inj h).symm⟩

/-- Two steps succeed if the first does and then the second. -/
theorem bind_result_eq_ok {α β : Type} {l : Logged α} {f : α → Logged β} {b : β}
    (h : (l.bind f).result = .ok b) : ∃ a, l.result = .ok a ∧ (f a).result = .ok b := by
  unfold Logged.bind at h
  split at h
  · exact nomatch h
  · next a ha => exact ⟨a, ha, h⟩

variable {c : Configuration} {fs : FileSystem}

/-- What was discovered is loaded, and counted. -/
theorem loadInputs_result {inputs : List Path}
    (h : discover fs c.inputDir c.inputExtension = .ok inputs) :
    (c.loadInputs fs).result
      = (loadSchemas fs c.onReadError inputs).result.map fun set => ⟨inputs.length, set⟩ := by
  unfold loadInputs Logged.bind
  rw [h]
  cases hset : (loadSchemas fs c.onReadError inputs).result with
  | error e => simp [hset, Logged.after, Except.map]
  | ok set => simp [hset, Logged.after, Logged.pure, Except.map]

/-- The number of the inputs is reported first. -/
theorem loadInputs_events {inputs : List Path}
    (h : discover fs c.inputDir c.inputExtension = .ok inputs) :
    (c.loadInputs fs).events
      = .discovered c.inputDir inputs.length :: (loadSchemas fs c.onReadError inputs).events := by
  unfold loadInputs Logged.bind
  rw [h]
  cases hset : (loadSchemas fs c.onReadError inputs).result with
  | error e => simp [hset, Logged.after]
  | ok set => simp [hset, Logged.after, Logged.pure]

/-- What is loaded was discovered, and is counted. -/
theorem loadInputs_eq_ok {loaded : Loaded} (h : (c.loadInputs fs).result = .ok loaded) :
    ∃ inputs, discover fs c.inputDir c.inputExtension = .ok inputs ∧
      (loadSchemas fs c.onReadError inputs).result = .ok loaded.schemas ∧
      loaded.inputs = inputs.length := by
  unfold loadInputs at h
  split at h
  · exact nomatch h
  · next inputs hinputs =>
    obtain ⟨set, hset, hloaded⟩ := bind_result_eq_ok h
    rw [← Except.ok.inj hloaded]
    exact ⟨inputs, hinputs, hset, rfl⟩

/-- No input is counted twice, as a schema and as passed over. -/
theorem schemas_add_skipped_le {loaded : Loaded} (h : (c.loadInputs fs).result = .ok loaded) :
    loaded.schemas.size + loaded.schemas.skipped.length ≤ loaded.inputs := by
  obtain ⟨inputs, -, hset, hcount⟩ := loadInputs_eq_ok h
  have haccount := skipped_add_size_add_displaced (readSchema fs) inputs
  rw [load_eq_ok hset, hcount]
  omega

/-! ## Plans -/

/-- What is loaded is what is planned. -/
theorem plan_of_loadInputs {loaded : Loaded} (h : (c.loadInputs fs).result = .ok loaded) :
    (c.plan fs).result = .ok (loaded.schemas.artifacts c.layout) := by
  unfold plan Logged.bind
  split
  · next he =>
    rw [h] at he
    exact nomatch he
  · next l hl =>
    obtain rfl : loaded = l := Except.ok.inj (h.symm.trans hl)
    rfl

theorem plan_of_error {e : Error} (h : (c.loadInputs fs).result = .error e) :
    (c.plan fs).result = .error e := by
  unfold plan Logged.bind
  split
  · next e' he =>
    obtain rfl : e = e' := Except.error.inj (h.symm.trans he)
    rfl
  · next l hl =>
    rw [h] at hl
    exact nomatch hl

theorem plan_eq_ok {artifacts : List Artifact} (h : (c.plan fs).result = .ok artifacts) :
    ∃ loaded, (c.loadInputs fs).result = .ok loaded ∧
      artifacts = loaded.schemas.artifacts c.layout := by
  obtain ⟨loaded, hloaded, hartifacts⟩ := bind_result_eq_ok h
  exact ⟨loaded, hloaded, (Except.ok.inj hartifacts).symm⟩

/-! ## Runs -/

variable {σ : Type}

/-- A run fails as the loading does, and leaves the sink alone. -/
theorem run_of_error {e : Error} (h : (c.loadInputs fs).result = .error e) (sink : Sink σ) (s : σ) :
    (c.run fs sink s).result = .error e ∧ (c.run fs sink s).state = s := by
  simp [run, h]

/-- A run that has loaded its inputs ends as the writing of the artifacts does. -/
theorem run_of_loadInputs {loaded : Loaded} (h : (c.loadInputs fs).result = .ok loaded)
    (sink : Sink σ) (s : σ) :
    (c.run fs sink s).result
        = (sink.writeAll (loaded.schemas.artifacts c.layout) s).1.map (fun written =>
          ⟨loaded.inputs, loaded.schemas.size, written, loaded.schemas.skipped⟩) ∧
      (c.run fs sink s).state = (sink.writeAll (loaded.schemas.artifacts c.layout) s).2 := by
  simp only [run, h]
  rcases sink.writeAll (loaded.schemas.artifacts c.layout) s with ⟨e | written, s'⟩
  · exact ⟨rfl, rfl⟩
  · exact ⟨rfl, rfl⟩

/-- A run that succeeds has loaded its inputs and written all artifacts. -/
theorem run_eq_ok {sink : Sink σ} {s : σ} {summary : Summary}
    (h : (c.run fs sink s).result = .ok summary) :
    ∃ loaded written, (c.loadInputs fs).result = .ok loaded ∧
      sink.writeAll (loaded.schemas.artifacts c.layout) s
        = (.ok written, (c.run fs sink s).state) ∧
      summary = ⟨loaded.inputs, loaded.schemas.size, written, loaded.schemas.skipped⟩ := by
  cases hload : (c.loadInputs fs).result with
  | error e =>
    rw [(run_of_error hload sink s).1] at h
    exact nomatch h
  | ok loaded =>
    obtain ⟨hresult, hstate⟩ := run_of_loadInputs hload sink s
    rw [hresult] at h
    obtain ⟨written, hwritten, rfl⟩ := map_eq_ok_iff.mp h
    exact ⟨loaded, written, rfl, Prod.ext hwritten hstate.symm, rfl⟩

end Configuration

end JavaEntities
