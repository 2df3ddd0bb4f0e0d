import JavaEntities.Proofs.Loading.Outcome

/-!
# The two policies

The policy matters only where an input cannot be read (`loadSchemas_abort_of_skip`). Under
`abort` loading fails if and only if something is passed over under `skip`, with the error of
the first input that is, and gives the same schemas otherwise. The schemas under `skip` are
those of the inputs that can be read, loaded on their own.
-/

namespace JavaEntities

variable (read : Path → Except Error Reading)

/-! ## The first error -/

/-- The first error is that of the first input that cannot be read. -/
theorem firstError_of_unreadable {inputs rest : List Path} {p : Path}
    (h : unreadable read inputs = p :: rest) :
    ∃ e, read p = .error e ∧ firstError read inputs = some e := by
  induction inputs with
  | nil => exact nomatch h
  | cons q inputs ih =>
    cases hq : read q with
    | ok r =>
      rw [unreadable_cons_of_ok hq] at h
      rw [firstError_cons_of_ok hq]
      exact ih h
    | error e =>
      rw [unreadable_cons_of_error hq] at h
      obtain ⟨rfl, -⟩ := List.cons.inj h
      exact ⟨e, hq, firstError_cons_of_error hq⟩

/-- Where every input can be read, there is no first error. -/
theorem firstError_of_unreadable_eq_nil {inputs : List Path} (h : unreadable read inputs = []) :
    firstError read inputs = none := by
  have hreads : ∀ p ∈ inputs, ∃ r, read p = .ok r := by
    intro p hp
    have hok := List.filter_eq_nil_iff.mp h p hp
    cases hread : read p with
    | ok r => exact ⟨r, rfl⟩
    | error e =>
      rw [hread] at hok
      exact absurd rfl hok
  refine List.findSome?_eq_none_iff.mpr fun p hp => ?_
  obtain ⟨r, hr⟩ := hreads p hp
  rw [hr]

/-! ## The inputs that can be read -/

theorem unreadable_filter_isOk (inputs : List Path) :
    unreadable read (inputs.filter fun p => (read p).isOk) = [] := by
  refine List.filter_eq_nil_iff.mpr fun p hp => ?_
  rw [(List.mem_filter.mp hp).2]
  decide

theorem readable_filter_isOk (inputs : List Path) :
    readable read (inputs.filter fun p => (read p).isOk) = readable read inputs := by
  induction inputs with
  | nil => rfl
  | cons p rest ih =>
    cases h : read p with
    | ok r =>
      rw [List.filter_cons_of_pos (by rw [h]; rfl), readable_cons_of_ok h, readable_cons_of_ok h,
        ih]
    | error e =>
      rw [List.filter_cons_of_neg (by rw [h]; exact Bool.false_ne_true), readable_cons_of_error h,
        ih]

/-! ## Loading -/

variable {read} {inputs : List Path}

/-- Where every input can be read, `abort` loads them all. -/
theorem load_abort_of_unreadable_eq_nil (h : unreadable read inputs = []) :
    (load read .abort inputs).result = .ok (SchemaSet.empty.absorb read inputs) := by
  rw [load, loadInto_result, firstError_of_unreadable_eq_nil read h]

/-- Under `abort`, the first input that cannot be read gives its error. -/
theorem load_abort_of_unreadable {rest : List Path} {p : Path}
    (h : unreadable read inputs = p :: rest) :
    ∃ e, read p = .error e ∧ (load read .abort inputs).result = .error e := by
  obtain ⟨e, hp, hfirst⟩ := firstError_of_unreadable read h
  exact ⟨e, hp, by rw [load, loadInto_result, hfirst]⟩

/-- Under `abort`, loading succeeds if and only if every input can be read. -/
theorem load_abort_eq_ok_iff :
    (∃ set, (load read .abort inputs).result = .ok set) ↔ unreadable read inputs = [] := by
  constructor
  · rintro ⟨set, hset⟩
    cases h : unreadable read inputs with
    | nil => rfl
    | cons p rest =>
      obtain ⟨e, -, he⟩ := load_abort_of_unreadable h
      exact nomatch hset.symm.trans he
  · exact fun h => ⟨_, load_abort_of_unreadable_eq_nil h⟩

/-- **The policies differ only on inputs that cannot be read.** Under `skip` there is always a set.
Loading succeeds under `abort` if and only if that set has passed nothing over, and then with the
same schemas; otherwise it fails with the error of the first input that was passed over. The
schemas under `skip` are those of the inputs that can be read, loaded under `abort`. -/
theorem loadSchemas_abort_of_skip (fs : FileSystem) (inputs : List Path) :
    ∃ set, (loadSchemas fs .skip inputs).result = .ok set ∧
      ((∃ set', (loadSchemas fs .abort inputs).result = .ok set') ↔ set.skipped = []) ∧
      (∀ set', (loadSchemas fs .abort inputs).result = .ok set' →
        set'.byIdentifier = set.byIdentifier) ∧
      (∀ p rest, set.skipped = p :: rest →
        ∃ e, readSchema fs p = .error e ∧ (loadSchemas fs .abort inputs).result = .error e) ∧
      ∃ set', (loadSchemas fs .abort (inputs.filter fun p => (readSchema fs p).isOk)).result
          = .ok set' ∧ set'.byIdentifier = set.byIdentifier := by
  have hskipped : (SchemaSet.empty.absorb (readSchema fs) inputs).skipped
      = unreadable (readSchema fs) inputs := List.nil_append _
  refine ⟨SchemaSet.empty.absorb (readSchema fs) inputs, load_skip, ?_, ?_, ?_, ?_⟩
  · rw [hskipped]
    exact load_abort_eq_ok_iff
  · intro set' hset'
    rw [load_eq_ok hset']
  · intro p rest hfirst
    rw [hskipped] at hfirst
    exact load_abort_of_unreadable hfirst
  · have hkept := unreadable_filter_isOk (readSchema fs) inputs
    refine ⟨_, load_abort_of_unreadable_eq_nil hkept, ?_⟩
    unfold SchemaSet.absorb
    rw [readable_filter_isOk]

end JavaEntities
