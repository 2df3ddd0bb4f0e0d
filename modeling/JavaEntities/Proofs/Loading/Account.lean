import JavaEntities.Proofs.Loading.Outcome
import JavaEntities.Proofs.Text.Bytes

/-!
# An account of the inputs

Under `skip` loading always gives a set, and the set accounts for every input
(`load_skip_accounts`): one that cannot be read is passed over, and of those that can be
read the last with an identifier is there, the others have made way. Each time one makes
way, this is reported once (`replaced_loadInto_skip`).
-/

namespace JavaEntities

open Text

/-- The identifier of the schema that an event reports as replaced. -/
def Event.replaced? : Event → Option String
  | schemaReplaced identifier _ => some identifier
  | _ => none

variable (read : Path → Except Error Reading)

/-! ## Reports of replacement -/

/-- An input is reported to replace what is under its identifier, if there is something. -/
theorem replaced_readingEvents (set : SchemaSet) (input : Path) (r : Reading) :
    (readingEvents set input r).filterMap Event.replaced?
      = (set.get? r.schema.identifier).toList.map Schema.identifier := by
  have hblank : (if r.blank = 0 then [] else [Event.blankLines input r.blank]).filterMap
      Event.replaced? = [] := by
    split
    · rfl
    · rfl
  unfold readingEvents
  rw [List.filterMap_append, List.filterMap_append, hblank]
  cases set.get? r.schema.identifier with
  | none => rfl
  | some previous => rfl

/-- One report for each schema that is replaced, in order. -/
theorem replaced_loadInto_skip (inputs : List Path) (set : SchemaSet) :
    (loadInto read .skip inputs set).events.filterMap Event.replaced?
      = (set.byIdentifier.displaced
          ((readable read inputs).map fun s => (s.identifier, s))).map Schema.identifier := by
  induction inputs generalizing set with
  | nil => rfl
  | cons p rest ih =>
    unfold loadInto
    cases h : read p with
    | ok r =>
      show (readingEvents set p r
        ++ (loadInto read .skip rest (set.insert r.schema)).events).filterMap Event.replaced? = _
      rw [List.filterMap_append, replaced_readingEvents, ih, readable_cons_of_ok h, List.map_cons,
        SortedMap.displaced, List.map_append]
      rfl
    | error e =>
      rw [readable_cons_of_error h]
      exact ih (set.skip p)

/-! ## Reports of what is passed over -/

/-- An input that was read is not reported as passed over. -/
theorem inputSkipped_not_mem_readingEvents (set : SchemaSet) (input : Path) (r : Reading) {p : Path}
    {e : Error} : .inputSkipped p e ∉ readingEvents set input r := by
  unfold readingEvents
  rw [List.mem_append, List.mem_append, not_or, not_or]
  refine ⟨⟨?_, ?_⟩, ?_⟩
  · split
    · exact List.not_mem_nil
    · simp
  · simp
  · split
    · simp
    · exact List.not_mem_nil

/-- What is reported as passed over is an input, with the error that it gave. -/
theorem read_of_inputSkipped {policy : ReadErrorPolicy} {inputs : List Path} {set : SchemaSet}
    {p : Path} {e : Error} (h : .inputSkipped p e ∈ (loadInto read policy inputs set).events) :
    p ∈ inputs ∧ read p = .error e := by
  induction inputs generalizing set with
  | nil => exact absurd h List.not_mem_nil
  | cons q rest ih =>
    unfold loadInto at h
    cases hq : read q with
    | ok r =>
      rw [hq] at h
      rcases List.mem_append.mp h with h | h
      · exact absurd h (inputSkipped_not_mem_readingEvents set q r)
      · obtain ⟨hmem, hread⟩ := ih h
        exact ⟨List.mem_cons_of_mem q hmem, hread⟩
    | error e' =>
      rw [hq] at h
      cases policy with
      | abort => exact absurd h List.not_mem_nil
      | skip =>
        rcases List.mem_cons.mp h with heq | h
        · obtain ⟨rfl, rfl⟩ := Event.inputSkipped.inj heq
          exact ⟨List.mem_cons_self .., hq⟩
        · obtain ⟨hmem, hread⟩ := ih h
          exact ⟨List.mem_cons_of_mem q hmem, hread⟩

/-! ## Identifiers -/

/-- The identifiers of a set are those of the inputs that can be read. -/
theorem mem_identifiers_absorb {inputs : List Path} {identifier : String} :
    identifier ∈ (SchemaSet.empty.absorb read inputs).identifiers ↔
      ∃ p ∈ inputs, ∃ s, ReadsAs read identifier p s := by
  have hthere : (∃ s, (SchemaSet.empty.absorb read inputs).get? identifier = some s) ↔
      ∃ p ∈ inputs, ∃ s, ReadsAs read identifier p s := by
    rw [← Option.ne_none_iff_exists', ne_eq, get?_absorb_eq_none_iff]
    push Not
    rfl
  exact SortedMap.mem_keys_iff.trans hthere

/-- They are in the order of their bytes. -/
theorem pairwise_identifiers_absorb (inputs : List Path) :
    (SchemaSet.empty.absorb read inputs).identifiers.Pairwise fun i j => bytes i < bytes j := by
  have hincreasing := (SchemaSet.empty.absorb read inputs).byIdentifier.increasing
  refine List.pairwise_map.mpr (hincreasing.imp ?_)
  intro e e' hlt
  exact bytes_lt_iff.mpr (Std.LawfulLTCmp.eq_lt_iff_lt.mp hlt)

/-! ## The account -/

/-- **Every input is accounted for under `skip`**, whatever reading it gives. There is always a
set. It has passed over the inputs that cannot be read, in order and as often as they come, and has
under each identifier the schema of the last input that can be read and has the identifier. Its
identifiers are those of the inputs that can be read, in the order of their bytes. The inputs are
as many as those passed over, the schemas that are there and those that others took the place of
together, and each of the last is reported once. -/
theorem load_skip_accounts (inputs : List Path) :
    ∃ set, (load read .skip inputs).result = .ok set ∧
      set.skipped = inputs.filter (fun p => !(read p).isOk) ∧
      (∀ identifier s, set.get? identifier = some s ↔
        ∃ before p after, inputs = before ++ p :: after ∧ ReadsAs read identifier p s ∧
          ∀ q ∈ after, ∀ s', ¬ ReadsAs read identifier q s') ∧
      (∀ identifier, set.get? identifier = none ↔
        ∀ p ∈ inputs, ∀ s, ¬ ReadsAs read identifier p s) ∧
      (∀ identifier, identifier ∈ set.identifiers ↔
        ∃ p ∈ inputs, ∃ s, ReadsAs read identifier p s) ∧
      (set.identifiers.Pairwise fun i j => bytes i < bytes j) ∧
      (load read .skip inputs).events.filterMap Event.replaced?
        = (displacedSchemas read inputs).map Schema.identifier ∧
      inputs.length
        = set.skipped.length + set.size + (displacedSchemas read inputs).length := by
  refine ⟨SchemaSet.empty.absorb read inputs, load_skip, ?_, ?_, ?_, ?_, ?_, ?_, ?_⟩
  · exact List.nil_append _
  · exact fun identifier s => get?_absorb_eq_some_iff read
  · exact fun identifier => get?_absorb_eq_none_iff read
  · exact fun identifier => mem_identifiers_absorb read
  · exact pairwise_identifiers_absorb read inputs
  · exact replaced_loadInto_skip read inputs .empty
  · exact (skipped_add_size_add_displaced read inputs).symm

end JavaEntities
