import JavaEntities.Loading
import JavaEntities.Proofs.SchemaSet.History

/-!
# What loading comes to

What is loaded depends on two lists of the inputs alone: the schemas of those that can be
read, and those that cannot (`absorb`). Under `abort` the first that cannot be read is the
error; otherwise, and under `skip` in any case, the set has all of the schemas, inserted in
order, and has passed the others over (`loadInto_result`).

So the schema under an identifier is that of the last input that can be read and has the
identifier (`get?_absorb_eq_some_iff`), and every input is accounted for
(`skipped_add_size_add_displaced`).
-/

namespace JavaEntities

variable (read : Path → Except Error Reading)

/-- The schemas of the inputs that can be read, in order. -/
def readable (inputs : List Path) : List Schema :=
  inputs.filterMap fun p => (read p).toOption.map Reading.schema

/-- The inputs that cannot be read, in order. -/
def unreadable (inputs : List Path) : List Path :=
  inputs.filter fun p => !(read p).isOk

/-- The error of the first input that cannot be read. -/
def firstError (inputs : List Path) : Option Error :=
  inputs.findSome? fun p =>
    match read p with
    | .error e => some e
    | .ok _ => none

/-- The set with the schemas of the inputs that can be read, and the others passed over. -/
def SchemaSet.absorb (set : SchemaSet) (inputs : List Path) : SchemaSet :=
  { (readable read inputs).foldl SchemaSet.insert set with
    skipped := set.skipped ++ unreadable read inputs }

/-- A set takes in the schemas that can be read, in order. -/
theorem byIdentifier_absorb (set : SchemaSet) (inputs : List Path) :
    (set.absorb read inputs).byIdentifier
      = set.byIdentifier.insertAll ((readable read inputs).map fun s => (s.identifier, s)) :=
  SchemaSet.byIdentifier_foldl_insert set (readable read inputs)

/-! ## One input -/

section Step

variable {read} {p : Path} {rest : List Path} {set : SchemaSet}

theorem readable_cons_of_ok {r : Reading} (h : read p = .ok r) :
    readable read (p :: rest) = r.schema :: readable read rest := by
  unfold readable
  rw [List.filterMap_cons, h]
  rfl

theorem readable_cons_of_error {e : Error} (h : read p = .error e) :
    readable read (p :: rest) = readable read rest := by
  unfold readable
  rw [List.filterMap_cons, h]
  rfl

theorem unreadable_cons_of_ok {r : Reading} (h : read p = .ok r) :
    unreadable read (p :: rest) = unreadable read rest := by
  unfold unreadable
  rw [List.filter_cons, h]
  rfl

theorem unreadable_cons_of_error {e : Error} (h : read p = .error e) :
    unreadable read (p :: rest) = p :: unreadable read rest := by
  unfold unreadable
  rw [List.filter_cons, h]
  rfl

theorem absorb_cons_of_ok {r : Reading} (h : read p = .ok r) :
    set.absorb read (p :: rest) = (set.insert r.schema).absorb read rest := by
  unfold SchemaSet.absorb
  refine SchemaSet.ext ?_ ?_
  · rw [readable_cons_of_ok h]
    rfl
  · rw [unreadable_cons_of_ok h]
    rfl

theorem absorb_cons_of_error {e : Error} (h : read p = .error e) :
    set.absorb read (p :: rest) = (set.skip p).absorb read rest := by
  refine SchemaSet.ext ?_ ?_
  · rw [byIdentifier_absorb, byIdentifier_absorb, readable_cons_of_error h]
    rfl
  · show set.skipped ++ unreadable read (p :: rest) = set.skipped ++ [p] ++ unreadable read rest
    rw [unreadable_cons_of_error h, List.append_assoc]
    rfl

theorem firstError_cons_of_ok {r : Reading} (h : read p = .ok r) :
    firstError read (p :: rest) = firstError read rest := by
  unfold firstError
  rw [List.findSome?_cons, h]

theorem firstError_cons_of_error {e : Error} (h : read p = .error e) :
    firstError read (p :: rest) = some e := by
  unfold firstError
  rw [List.findSome?_cons, h]

end Step

/-! ## All inputs -/

/-- **What loading comes to.** -/
theorem loadInto_result (policy : ReadErrorPolicy) (inputs : List Path) (set : SchemaSet) :
    (loadInto read policy inputs set).result =
      match policy, firstError read inputs with
      | .abort, some e => .error e
      | _, _ => .ok (set.absorb read inputs) := by
  induction inputs generalizing set with
  | nil =>
    have hnone : set.absorb read [] = set := SchemaSet.ext rfl (List.append_nil _)
    rw [hnone]
    cases policy with
    | abort => rfl
    | skip => rfl
  | cons p rest ih =>
    unfold loadInto
    cases h : read p with
    | ok r =>
      rw [firstError_cons_of_ok h, absorb_cons_of_ok h]
      exact ih (set.insert r.schema)
    | error e =>
      rw [firstError_cons_of_error h, absorb_cons_of_error h]
      cases policy with
      | abort => rfl
      | skip => exact ih (set.skip p)

section Result

variable {read} {policy : ReadErrorPolicy} {inputs : List Path}

/-- The first error is that of the first input that cannot be read. -/
theorem firstError_eq_some_iff {e : Error} :
    firstError read inputs = some e ↔
      ∃ before p after, inputs = before ++ p :: after ∧ read p = .error e ∧
        ∀ q ∈ before, ¬ ∃ e', read q = .error e' := by
  have herror : ∀ p, (match read p with | .error e => some e | .ok _ => none) = some e ↔
      read p = .error e := by
    intro p
    cases read p with
    | error e' => simp
    | ok r => simp
  have hnone : ∀ p, (match read p with | .error e => some e | .ok _ => none) = none ↔
      ¬ ∃ e', read p = .error e' := by
    intro p
    cases read p with
    | error e' => simp
    | ok r => simp
  unfold firstError
  rw [List.findSome?_eq_some_iff]
  simp only [herror, hnone]

/-- Loading asks for nothing but its inputs. -/
theorem loadInto_congr {read' : Path → Except Error Reading} {set : SchemaSet}
    (h : ∀ p ∈ inputs, read' p = read p) :
    loadInto read' policy inputs set = loadInto read policy inputs set := by
  induction inputs generalizing set with
  | nil => rfl
  | cons p rest ih =>
    have hrest : ∀ set, loadInto read' policy rest set = loadInto read policy rest set :=
      fun set => ih fun q hq => h q (List.mem_cons_of_mem p hq)
    unfold loadInto
    rw [h p (List.mem_cons_self ..)]
    simp only [hrest]

/-- Under `skip` there is always a set. -/
theorem load_skip :
    (load read .skip inputs).result = .ok (SchemaSet.empty.absorb read inputs) := by
  rw [load, loadInto_result]

/-- What is loaded are the schemas that can be read. -/
theorem load_eq_ok {loaded : SchemaSet} (h : (load read policy inputs).result = .ok loaded) :
    loaded = SchemaSet.empty.absorb read inputs := by
  unfold load at h
  rw [loadInto_result] at h
  split at h
  · exact nomatch h
  · exact (Except.ok.inj h).symm

/-- Loading fails only under `abort`, and with the error of the first input that cannot be read. -/
theorem load_eq_error_iff {e : Error} :
    (load read policy inputs).result = .error e ↔
      policy = .abort ∧ firstError read inputs = some e := by
  unfold load
  rw [loadInto_result]
  cases policy with
  | abort => cases firstError read inputs <;> simp
  | skip => simp

end Result

/-! ## Counting -/

/-- Each input can be read or cannot. -/
theorem length_readable_add_unreadable (inputs : List Path) :
    (readable read inputs).length + (unreadable read inputs).length = inputs.length := by
  induction inputs with
  | nil => rfl
  | cons p rest ih =>
    cases h : read p with
    | ok r =>
      rw [readable_cons_of_ok h, unreadable_cons_of_ok h, List.length_cons, List.length_cons]
      omega
    | error e =>
      rw [readable_cons_of_error h, unreadable_cons_of_error h, List.length_cons, List.length_cons]
      omega

/-- The schemas that others took the place of while the inputs were loaded. -/
def displacedSchemas (inputs : List Path) : List Schema :=
  SortedMap.displaced .empty ((readable read inputs).map fun s => (s.identifier, s))

/-- **Every input is accounted for**: it was passed over, or its schema is there or made way for
another one. -/
theorem skipped_add_size_add_displaced (inputs : List Path) :
    (SchemaSet.empty.absorb read inputs).skipped.length
      + (SchemaSet.empty.absorb read inputs).size + (displacedSchemas read inputs).length
        = inputs.length := by
  have hsize := SortedMap.size_insertAll_add_displaced .empty
    ((readable read inputs).map fun s => (s.identifier, s))
  have hempty : (SortedMap.empty : SortedMap String Schema).size = 0 := rfl
  have hlengths := length_readable_add_unreadable read inputs
  rw [List.length_map] at hsize
  show ([] ++ unreadable read inputs).length
    + (SchemaSet.empty.absorb read inputs).byIdentifier.size
    + (SortedMap.displaced .empty _).length = _
  have hmap : (SchemaSet.empty.absorb read inputs).byIdentifier = SortedMap.insertAll .empty _ :=
    byIdentifier_absorb read .empty inputs
  rw [List.nil_append, hmap]
  omega

/-! ## The schema under an identifier -/

/-- Whether an input can be read and gives a schema with an identifier. -/
def ReadsAs (identifier : String) (p : Path) (s : Schema) : Prop :=
  ∃ r, read p = .ok r ∧ r.schema = s ∧ s.identifier = identifier

/-- An input reads as a schema under the identifier of the schema. -/
theorem readsAs_iff {identifier : String} {p : Path} {s : Schema} :
    ReadsAs read identifier p s ↔
      (read p).toOption.map Reading.schema = some s ∧ identifier = s.identifier := by
  unfold ReadsAs
  cases read p with
  | error e => simp [Except.toOption]
  | ok r => simp [Except.toOption, eq_comm]

/-- The last schema that can be read under an identifier is kept. -/
theorem get?_absorb (inputs : List Path) (identifier : String) :
    (SchemaSet.empty.absorb read inputs).get? identifier
      = (readable read inputs).reverse.find? fun s => identifier = s.identifier := by
  have hempty : SchemaSet.empty.byIdentifier.get? identifier = none := rfl
  have hcompare : ((fun e : String × Schema => compare identifier e.1 == .eq) ∘
      fun s : Schema => (s.identifier, s)) = fun s => decide (identifier = s.identifier) := by
    funext s
    show (compare identifier s.identifier == .eq) = decide (identifier = s.identifier)
    rw [Bool.eq_iff_iff, beq_iff_eq, decide_eq_true_iff, Std.LawfulEqCmp.compare_eq_iff_eq]
  rw [SchemaSet.get?, byIdentifier_absorb, SortedMap.get?_insertAll, hempty, Option.or_none,
    ← List.map_reverse, List.find?_map,
    Option.map_map, hcompare]
  exact Option.map_id'

/-- The last input that can be read and has an identifier gives the schema under it. -/
theorem get?_absorb_eq_some_iff {inputs : List Path} {identifier : String} {s : Schema} :
    (SchemaSet.empty.absorb read inputs).get? identifier = some s ↔
      ∃ before p after, inputs = before ++ p :: after ∧ ReadsAs read identifier p s ∧
        ∀ q ∈ after, ∀ s', ¬ ReadsAs read identifier q s' := by
  have hnone : ∀ q, (!Option.any (fun s : Schema => decide (identifier = s.identifier))
      ((read q).toOption.map Reading.schema)) = true ↔ ∀ s', ¬ ReadsAs read identifier q s' := by
    intro q
    simp only [readsAs_iff]
    cases (read q).toOption.map Reading.schema with
    | none => simp
    | some s => simp
  rw [get?_absorb, readable, ← List.filterMap_reverse, List.find?_filterMap,
    Option.bind_eq_some_iff]
  simp only [List.find?_eq_some_iff_append, hnone]
  constructor
  · rintro ⟨p, ⟨hany, as, bs, hinputs, has⟩, hp⟩
    -- What comes first from the end comes last.
    refine ⟨bs.reverse, p, as.reverse, ?_, ?_, fun q hq => has q (List.mem_reverse.mp hq)⟩
    · rw [List.reverse_eq_iff.mp hinputs]
      simp
    · rw [hp] at hany
      exact (readsAs_iff read).mpr ⟨hp, by simpa using hany⟩
  · rintro ⟨before, p, after, rfl, hreads, hafter⟩
    obtain ⟨hp, hidentifier⟩ := (readsAs_iff read).mp hreads
    refine ⟨p, ⟨?_, after.reverse, before.reverse, by simp, ?_⟩, hp⟩
    · rw [hp]
      simpa using hidentifier
    · exact fun q hq => hafter q (List.mem_reverse.mp hq)

/-- There is no schema under an identifier that no input has. -/
theorem get?_absorb_eq_none_iff {inputs : List Path} {identifier : String} :
    (SchemaSet.empty.absorb read inputs).get? identifier = none ↔
      ∀ p ∈ inputs, ∀ s, ¬ ReadsAs read identifier p s := by
  rw [get?_absorb, List.find?_eq_none]
  simp only [List.mem_reverse, readable, List.mem_filterMap, readsAs_iff, decide_eq_true_iff]
  constructor
  · exact fun h p hp s hs => h s ⟨p, hp, hs.1⟩ hs.2
  · rintro h s ⟨p, hp, hs⟩ hidentifier
    exact h p hp s ⟨hs, hidentifier⟩

end JavaEntities
