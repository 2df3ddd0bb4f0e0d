import Mathlib.Data.List.FinRange
import JavaEntities.Artifact
import JavaEntities.Proofs.SortedMap.History
import JavaEntities.Proofs.Text.Bytes

/-!
# What insertions leave in a schema set

A schema set is told by the schemas that were inserted into it. Each insertion gives back the
schema that was there (`replaceAll_fst`), the last one with an identifier is what is there in the
end, and the artifacts are those of the schemas that are there, in the order of the bytes of
identifiers and of the variants (`holds_last_insertions`).

So schemas may be inserted in another order, as long as those with one identifier keep theirs
(`ofList_eq_of_reorders`).
-/

namespace JavaEntities

open Text

/-- The place of a variant among all. -/
def Variant.rank : Variant → Nat
  | app => 0
  | relational => 1
  | document => 2

/-- Whether an artifact comes before another: by the bytes of its identifier, and among those of one
schema by its variant. -/
def Artifact.Before (x y : Artifact) : Prop :=
  bytes x.identifier < bytes y.identifier ∨
    x.identifier = y.identifier ∧ x.variant.rank < y.variant.rank

/-- Whether schemas are others in another order, in which those with one identifier stand as before:
each place has the schema of a place in the other list, and two places of one identifier are in the
same order there. -/
def Reorders (schemas schemas' : List Schema) : Prop :=
  ∃ σ : Fin schemas'.length ≃ Fin schemas.length,
    (∀ i, schemas'[i] = schemas[σ i]) ∧
      ∀ i j, i < j → schemas'[i].identifier = schemas'[j].identifier → σ i < σ j

namespace SchemaSet

/-- Schemas under their identifiers. -/
def underIdentifiers (schemas : List Schema) : List (String × Schema) :=
  schemas.map fun s => (s.identifier, s)

variable {schemas schemas' : List Schema}

/-- Insertions into a set are those into its map. -/
theorem byIdentifier_foldl_insert (set : SchemaSet) (schemas : List Schema) :
    (schemas.foldl insert set).byIdentifier
      = set.byIdentifier.insertAll (underIdentifiers schemas) := by
  induction schemas generalizing set with
  | nil => rfl
  | cons s rest ih => exact ih (set.insert s)

/-- Insertions pass over nothing. -/
theorem skipped_foldl_insert (set : SchemaSet) (schemas : List Schema) :
    (schemas.foldl insert set).skipped = set.skipped := by
  induction schemas generalizing set with
  | nil => rfl
  | cons s rest ih => exact ih (set.insert s)

/-- A list of schemas is inserted in order. -/
theorem byIdentifier_ofList (schemas : List Schema) :
    (ofList schemas).byIdentifier = SortedMap.insertAll .empty (underIdentifiers schemas) :=
  byIdentifier_foldl_insert .empty schemas

/-! ## What an insertion gives back -/

theorem replace_snd (set : SchemaSet) (s : Schema) : (set.replace s).2 = set.insert s :=
  SchemaSet.ext (SortedMap.ext_entries (SortedMap.replaceEntry_snd ..)) rfl

theorem replace_fst (set : SchemaSet) (s : Schema) :
    (set.replace s).1 = set.get? s.identifier :=
  SortedMap.replaceEntry_fst set.byIdentifier.increasing

theorem replaceAll_cons (set : SchemaSet) (s : Schema) (rest : List Schema) :
    set.replaceAll (s :: rest)
      = ((set.replace s).1 :: ((set.insert s).replaceAll rest).1,
        ((set.insert s).replaceAll rest).2) := by
  rw [← replace_snd]
  rfl

/-- Replacing leaves what inserting leaves. -/
theorem replaceAll_snd (set : SchemaSet) (schemas : List Schema) :
    (set.replaceAll schemas).2 = schemas.foldl insert set := by
  induction schemas generalizing set with
  | nil => rfl
  | cons s rest ih =>
    rw [replaceAll_cons]
    exact ih (set.insert s)

theorem length_replaceAll (set : SchemaSet) (schemas : List Schema) :
    (set.replaceAll schemas).1.length = schemas.length := by
  induction schemas generalizing set with
  | nil => rfl
  | cons s rest ih => rw [replaceAll_cons, List.length_cons, List.length_cons, ih]

/-- Each insertion gives back the schema that those before it have left under its identifier. -/
theorem replaceAll_fst (set : SchemaSet)
    (before : List Schema) (s : Schema) (after : List Schema) :
    (set.replaceAll (before ++ s :: after)).1[before.length]?
      = some ((before.foldl insert set).get? s.identifier) := by
  induction before generalizing set with
  | nil =>
    rw [List.nil_append, replaceAll_cons, replace_fst]
    rfl
  | cons t before ih =>
    rw [List.cons_append, replaceAll_cons, List.length_cons, List.getElem?_cons_succ]
    exact ih (set.insert t)

/-! ## What is there in the end -/

/-- The last schema of a list with an identifier is the last entry under it. -/
theorem isLast_underIdentifiers {identifier : String} {s : Schema} :
    (∃ k, IsLast (fun e => compare identifier e.1 = .eq) (underIdentifiers schemas) (k, s)) ↔
      IsLast (fun t => t.identifier = identifier) schemas s := by
  simp only [Std.LawfulEqCmp.compare_eq_iff_eq]
  constructor
  · rintro ⟨k, before, after, hsplit, hk, hafter⟩
    obtain ⟨front, rest, rfl, rfl, hrest⟩ := List.map_eq_append_iff.mp hsplit
    obtain ⟨t, back, rfl, ht, rfl⟩ := List.map_eq_cons_iff.mp hrest
    obtain ⟨rfl, rfl⟩ := Prod.mk.inj ht
    refine ⟨front, back, rfl, hk.symm, fun u hu heq => ?_⟩
    exact hafter _ (List.mem_map_of_mem hu) heq.symm
  · rintro ⟨before, after, rfl, hs, hafter⟩
    refine ⟨s.identifier, underIdentifiers before, underIdentifiers after,
      by simp [underIdentifiers], hs.symm, fun e he heq => ?_⟩
    obtain ⟨t, ht, rfl⟩ := List.mem_map.mp he
    exact hafter t ht heq.symm

/-- The last schema with an identifier is there. -/
theorem get?_ofList_eq_some_iff {identifier : String} {s : Schema} :
    (ofList schemas).get? identifier = some s ↔
      IsLast (fun t => t.identifier = identifier) schemas s := by
  rw [get?, byIdentifier_ofList, SortedMap.get?_insertAll_eq_some_iff, isLast_underIdentifiers]

/-- An identifier is missing if no schema of the list has it. -/
theorem get?_ofList_eq_none_iff {identifier : String} :
    (ofList schemas).get? identifier = none ↔ ∀ s ∈ schemas, s.identifier ≠ identifier := by
  rw [get?, byIdentifier_ofList, SortedMap.get?_insertAll_eq_none_iff, underIdentifiers,
    List.forall_mem_map]
  simp only [ne_eq, Std.LawfulEqCmp.compare_eq_iff_eq, eq_comm (a := identifier)]

/-- There are as many schemas as identifiers. -/
theorem size_ofList (schemas : List Schema) :
    (ofList schemas).size = (schemas.map Schema.identifier).dedup.length := by
  have hcompare : ∀ i j : String, compare i j = .eq ↔ id i = id j :=
    fun i j => Std.LawfulEqCmp.compare_eq_iff_eq
  rw [size, byIdentifier_ofList, SortedMap.size_insertAll_eq_dedup hcompare, underIdentifiers,
    List.map_map]
  rfl

/-- The identifiers are those of the list. -/
theorem mem_identifiers_ofList {identifier : String} :
    identifier ∈ (ofList schemas).identifiers ↔ ∃ s ∈ schemas, s.identifier = identifier := by
  have hthere : identifier ∈ (ofList schemas).identifiers ↔
      (ofList schemas).get? identifier ≠ none :=
    SortedMap.mem_keys_iff.trans Option.ne_none_iff_exists'.symm
  rw [hthere, ne_eq, get?_ofList_eq_none_iff]
  push Not
  rfl

/-- The identifiers come in the order of their bytes. -/
theorem pairwise_identifiers_ofList (schemas : List Schema) :
    (ofList schemas).identifiers.Pairwise fun i j => bytes i < bytes j := by
  refine List.pairwise_map.mpr ((ofList schemas).byIdentifier.increasing.imp ?_)
  intro e e' hlt
  exact bytes_lt_iff.mpr (Std.LawfulLTCmp.eq_lt_iff_lt.mp hlt)

/-- The schemas that are there are found under the identifiers. -/
theorem schemas_ofList (schemas : List Schema) :
    (ofList schemas).schemas = (ofList schemas).identifiers.filterMap (ofList schemas).get? := by
  unfold SchemaSet.schemas identifiers SortedMap.values SortedMap.keys
  rw [List.filterMap_map, ← List.filterMap_eq_map']
  exact List.filterMap_congr fun e he => (SortedMap.get?_of_mem he).symm

/-! ## The order of artifacts -/

theorem identifier_of_mem_artifacts {s : Schema} {l : Layout} {x : Artifact}
    (hx : x ∈ s.artifacts l) : x.identifier = s.identifier := by
  obtain ⟨e, he, rfl⟩ := List.mem_map.mp hx
  obtain ⟨v, -, rfl⟩ := List.mem_map.mp he
  rfl

/-- The artifacts come in the order of identifiers and, for one, of variants. -/
theorem pairwise_artifacts_ofList (schemas : List Schema) (l : Layout) :
    ((ofList schemas).artifacts l).Pairwise Artifact.Before := by
  have hschemas : (ofList schemas).schemas.Pairwise
      fun s t => bytes s.identifier < bytes t.identifier := by
    refine List.pairwise_map.mpr (List.Pairwise.imp_of_mem ?_
      (List.pairwise_map.mp (pairwise_identifiers_ofList schemas)))
    intro e e' he he' hlt
    rwa [(ofList schemas).keyed e he, (ofList schemas).keyed e' he']
  unfold artifacts
  refine List.pairwise_flatMap.mpr ⟨fun s _ => ?_, hschemas.imp ?_⟩
  · -- The three of one schema are in the order of the variants.
    have hranks : Variant.all.Pairwise fun v w => v.rank < w.rank := by decide
    refine List.pairwise_map.mpr (List.pairwise_map.mpr (hranks.imp ?_))
    exact fun hlt => .inr ⟨rfl, hlt⟩
  · intro s t hlt x hx y hy
    rw [Artifact.Before, identifier_of_mem_artifacts hx, identifier_of_mem_artifacts hy]
    exact .inl hlt

/-! ## Another order of insertion -/

theorem filter_eq_map_finRange {α : Type} (p : α → Bool) (l : List α) :
    l.filter p = ((List.finRange l.length).filter fun i => p l[i]).map fun i => l[i] := by
  conv => lhs; rw [← List.map_getElem_finRange l]
  rw [List.filter_map]
  rfl

/-- A reordering keeps the schemas of one identifier in order. -/
theorem filter_eq_of_reorders (h : Reorders schemas schemas') (identifier : String) :
    schemas'.filter (fun s => identifier = s.identifier)
      = schemas.filter fun s => identifier = s.identifier := by
  obtain ⟨σ, hσ, hkeep⟩ := h
  -- The places of the identifier in one list are those in the other, in the same order.
  have hplaces : ((List.finRange schemas'.length).filter
        fun i => decide (identifier = schemas'[i].identifier)).map σ
      = (List.finRange schemas.length).filter
        fun i => decide (identifier = schemas[i].identifier) := by
    have hincreasing : (((List.finRange schemas'.length).filter
        fun i => decide (identifier = schemas'[i].identifier)).map σ).Pairwise (· < ·) := by
      refine List.pairwise_map.mpr (List.Pairwise.imp_of_mem ?_
        ((List.pairwise_lt_finRange _).filter _))
      intro i j hi hj hlt
      have hi' := of_decide_eq_true (List.mem_filter.mp hi).2
      have hj' := of_decide_eq_true (List.mem_filter.mp hj).2
      exact hkeep i j hlt (hi'.symm.trans hj')
    have hsorted := (List.pairwise_lt_finRange schemas.length).filter
      fun i => decide (identifier = schemas[i].identifier)
    refine List.Perm.eq_of_pairwise (fun i j _ _ hlt hgt => absurd hlt (lt_asymm hgt)) hincreasing
      hsorted
      ((List.perm_ext_iff_of_nodup (hincreasing.imp ne_of_lt) (hsorted.imp ne_of_lt)).mpr ?_)
    intro j
    simp only [List.mem_map, List.mem_filter, List.mem_finRange, true_and, decide_eq_true_eq]
    constructor
    · rintro ⟨i, hi, rfl⟩
      rwa [← hσ i]
    · intro hj
      obtain ⟨i, rfl⟩ := σ.surjective j
      exact ⟨i, by rwa [hσ i], rfl⟩
  rw [filter_eq_map_finRange _ schemas', filter_eq_map_finRange _ schemas, ← hplaces, List.map_map]
  exact List.map_congr_left fun i _ => hσ i

/-- Only the order of schemas with one identifier matters. -/
theorem ofList_eq_of_reorders (h : Reorders schemas schemas') :
    ofList schemas' = ofList schemas := by
  have hfilter : ∀ l : List Schema, ∀ identifier,
      (underIdentifiers l).filter (fun e => compare identifier e.1 == .eq)
        = underIdentifiers (l.filter fun s => identifier = s.identifier) := by
    intro l identifier
    rw [underIdentifiers, List.filter_map, underIdentifiers]
    refine congrArg _ (List.filter_congr fun s _ => ?_)
    rw [Bool.eq_iff_iff]
    simp [Std.LawfulEqCmp.compare_eq_iff_eq]
  have hmap : SortedMap.insertAll .empty (underIdentifiers schemas')
      = SortedMap.insertAll .empty (underIdentifiers schemas) := by
    refine SortedMap.insertAll_eq_of_filter fun identifier => ?_
    rw [hfilter, hfilter, filter_eq_of_reorders h]
  refine SchemaSet.ext ?_ ?_
  · rw [byIdentifier_ofList, byIdentifier_ofList, hmap]
  · rw [ofList, ofList, skipped_foldl_insert, skipped_foldl_insert]

/-! ## Insertions and artifacts -/

/-- **A schema set holds the schemas that were inserted last, and its artifacts are in order.** A
sequence of insertions into the empty set leaves the same set as the list of its schemas. Each
insertion gives back what those before it have left under its identifier. There is the last schema
with each identifier, under its own identifier, and as many as there are different identifiers. The
artifacts are those of these schemas in all three variants, identifiers in the order of their
bytes, so each artifact comes before those behind it. And they are the same for schemas in another
order, in which those with one identifier stand as before. -/
theorem holds_last_insertions (schemas : List Schema) (l : Layout) :
    (SchemaSet.empty.replaceAll schemas).2 = ofList schemas ∧
      (SchemaSet.empty.replaceAll schemas).1.length = schemas.length ∧
      (∀ before s after, schemas = before ++ s :: after →
        (SchemaSet.empty.replaceAll schemas).1[before.length]?
          = some ((ofList before).get? s.identifier)) ∧
      (∀ identifier s, (ofList schemas).get? identifier = some s ↔
        IsLast (fun t => t.identifier = identifier) schemas s) ∧
      (∀ identifier, (ofList schemas).get? identifier = none ↔
        ∀ s ∈ schemas, s.identifier ≠ identifier) ∧
      (∀ e ∈ (ofList schemas).byIdentifier.entries, e.2.identifier = e.1) ∧
      (ofList schemas).size = (schemas.map Schema.identifier).dedup.length ∧
      ((ofList schemas).identifiers.Pairwise fun i j => bytes i < bytes j) ∧
      (∀ identifier, identifier ∈ (ofList schemas).identifiers ↔
        ∃ s ∈ schemas, s.identifier = identifier) ∧
      (ofList schemas).artifacts l
        = ((ofList schemas).identifiers.filterMap (ofList schemas).get?).flatMap (fun s =>
            [(s.entity l .app).artifact, (s.entity l .relational).artifact,
              (s.entity l .document).artifact]) ∧
      ((ofList schemas).artifacts l).Pairwise Artifact.Before ∧
      ∀ schemas', Reorders schemas schemas' →
        (ofList schemas').artifacts l = (ofList schemas).artifacts l := by
  refine ⟨replaceAll_snd .empty schemas, length_replaceAll .empty schemas, ?_, ?_, ?_, ?_,
    size_ofList schemas, pairwise_identifiers_ofList schemas, ?_, ?_,
    pairwise_artifacts_ofList schemas l, ?_⟩
  · rintro before s after rfl
    exact replaceAll_fst .empty before s after
  · exact fun identifier s => get?_ofList_eq_some_iff
  · exact fun identifier => get?_ofList_eq_none_iff
  · exact (ofList schemas).keyed
  · exact fun identifier => mem_identifiers_ofList
  · rw [artifacts, schemas_ofList]
    rfl
  · intro schemas' h
    rw [ofList_eq_of_reorders h]

/-- A table that is inserted twice, with another in between. -/
def usersTwice : List Schema :=
  [⟨"users", [⟨["id"]⟩]⟩, ⟨"orders", []⟩, ⟨"users", [⟨["name"]⟩]⟩]

/-- The same with the other table in front. -/
def ordersFirst : List Schema :=
  [⟨"orders", []⟩, ⟨"users", [⟨["id"]⟩]⟩, ⟨"users", [⟨["name"]⟩]⟩]

/-- The second insertion gives back the first, and the other table may come at any time. -/
theorem holds_last_of_usersTwice :
    Reorders usersTwice ordersFirst ∧
      (SchemaSet.empty.replaceAll usersTwice).1[2]? = some (some ⟨"users", [⟨["id"]⟩]⟩) ∧
      (ofList usersTwice).get? "users" = some ⟨"users", [⟨["name"]⟩]⟩ ∧
      (ofList usersTwice).size = 2 ∧
      (ofList ordersFirst).artifacts {} = (ofList usersTwice).artifacts {} := by
  have hreorders : Reorders usersTwice ordersFirst :=
    ⟨(Equiv.swap (0 : Fin 3) 1 : Fin 3 ≃ Fin 3), by decide, by decide⟩
  obtain ⟨-, -, hreplaced, hlast, -, -, hsize, -, -, -, -, hsame⟩ :=
    holds_last_insertions usersTwice {}
  refine ⟨hreorders, ?_, ?_, ?_, hsame ordersFirst hreorders⟩
  · exact hreplaced [⟨"users", [⟨["id"]⟩]⟩, ⟨"orders", []⟩] ⟨"users", [⟨["name"]⟩]⟩ [] rfl
  · refine (hlast _ _).mpr ⟨[⟨"users", [⟨["id"]⟩]⟩, ⟨"orders", []⟩], [], rfl, rfl, ?_⟩
    exact fun t ht => absurd ht List.not_mem_nil
  · rw [hsize]
    decide

end SchemaSet

end JavaEntities
