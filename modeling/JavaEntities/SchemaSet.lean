import JavaEntities.Path
import JavaEntities.Schema
import JavaEntities.SortedMap

/-!
# Schema sets

The schemas of one run, each under its identifier, with the inputs that were
passed over. A schema takes the place of an earlier one with its identifier. That each
schema stands under its own identifier is a part of the set.

Mirrors `SchemaSet` and its `insert`, which is split: `insert` is the set
afterwards, and `replace` gives the schema that had the identifier too.
-/

namespace JavaEntities

/-- Schemas under their identifiers, and the inputs passed over in order. -/
structure SchemaSet where
  byIdentifier : SortedMap String Schema
  skipped : List Path
  keyed : ∀ e ∈ byIdentifier.entries, e.2.identifier = e.1

namespace SchemaSet

/-- The set without schemas. -/
def empty : SchemaSet := ⟨.empty, [], fun _ he => absurd he List.not_mem_nil⟩

/-- The schema under an identifier. -/
def get? (set : SchemaSet) (identifier : String) : Option Schema :=
  set.byIdentifier.get? identifier

/-- Two sets with the same schemas that passed over the same inputs are the same. -/
@[ext]
theorem ext {set set' : SchemaSet} (hschemas : set.byIdentifier = set'.byIdentifier)
    (hskipped : set.skipped = set'.skipped) : set = set' := by
  cases set
  cases set'
  congr

/-- A schema that is put under its identifier leaves every schema under its own. -/
theorem keyed_insertEntry {set : SchemaSet} {s : Schema} {e : String × Schema}
    (he : e ∈ SortedMap.insertEntry s.identifier s set.byIdentifier.entries) :
    e.2.identifier = e.1 := by
  rcases SortedMap.mem_insertEntry he with ⟨heq | hkey, hvalue⟩ | he
  · rw [hvalue]
    exact Std.LawfulEqCmp.eq_of_compare heq
  · rw [hvalue, hkey]
  · exact set.keyed e he

/-- The set with a schema under its identifier. -/
def insert (set : SchemaSet) (s : Schema) : SchemaSet where
  byIdentifier := set.byIdentifier.insert s.identifier s
  skipped := set.skipped
  keyed _ he := keyed_insertEntry he

/-- The schema that a new one takes the place of, and the set with the new one. -/
def replace (set : SchemaSet) (s : Schema) : Option Schema × SchemaSet :=
  let replaced := set.byIdentifier.replace s.identifier s
  (replaced.1,
    { byIdentifier := replaced.2
      skipped := set.skipped
      keyed := by
        intro e he
        have hentries : replaced.2.entries
            = SortedMap.insertEntry s.identifier s set.byIdentifier.entries :=
          SortedMap.replaceEntry_snd ..
        rw [hentries] at he
        exact keyed_insertEntry he })

/-- The set with one more input passed over. -/
def skip (set : SchemaSet) (input : Path) : SchemaSet :=
  { set with skipped := set.skipped ++ [input] }

/-- The schemas in the order of their identifiers. -/
def schemas (set : SchemaSet) : List Schema :=
  set.byIdentifier.values

/-- The identifiers in increasing order. -/
def identifiers (set : SchemaSet) : List String :=
  set.byIdentifier.keys

/-- The number of schemas. -/
def size (set : SchemaSet) : Nat :=
  set.byIdentifier.size

/-- Insertions one after the other: the schemas that each takes the place of, and the set in the
end. -/
def replaceAll (set : SchemaSet) : List Schema → List (Option Schema) × SchemaSet
  | [] => ([], set)
  | s :: rest =>
    let (old, set) := set.replace s
    let (olds, set) := set.replaceAll rest
    (old :: olds, set)

/-- The set of the schemas of a list; of two with one identifier the later stays. -/
def ofList (schemas : List Schema) : SchemaSet :=
  schemas.foldl insert empty

end SchemaSet

end JavaEntities
