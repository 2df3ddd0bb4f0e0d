import JavaEntities.Toml.Value

/-!
# Tables of TOML while a document is read

A table can be opened in several ways, and what may be added to it later depends
on the way. A header opens a table once; the tables on the way to it are implied
and may get a header of their own later. Dotted keys open tables that only dotted
keys may add to, and that no header may name. Tables in braces and arrays in
brackets are finished values. A header in double brackets adds a table to an
array, and keys then go to the table added last.
-/

namespace JavaEntities.Toml

/-- How a table was opened. -/
inductive Origin
  /-- By a header of its own. -/
  | header
  /-- On the way to a table with a header. -/
  | implied
  /-- By a dotted key. -/
  | dotted
  deriving DecidableEq, Repr, Inhabited

/-- A part of a document that is still being read. -/
inductive Draft
  /-- A finished value. -/
  | finished (v : Value)
  /-- A table that may grow. -/
  | table (origin : Origin) (entries : List (String × Draft))
  /-- An array of tables, the last one first. -/
  | tables (latest : List (String × Draft)) (earlier : List (List (String × Draft)))
  deriving Inhabited

namespace Draft

/-- The entries of a table that may grow. -/
abbrev Entries := List (String × Draft)

/-- Changes the entry under a key; a new entry comes last. -/
def alter (k : String) (f : Option Draft → Option Draft) : Entries → Option Entries
  | [] => (f none).map fun d => [(k, d)]
  | (k', d) :: rest =>
    if k' = k then (f (some d)).map fun d' => (k', d') :: rest
    else (alter k f rest).map ((k', d) :: ·)

/-- Changes the table that a header names, opening those on the way. -/
def within (f : Entries → Option Entries) : List String → Entries → Option Entries
  | [], es => f es
  | k :: ks, es =>
    alter k (fun
      | none => (within f ks []).map (.table .implied)
      | some (.table origin sub) => (within f ks sub).map (.table origin)
      | some (.tables latest earlier) => (within f ks latest).map fun t => .tables t earlier
      | some (.finished _) => none) es

/-- Opens the table that a header names. -/
def openTable (path : List String) (es : Entries) : Option Entries :=
  match path.getLast? with
  | none => none
  | some k =>
    within (alter k fun
      | none => some (.table .header [])
      | some (.table .implied sub) => some (.table .header sub)
      | some _ => none) path.dropLast es

/-- Adds a table to the array that a header in double brackets names. -/
def openTables (path : List String) (es : Entries) : Option Entries :=
  match path.getLast? with
  | none => none
  | some k =>
    within (alter k fun
      | none => some (.tables [] [])
      | some (.tables latest earlier) => some (.tables [] (latest :: earlier))
      | some _ => none) path.dropLast es

/-- Sets the value of a key. A dotted key may pass through tables that are implied
or in an array, but it adds only to a table that dotted keys opened. -/
def assign (v : Value) : List String → Entries → Option Entries
  | [], _ => none
  | [k], es =>
    alter k (fun
      | none => some (.finished v)
      | some _ => none) es
  | k :: ks, es =>
    let passing : Bool := ks.length ≠ 1
    alter k (fun
      | none => (assign v ks []).map (.table .dotted)
      | some (.table .dotted sub) => (assign v ks sub).map (.table .dotted)
      | some (.table .implied sub) =>
        if passing then (assign v ks sub).map (.table .implied) else none
      | some (.tables latest earlier) =>
        if passing then (assign v ks latest).map fun t => .tables t earlier else none
      | some _ => none) es

mutual

/-- The value of a part that is read to its end. -/
def finish : Draft → Value
  | .finished v => v
  | .table _ entries => .table (finishEntries entries)
  | .tables latest earlier => .array (finishTables (latest :: earlier)).reverse

/-- The entries of a table that is read to its end. -/
def finishEntries : List (String × Draft) → List (String × Value)
  | [] => []
  | (k, d) :: rest => (k, d.finish) :: finishEntries rest

/-- The tables of an array that is read to its end, in the order given. -/
def finishTables : List (List (String × Draft)) → List Value
  | [] => []
  | t :: rest => .table (finishEntries t) :: finishTables rest

end

/-- The table that assignments in braces describe. -/
def ofAssignments (assignments : List (List String × Value)) : Option Value :=
  (assignments.foldlM (fun es (k, v) => assign v k es) []).map fun es =>
    .table (finishEntries es)

end Draft

end JavaEntities.Toml
