import JavaEntities.Toml.Expression

/-!
# TOML documents

A document is read line by line: a header names the table that the keys after it
belong to.

Mirrors the reader of documents behind `from_toml`, without its messages: a text
that is no document has no table, and why is not said.
-/

namespace JavaEntities.Toml

/-- The entries of a document and the table that keys go to. -/
structure Document where
  current : List String := []
  entries : Draft.Entries := []

namespace Document

/-- The document with one more line. -/
def add (d : Document) : Line → Option Document
  | .assign k v =>
    (Draft.within (Draft.assign v k) d.current d.entries).map fun es => { d with entries := es }
  | .header k => (Draft.openTable k d.entries).map fun es => ⟨k, es⟩
  | .arrayHeader k => (Draft.openTables k d.entries).map fun es => ⟨k, es⟩

end Document

/-- A reader of documents: the table that a text describes, none if the text is no document. -/
abbrev TableReader := String → Option (List (String × Value))

/-- The table that a document describes, none if the text is no document. -/
def parse? (text : String) : Option (List (String × Value)) :=
  let s := skipByteOrderMark text.toList
  (linesTo (s.length + 1) s).bind fun lines =>
    (lines.foldlM Document.add {}).map fun d => Draft.finishEntries d.entries

end JavaEntities.Toml
