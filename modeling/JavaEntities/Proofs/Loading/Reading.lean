import JavaEntities.Loading
import JavaEntities.Proofs.Schema.LineEnds

/-!
# What reading an input gives

An input is read if its path gives an identifier and its text can be had; the reading is then
that of the text (`readSchema_eq_ok_iff`). The text is read line by line: no line, whichever
way it ends, has a say in the rows of another, and the lines that give no row are the blank
ones that the reading counts (`rows_line_by_line`).
-/

namespace JavaEntities

open Text

variable {fs : FileSystem} {p : Path} {r : Reading} {e : Error}

/-- An input is read if it has an identifier and a text. -/
theorem readSchema_eq_ok_iff :
    readSchema fs p = .ok r ↔ ∃ identifier text, identifierOf p = some identifier ∧
      fs.readText p = .ok text ∧ r = ⟨⟨identifier, parseRows text⟩, blankLines text⟩ := by
  unfold readSchema
  cases identifierOf p with
  | none => simp
  | some identifier =>
    cases fs.readText p with
    | error cause => simp
    | ok text => simp [eq_comm]

/-- An input with an identifier cannot be read only if its text cannot. -/
theorem readSchema_eq_error_iff (h : ∃ identifier, identifierOf p = some identifier) :
    readSchema fs p = .error e ↔
      ∃ cause, fs.readText p = .error cause ∧ e = .inputRead p cause := by
  obtain ⟨identifier, hidentifier⟩ := h
  unfold readSchema
  rw [hidentifier]
  cases fs.readText p with
  | error cause => simp [eq_comm]
  | ok text => simp

/-- The schema of an input has the identifier of the input. -/
theorem identifierOf_of_readSchema (h : readSchema fs p = .ok r) :
    identifierOf p = some r.schema.identifier := by
  obtain ⟨identifier, text, hidentifier, -, rfl⟩ := readSchema_eq_ok_iff.mp h
  exact hidentifier

/-- **Rows are read line by line, whatever the line ends.** A line feed between two texts keeps
their rows apart. Writing every line feed with a carriage return before it, or every such pair as
a line feed alone, gives the same rows. Every line of a text is a row or blank, so of an input that
is read there are no more rows than lines, and taking the rows away from the lines leaves the
blank ones. -/
theorem rows_line_by_line (a b content : String) :
    parseRows (a ++ "\n" ++ b) = parseRows a ++ parseRows b ∧
      parseRows (replaceAll "\n" "\r\n" content) = parseRows content ∧
      parseRows (replaceAll "\r\n" "\n" content) = parseRows content ∧
      (lines content.toList).length
        = (parseRows content).length + (lines content.toList).countP allBlank ∧
      ∀ (fs : FileSystem) (p : Path) (r : Reading), readSchema fs p = .ok r →
        ∃ text, fs.readText p = .ok text ∧ r.schema.fields = parseRows text ∧
          r.schema.fields.length ≤ (lines text.toList).length ∧
          r.blank = (lines text.toList).length - r.schema.fields.length ∧
          r.blank = (lines text.toList).countP allBlank := by
  refine ⟨parseRows_append_newline a b, parseRows_replaceAll_newline content,
    parseRows_replaceAll_return content, length_lines_eq content, ?_⟩
  intro fs p r hread
  obtain ⟨identifier, text, -, htext, rfl⟩ := readSchema_eq_ok_iff.mp hread
  have hle : (parseRows text).length ≤ (lines text.toList).length :=
    Nat.le.intro (length_lines_eq text).symm
  exact ⟨text, htext, rfl, hle, rfl, blankLines_eq_countP text⟩

/-- A table with both line ends, a blank line of either kind, and a carriage return at its end. -/
def mixedTable : FileSystem where
  root := .dir [("users.csv", .file "id,,Numeric\r\n\r\n \nname\r".toUTF8)]

/-- Two of its four lines are rows. -/
theorem rows_of_mixedTable :
    readSchema mixedTable ⟨"users.csv"⟩
        = .ok ⟨⟨"users", [⟨["id", "", "Numeric"]⟩, ⟨["name"]⟩]⟩, 2⟩ ∧
      ∃ text, mixedTable.readText ⟨"users.csv"⟩ = .ok text ∧ 2 ≤ (lines text.toList).length ∧
        (lines text.toList).countP allBlank = 2 := by
  have hread : readSchema mixedTable ⟨"users.csv"⟩
      = .ok ⟨⟨"users", [⟨["id", "", "Numeric"]⟩, ⟨["name"]⟩]⟩, 2⟩ := by rfl
  obtain ⟨text, htext, -, hle, -, hblank⟩ :=
    (rows_line_by_line "" "" "").2.2.2.2 mixedTable ⟨"users.csv"⟩ _ hread
  exact ⟨hread, text, htext, hle, hblank.symm⟩

end JavaEntities
