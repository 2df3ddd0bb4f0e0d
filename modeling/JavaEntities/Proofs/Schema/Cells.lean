import JavaEntities.Proofs.Text.Pieces
import JavaEntities.Schema.Rows

/-!
# Cells of a table that was read

Reading cuts a text at line feeds and each line at commas, and takes characters off
the ends of what is left, so no cell of a row can hold either (`Field.Clean`).
What a class takes from a row is a cell, a cell that is missing and so empty, or
one of three class names, and inherits this.
-/

namespace JavaEntities

open Text

/-! ## Trimming -/

theorem mem_of_mem_trim {s : List Char} {c : Char} (h : c ∈ trim s) : c ∈ s := by
  rw [trim, trimEnd, List.mem_reverse] at h
  have h₁ := (List.dropWhile_sublist _).subset h
  rw [List.mem_reverse] at h₁
  exact (List.dropWhile_sublist _).subset h₁

/-! ## Lines -/

theorem mem_of_mem_dropReturn {line : List Char} {c : Char} (h : c ∈ dropReturn line) :
    c ∈ line := by
  rw [dropReturn] at h
  by_cases hr : line.getLast? = some '\r'
  · rw [if_pos hr] at h
    exact (List.dropLast_sublist _).subset h
  · rwa [if_neg hr] at h

/-- Every line is made of characters of one piece. -/
theorem exists_piece_of_mem_linesOfPieces : ∀ {ps : List (List Char)} {line : List Char},
    line ∈ linesOfPieces ps → ∃ p ∈ ps, ∀ c ∈ line, c ∈ p
  | [], _, h => absurd h List.not_mem_nil
  | [last], line, h => by
    rw [linesOfPieces] at h
    by_cases hl : last = []
    · rw [if_pos hl] at h
      exact absurd h List.not_mem_nil
    · rw [if_neg hl, List.mem_singleton] at h
      exact ⟨last, List.mem_singleton_self _, fun c hc => h ▸ hc⟩
  | p :: q :: ps, line, h => by
    rw [linesOfPieces] at h
    rcases List.mem_cons.mp h with rfl | h
    · exact ⟨p, List.mem_cons_self .., fun c hc => mem_of_mem_dropReturn hc⟩
    · obtain ⟨r, hr, hc⟩ := exists_piece_of_mem_linesOfPieces h
      exact ⟨r, List.mem_cons_of_mem _ hr, hc⟩

/-- A line holds no line feed. -/
theorem newline_not_mem_line {s line : List Char} (h : line ∈ lines s) : '\n' ∉ line := by
  obtain ⟨p, hp, hc⟩ := exists_piece_of_mem_linesOfPieces h
  exact fun hn => not_mem_of_mem_split hp (hc _ hn)

/-! ## Cells -/

namespace Field

/-- Whether no cell of a row holds one of the characters that cut a table into cells. -/
def Clean (f : Field) : Prop :=
  ∀ cell ∈ f.cells, ',' ∉ cell.toList ∧ '\n' ∉ cell.toList

/-- The cells of a line have no commas and no line feeds. -/
theorem clean_ofLine {line : List Char} (h : '\n' ∉ line) : (ofLine line).Clean := by
  intro cell hcell
  obtain ⟨p, hp, rfl⟩ := List.mem_map.mp hcell
  rw [String.toList_ofList]
  constructor
  · exact fun hc => not_mem_of_mem_split hp (mem_of_mem_trim hc)
  · exact fun hn => h (mem_of_mem_split hp _ (mem_of_mem_trim hn))

/-- A cell that is missing is as clean as the others. -/
theorem Clean.cell {f : Field} (h : f.Clean) (i : Nat) :
    ',' ∉ (f.cell i).toList ∧ '\n' ∉ (f.cell i).toList := by
  rw [Field.cell, List.getD_eq_getElem?_getD]
  cases hi : f.cells[i]? with
  | none => exact ⟨by simp, by simp⟩
  | some cell => exact h cell (List.mem_of_getElem? hi)

theorem Clean.name {f : Field} (h : f.Clean) : ',' ∉ f.name.toList ∧ '\n' ∉ f.name.toList :=
  h.cell 0

theorem Clean.javaType {f : Field} (h : f.Clean) :
    ',' ∉ f.javaType.toList ∧ '\n' ∉ f.javaType.toList := by
  -- The type is one of three class names or the declared type, which is a cell.
  rw [Field.javaType, javaClassOf]
  by_cases h₁ : f.declaredType = "Numeric"
  · rw [if_pos h₁]; decide
  · by_cases h₂ : f.declaredType = "Varchar"
    · rw [if_neg h₁, if_pos h₂]; decide
    · by_cases h₃ : f.declaredType = "Datetime"
      · rw [if_neg h₁, if_neg h₂, if_pos h₃]; decide
      · rw [if_neg h₁, if_neg h₂, if_neg h₃]
        exact h.cell 2

end Field

/-- Every row that was read is clean, whatever the text. -/
theorem clean_of_mem_parseRows {content : String} {f : Field} (h : f ∈ parseRows content) :
    f.Clean := by
  obtain ⟨line, hline, rfl⟩ := List.mem_map.mp h
  exact Field.clean_ofLine (newline_not_mem_line (List.mem_filter.mp hline).1)

end JavaEntities
