import Mathlib.Data.List.TakeWhile
import JavaEntities.Proofs.Schema.Cells

/-!
# Rows that can be written

Reading gives back rows that were written as text, cell for cell, if and only if they are
rows as reading gives them (`Field.IsRow`): without the characters that cut a table, without
blanks at the ends of a cell, and not blank throughout. Every row that was read is such a
row, so a table that is read, written and read again is the same (`parseRows_roundtrip`).

The text of such a row neither begins nor ends with a blank character, so it is no blank
line and has no carriage return before its line feed.
-/

namespace JavaEntities

namespace Text

/-! ## Trimmed texts -/

/-- Whether a text neither begins nor ends with a blank character. -/
structure Trimmed (s : List Char) : Prop where
  head : ∀ c ∈ s.head?, isBlank c = false
  last : ∀ c ∈ s.getLast?, isBlank c = false

theorem trimmed_iff {s : List Char} :
    Trimmed s ↔ s.head?.all (fun c => !isBlank c) = true ∧
      s.getLast?.all (fun c => !isBlank c) = true := by
  simp only [Option.all_eq_true, Bool.not_eq_true']
  exact ⟨fun h => ⟨h.head, h.last⟩, fun h => ⟨h.1, h.2⟩⟩

instance (s : List Char) : Decidable (Trimmed s) :=
  decidable_of_iff _ trimmed_iff.symm

theorem Trimmed.reverse {s : List Char} (h : Trimmed s) : Trimmed s.reverse where
  head := by rw [List.head?_reverse]; exact h.last
  last := by rw [List.getLast?_reverse]; exact h.head

theorem isBlank_head_dropWhile {s : List Char} {c : Char}
    (h : c ∈ (s.dropWhile isBlank).head?) : isBlank c = false := by
  have hstop := List.head?_dropWhile_not isBlank s
  rw [Option.mem_def] at h
  rw [h] at hstop
  exact hstop

theorem dropWhile_eq_self {s : List Char} (h : ∀ c ∈ s.head?, isBlank c = false) :
    s.dropWhile isBlank = s := by
  cases s with
  | nil => rfl
  | cons c s => rw [List.dropWhile_cons_of_neg (by simp [h c rfl])]

/-- A trimmed text is left as it is. -/
theorem trim_eq_self {s : List Char} (h : Trimmed s) : trim s = s := by
  rw [trim, trimEnd, dropWhile_eq_self h.head, dropWhile_eq_self h.reverse.head,
    List.reverse_reverse]

/-- What is trimmed has no blanks at its ends. -/
theorem trimmed_trim (s : List Char) : Trimmed (trim s) := by
  constructor
  · -- What is left at the start is the start of what was left before the end was taken off.
    intro c hc
    have hpre : trim s <+: s.dropWhile isBlank := by
      rw [trim, trimEnd, ← List.reverse_suffix, List.reverse_reverse]
      exact List.dropWhile_suffix _
    obtain ⟨rest, hrest⟩ := hpre
    refine isBlank_head_dropWhile (s := s) ?_
    rw [← hrest, List.head?_append, Option.mem_def.mp hc]
    rfl
  · intro c hc
    rw [trim, trimEnd, List.getLast?_reverse] at hc
    exact isBlank_head_dropWhile hc

/-- Nothing is left of a text when all of it is blank. -/
theorem trim_eq_nil_iff {s : List Char} : trim s = [] ↔ allBlank s = true := by
  rw [trim, trimEnd, List.reverse_eq_nil_iff, List.dropWhile_eq_nil_iff, allBlank, List.all_eq_true]
  constructor
  · intro h
    -- A character that stops the first removal would not be blank, so it has removed everything.
    cases hs : s.dropWhile isBlank with
    | nil => exact List.dropWhile_eq_nil_iff.mp hs
    | cons c rest =>
      have hc : isBlank c = true := h c (by simp [hs])
      rw [isBlank_head_dropWhile (s := s) (c := c) (by rw [hs]; rfl)] at hc
      exact absurd hc Bool.false_ne_true
  · intro h c hc
    exact h c ((List.dropWhile_sublist _).subset (List.mem_reverse.mp hc))

theorem not_allBlank {s : List Char} (h : Trimmed s) (hne : s ≠ []) : allBlank s = false := by
  rw [← Bool.not_eq_true, ← trim_eq_nil_iff, trim_eq_self h]
  exact hne

/-! ## Joined texts -/

theorem mem_join {sep c : Char} {ps : List (List Char)} (h : c ∈ join sep ps) :
    c = sep ∨ ∃ p ∈ ps, c ∈ p := by
  induction ps with
  | nil => exact absurd h List.not_mem_nil
  | cons p ps ih =>
    cases ps with
    | nil => exact .inr ⟨p, List.mem_cons_self .., h⟩
    | cons q qs =>
      rw [join, List.mem_append, List.mem_cons] at h
      rcases h with h | h | h
      · exact .inr ⟨p, List.mem_cons_self .., h⟩
      · exact .inl h
      · rcases ih h with h | ⟨r, hr, hc⟩
        · exact .inl h
        · exact .inr ⟨r, List.mem_cons_of_mem _ hr, hc⟩

/-- Trimmed texts stay so when they are joined by a separator that is not blank. -/
theorem trimmed_join {sep : Char} (hsep : isBlank sep = false) {ps : List (List Char)}
    (hps : ∀ p ∈ ps, Trimmed p) : Trimmed (join sep ps) := by
  induction ps with
  | nil => exact ⟨fun c hc => (nomatch hc), fun c hc => (nomatch hc)⟩
  | cons p ps ih =>
    have hp := hps p (List.mem_cons_self ..)
    cases ps with
    | nil => exact hp
    | cons q qs =>
      have hrest := ih fun r hr => hps r (List.mem_cons_of_mem _ hr)
      rw [join]
      constructor
      · intro c hc
        rw [List.head?_append, Option.mem_def, Option.or_eq_some_iff] at hc
        rcases hc with hc | ⟨-, hc⟩
        · exact hp.head c hc
        · rw [← Option.some.inj hc]
          exact hsep
      · intro c hc
        rw [List.getLast?_append, List.getLast?_cons, Option.some_or, Option.mem_def,
          Option.some.injEq] at hc
        cases hlast : (join sep (q :: qs)).getLast? with
        | none =>
          rw [hlast, Option.getD_none] at hc
          rwa [← hc]
        | some d =>
          rw [hlast, Option.getD_some] at hc
          rw [← hc]
          exact hrest.last d hlast

/-! ## Lines -/

/-- Pieces that are not empty and do not end in a carriage return are lines as they are. -/
theorem linesOfPieces_eq_self {ps : List (List Char)}
    (hps : ∀ p ∈ ps, p ≠ [] ∧ p.getLast? ≠ some '\r') : linesOfPieces ps = ps := by
  induction ps with
  | nil => rfl
  | cons p ps ih =>
    obtain ⟨hne, hreturn⟩ := hps p (List.mem_cons_self ..)
    cases ps with
    | nil => rw [linesOfPieces, if_neg hne]
    | cons q qs =>
      rw [linesOfPieces, dropReturn, if_neg hreturn,
        ih fun r hr => hps r (List.mem_cons_of_mem _ hr)]

/-- The lines that a text is put together from. -/
theorem lines_join {ls : List (List Char)} (hfeed : ∀ l ∈ ls, '\n' ∉ l)
    (hls : ∀ l ∈ ls, l ≠ [] ∧ l.getLast? ≠ some '\r') : lines (join '\n' ls) = ls := by
  by_cases hne : ls = []
  · rw [hne]
    rfl
  · rw [lines, split_join hfeed hne, linesOfPieces_eq_self hls]

end Text

open Text

/-! ## Rows -/

/-- Whether a row is one that reading can give: it has at least one cell and is not a single
empty one, and its cells hold no comma and no line feed and neither begin nor end with a blank
character. -/
structure Field.IsRow (f : Field) : Prop where
  cells_ne_nil : f.cells ≠ []
  clean : f.Clean
  trimmed : ∀ cell ∈ f.cells, Trimmed cell.toList
  ne_empty : f.cells ≠ [""]

namespace Field

instance (f : Field) : Decidable f.Clean :=
  inferInstanceAs (Decidable (∀ cell ∈ f.cells, ',' ∉ cell.toList ∧ '\n' ∉ cell.toList))

instance (f : Field) : Decidable f.IsRow :=
  decidable_of_iff (f.cells ≠ [] ∧ f.Clean ∧ (∀ cell ∈ f.cells, Trimmed cell.toList) ∧
      f.cells ≠ [""])
    ⟨fun h => ⟨h.1, h.2.1, h.2.2.1, h.2.2.2⟩,
      fun h => ⟨h.cells_ne_nil, h.clean, h.trimmed, h.ne_empty⟩⟩

variable {f : Field}

/-- A line that is not blank gives a row. -/
theorem isRow_ofLine {line : List Char} (hfeed : '\n' ∉ line) (hblank : allBlank line = false) :
    (ofLine line).IsRow where
  cells_ne_nil h := split_ne_nil ',' line (List.map_eq_nil_iff.mp h)
  clean := clean_ofLine hfeed
  trimmed cell hcell := by
    obtain ⟨p, -, rfl⟩ := List.mem_map.mp hcell
    rw [String.toList_ofList]
    exact trimmed_trim p
  ne_empty h := by
    -- The only piece of a line without commas is the line, so the line would be blank.
    obtain ⟨p, hp, hempty⟩ := List.map_eq_singleton_iff.mp h
    have hline : p = line := by
      have hjoin := join_split ',' line
      rwa [hp] at hjoin
    have htrim : trim p = [] := by simpa using congrArg String.toList hempty
    rw [hline, trim_eq_nil_iff, hblank] at htrim
    exact nomatch htrim

/-- A row is read back from its line. -/
theorem ofLine_toLine (h : f.IsRow) : ofLine f.toLine = f := by
  have hcells : ∀ p ∈ f.cells.map String.toList, ',' ∉ p := by
    intro p hp
    obtain ⟨cell, hcell, rfl⟩ := List.mem_map.mp hp
    exact (h.clean cell hcell).1
  have htrim : (f.cells.map String.toList).map (fun cell => String.ofList (trim cell))
      = f.cells := by
    rw [List.map_map]
    refine (List.map_congr_left fun cell hcell => ?_).trans (List.map_id f.cells)
    show String.ofList (trim cell.toList) = cell
    rw [trim_eq_self (h.trimmed cell hcell), String.ofList_toList]
  rw [ofLine, toLine, split_join hcells (by simpa using h.cells_ne_nil), htrim]

namespace IsRow

theorem trimmed_toLine (h : f.IsRow) : Trimmed f.toLine := by
  refine trimmed_join (by decide) ?_
  intro p hp
  obtain ⟨cell, hcell, rfl⟩ := List.mem_map.mp hp
  exact h.trimmed cell hcell

/-- The line of a row is one line. -/
theorem newline_not_mem_toLine (h : f.IsRow) : '\n' ∉ f.toLine := by
  intro hmem
  rcases mem_join hmem with hsep | ⟨p, hp, hmem⟩
  · exact absurd hsep (by decide)
  · obtain ⟨cell, hcell, rfl⟩ := List.mem_map.mp hp
    exact (h.clean cell hcell).2 hmem

theorem toLine_ne_nil (h : f.IsRow) : f.toLine ≠ [] := by
  intro hnil
  -- Two cells have a comma between them, and one is not empty.
  have hempty : f.cells = [""] := by
    rw [← ofLine_toLine h, hnil]
    rfl
  exact h.ne_empty hempty

/-- The line of a row is not blank. -/
theorem not_allBlank_toLine (h : f.IsRow) : allBlank f.toLine = false :=
  not_allBlank h.trimmed_toLine h.toLine_ne_nil

theorem no_return (h : f.IsRow) : f.toLine.getLast? ≠ some '\r' := by
  intro hlast
  have hblank := h.trimmed_toLine.last '\r' hlast
  exact absurd hblank (by decide)

end IsRow

end Field

/-- Every row that was read is a row, whatever the text. -/
theorem isRow_of_mem_parseRows {content : String} {f : Field} (h : f ∈ parseRows content) :
    f.IsRow := by
  obtain ⟨line, hline, rfl⟩ := List.mem_map.mp h
  obtain ⟨hline, hblank⟩ := List.mem_filter.mp hline
  exact Field.isRow_ofLine (newline_not_mem_line hline) (by simpa using hblank)

/-- Rows that were written are read again. -/
theorem parseRows_encodeRows {rows : List Field} (h : ∀ f ∈ rows, f.IsRow) :
    parseRows (encodeRows rows) = rows := by
  have hlines : lines (encodeRows rows).toList = rows.map Field.toLine := by
    rw [encodeRows, String.toList_ofList]
    refine lines_join ?_ ?_
    · intro l hl
      obtain ⟨f, hf, rfl⟩ := List.mem_map.mp hl
      exact (h f hf).newline_not_mem_toLine
    · intro l hl
      obtain ⟨f, hf, rfl⟩ := List.mem_map.mp hl
      exact ⟨(h f hf).toLine_ne_nil, (h f hf).no_return⟩
  have hkept : ((rows.map Field.toLine).filter fun line => !allBlank line)
      = rows.map Field.toLine := by
    refine List.filter_eq_self.mpr fun l hl => ?_
    obtain ⟨f, hf, rfl⟩ := List.mem_map.mp hl
    rw [(h f hf).not_allBlank_toLine]
    rfl
  rw [parseRows, hlines, hkept, List.map_map]
  refine (List.map_congr_left fun f hf => ?_).trans (List.map_id rows)
  exact Field.ofLine_toLine (h f hf)

/-- A table is written with commas between cells and line feeds between rows. -/
theorem encodeRows_eq_intercalate (rows : List Field) :
    encodeRows rows = "\n".intercalate (rows.map fun f => ",".intercalate f.cells) := by
  rw [← String.toList_inj, encodeRows, String.toList_ofList, String.toList_intercalate,
    join_eq_intercalate, List.map_map]
  congr 1
  refine List.map_congr_left fun f _ => ?_
  show join ',' (f.cells.map String.toList) = (",".intercalate f.cells).toList
  rw [join_eq_intercalate, String.toList_intercalate]
  rfl

/-- **Reading undoes writing on rows, and gives nothing but rows.** A list of rows is the same
after it was written and read if and only if each of them is a row as reading can give it. What
is read from a text, whatever it is, are such rows, so it is the same after writing and reading. -/
theorem parseRows_roundtrip (rows : List Field) (content : String) :
    encodeRows rows = "\n".intercalate (rows.map fun f => ",".intercalate f.cells) ∧
      (parseRows (encodeRows rows) = rows ↔ ∀ f ∈ rows, f.IsRow) ∧
      (∀ f ∈ parseRows content, f.IsRow) ∧
      parseRows (encodeRows (parseRows content)) = parseRows content := by
  have hrows : ∀ f ∈ parseRows content, f.IsRow := fun _ => isRow_of_mem_parseRows
  refine ⟨encodeRows_eq_intercalate rows, ⟨?_, parseRows_encodeRows⟩, hrows,
    parseRows_encodeRows hrows⟩
  intro hsame f hf
  rw [← hsame] at hf
  exact isRow_of_mem_parseRows hf

/-- Rows with nothing but empty cells are rows, and a carriage return or a wide blank inside
a cell stays. -/
theorem parseRows_roundtrip_of_odd_cells :
    (∀ f ∈ [Field.mk ["", ""], ⟨["a\rb", "", "x\u00a0y"]⟩], f.IsRow) ∧
      parseRows (encodeRows [⟨["", ""]⟩, ⟨["a\rb", "", "x\u00a0y"]⟩])
        = [⟨["", ""]⟩, ⟨["a\rb", "", "x\u00a0y"]⟩] := by
  have hrows : ∀ f ∈ [Field.mk ["", ""], ⟨["a\rb", "", "x\u00a0y"]⟩], f.IsRow := by decide
  exact ⟨hrows, (parseRows_roundtrip _ "").2.1.mpr hrows⟩

end JavaEntities
