import JavaEntities.Proofs.Text.Pieces
import JavaEntities.Schema.Rows

/-!
# Rows and the ends of lines

A row depends on one line alone, and a blank character at the end of a line changes neither
its cells nor whether it is blank. So a carriage return there says nothing, wherever it comes
from, and the rows of a text are those of its pieces between line feeds
(`parseRows_eq_rowsOf`): the rules for the last line, for an empty text and for the line end of
two characters make no difference.

A text with a line feed in it therefore has the rows of what comes before and of what comes
behind it (`rowsOf_append_newline`), and the two line ends can stand for each other
(`rowsOf_intercalate`). Every line is a row or blank (`length_lines_eq`).
-/

namespace JavaEntities

open Text

namespace Text

/-! ## A blank character at the end -/

theorem trimEnd_append_blank (s : List Char) {c : Char} (hc : isBlank c = true) :
    trimEnd (s ++ [c]) = trimEnd s := by
  rw [trimEnd, List.reverse_append, List.reverse_singleton, List.singleton_append,
    List.dropWhile_cons_of_pos hc, trimEnd]

/-- A blank at the end is trimmed. -/
theorem trim_append_blank (s : List Char) {c : Char} (hc : isBlank c = true) :
    trim (s ++ [c]) = trim s := by
  rw [trim, List.dropWhile_append]
  cases hs : s.dropWhile isBlank with
  | nil =>
    -- All of the text is blank, and the start takes the last character too.
    rw [List.isEmpty_nil, if_pos rfl, List.dropWhile_cons_of_pos hc, trim, hs]
    rfl
  | cons d rest =>
    rw [List.isEmpty_cons, if_neg Bool.false_ne_true, trimEnd_append_blank _ hc, trim, hs]

/-- A blank at the end makes no line less blank. -/
theorem allBlank_append_blank (s : List Char) {c : Char} (hc : isBlank c = true) :
    allBlank (s ++ [c]) = allBlank s := by
  rw [allBlank, List.all_append, List.all_cons, hc, List.all_nil, Bool.and_true, Bool.and_true,
    allBlank]

end Text

namespace Field

/-- A blank at the end of a line is in no cell. -/
theorem ofLine_append_blank (line : List Char) {c : Char} (hc : isBlank c = true) :
    ofLine (line ++ [c]) = ofLine line := by
  have hcomma : ',' ∉ [c] := by
    intro hmem
    rw [← List.mem_singleton.mp hmem] at hc
    exact absurd hc (by decide)
  obtain ⟨ps, last, hline, happend⟩ := exists_split_append line hcomma
  rw [ofLine, ofLine, hline, happend, List.map_append, List.map_append, List.map_singleton,
    List.map_singleton, trim_append_blank last hc]

/-- The row that a line is, if it is not blank. -/
def ofLine? (line : List Char) : Option Field :=
  if allBlank line then none else some (ofLine line)

theorem ofLine?_append_blank (line : List Char) {c : Char} (hc : isBlank c = true) :
    ofLine? (line ++ [c]) = ofLine? line := by
  rw [ofLine?, allBlank_append_blank line hc, ofLine_append_blank line hc, ofLine?]

/-- A carriage return at the end of a line has no say. -/
theorem ofLine?_dropReturn (line : List Char) : ofLine? (dropReturn line) = ofLine? line := by
  rw [dropReturn]
  by_cases hreturn : line.getLast? = some '\r'
  · obtain ⟨front, rfl⟩ := List.getLast?_eq_some_iff.mp hreturn
    rw [if_pos hreturn, List.dropLast_concat, ofLine?_append_blank front (by decide)]
  · rw [if_neg hreturn]

end Field

/-! ## The rows of a text -/

/-- The rows among the pieces of a text between line feeds. -/
def rowsOf (s : List Char) : List Field :=
  (split '\n' s).filterMap Field.ofLine?

theorem filterMap_ofLine? (ls : List (List Char)) :
    ls.filterMap Field.ofLine? = (ls.filter fun line => !allBlank line).map Field.ofLine := by
  induction ls with
  | nil => rfl
  | cons line ls ih =>
    cases hblank : allBlank line with
    | true => simp [Field.ofLine?, hblank, ih]
    | false => simp [Field.ofLine?, hblank, ih]

/-- Lines give the rows of the pieces that they come from. -/
theorem filterMap_linesOfPieces (ps : List (List Char)) :
    (linesOfPieces ps).filterMap Field.ofLine? = ps.filterMap Field.ofLine? := by
  fun_induction linesOfPieces ps with
  | case1 => rfl
  -- An empty last piece is no line, and as a line it would be blank.
  | case2 => rfl
  | case3 => rfl
  | case4 p q ps ih => rw [List.filterMap_cons, List.filterMap_cons, Field.ofLine?_dropReturn, ih]

/-- The rows of a text are those of its lines, whatever ends the lines. -/
theorem parseRows_eq_rowsOf (content : String) : parseRows content = rowsOf content.toList := by
  rw [parseRows, ← filterMap_ofLine?, lines, filterMap_linesOfPieces, rowsOf]

/-- A line feed divides the rows before it from those behind it. -/
theorem rowsOf_append_newline (s t : List Char) :
    rowsOf (s ++ '\n' :: t) = rowsOf s ++ rowsOf t := by
  rw [rowsOf, split_append_cons_self, List.filterMap_append, ← rowsOf, ← rowsOf]

/-- A carriage return at the end of a text makes no difference. -/
theorem rowsOf_append_return (s : List Char) : rowsOf (s ++ ['\r']) = rowsOf s := by
  have hfeed : '\n' ∉ ['\r'] := by decide
  obtain ⟨ps, last, hs, happend⟩ := exists_split_append s hfeed
  rw [rowsOf, rowsOf, hs, happend, List.filterMap_append, List.filterMap_append,
    List.filterMap_cons, List.filterMap_cons, Field.ofLine?_append_blank last (by decide)]

/-- **Either line end gives the same rows**, whatever is put together by it. -/
theorem rowsOf_intercalate (ps : List (List Char)) :
    rowsOf (['\r', '\n'].intercalate ps) = rowsOf (['\n'].intercalate ps) := by
  induction ps with
  | nil => rfl
  | cons p ps ih =>
    cases ps with
    | nil => rfl
    | cons q qs =>
      -- The carriage return is the end of the text before the line feed.
      have hreturn : p ++ ['\r', '\n'] ++ ['\r', '\n'].intercalate (q :: qs)
          = (p ++ ['\r']) ++ '\n' :: ['\r', '\n'].intercalate (q :: qs) := by simp
      have hfeed : p ++ ['\n'] ++ ['\n'].intercalate (q :: qs)
          = p ++ '\n' :: ['\n'].intercalate (q :: qs) := by simp
      rw [List.intercalate_cons_cons, List.intercalate_cons_cons, hreturn, hfeed,
        rowsOf_append_newline, rowsOf_append_newline, rowsOf_append_return, ih]

/-- Texts with a line feed between them have the rows of both. -/
theorem parseRows_append_newline (a b : String) :
    parseRows (a ++ "\n" ++ b) = parseRows a ++ parseRows b := by
  have htext : (a ++ "\n" ++ b).toList = a.toList ++ '\n' :: b.toList := by
    rw [String.toList_append, String.toList_append, List.append_assoc]
    rfl
  rw [parseRows_eq_rowsOf, parseRows_eq_rowsOf, parseRows_eq_rowsOf, htext, rowsOf_append_newline]

/-- A carriage return before every line feed, even where there is one, makes no difference. -/
theorem parseRows_replaceAll_newline (content : String) :
    parseRows (replaceAll "\n" "\r\n" content) = parseRows content := by
  have hcontent := intercalate_splitAtText (List.cons_ne_nil '\n' []) 0 content.toList
  rw [parseRows_eq_rowsOf, parseRows_eq_rowsOf, replaceAll, String.toList_ofList]
  exact (rowsOf_intercalate _).trans (congrArg rowsOf hcontent)

example : replaceAll "\n" "\r\n" "a\r\n\nb" = "a\r\r\n\r\nb" := by decide

/-- A carriage return less before every line feed makes no difference. -/
theorem parseRows_replaceAll_return (content : String) :
    parseRows (replaceAll "\r\n" "\n" content) = parseRows content := by
  have hcontent := intercalate_splitAtText (List.cons_ne_nil '\r' ['\n']) 0 content.toList
  rw [parseRows_eq_rowsOf, parseRows_eq_rowsOf, replaceAll, String.toList_ofList]
  exact (rowsOf_intercalate _).symm.trans (congrArg rowsOf hcontent)

example : replaceAll "\r\n" "\n" "a\r\r\nb\r\r\n\n" = "a\r\nb\r\n\n" := by decide

/-! ## The number of lines -/

/-- Every line is a row or blank. -/
theorem length_lines_eq (content : String) :
    (lines content.toList).length
      = (parseRows content).length + (lines content.toList).countP allBlank := by
  rw [parseRows, List.length_map, ← List.countP_eq_length_filter, Nat.add_comm]
  have hcount : (lines content.toList).length = (lines content.toList).countP allBlank
      + (lines content.toList).countP fun line => decide ¬allBlank line = true :=
    List.length_eq_countP_add_countP allBlank
  simpa using hcount

/-- Taking the rows away from the lines leaves the blank lines. -/
theorem blankLines_eq_countP (content : String) :
    blankLines content = (lines content.toList).countP allBlank := by
  rw [blankLines, length_lines_eq, Nat.add_sub_cancel_left]

end JavaEntities
