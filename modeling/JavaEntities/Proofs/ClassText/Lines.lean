import JavaEntities.Artifact
import JavaEntities.Proofs.Schema.Cells

/-!
# The lines of a class

The text of a class is cut at its line feeds into the lines it was put together from,
as long as no name and no type holds a line feed (`split_render`). Both listings of
the fields take one line for a field, and an empty line where there is no field, so
the number of lines tells the number of fields but for the first (`length_lines`).

A table that was read gives such names and types whatever its text, and none
with a comma, so `artifact_lines` holds of every input: its cells decide what the
lines and the parameters say and never how many there are.
-/

namespace JavaEntities

open Text

/-- The lines of a listing, which leaves an empty line where nothing is listed. -/
def orEmptyLine : List String → List String
  | [] => [""]
  | line :: rest => line :: rest

theorem orEmptyLine_ne_nil (ls : List String) : orEmptyLine ls ≠ [] := by
  cases ls <;> simp [orEmptyLine]

/-- A list of lines stands on that many lines, an empty one on a line of its own. -/
theorem length_orEmptyLine (ls : List String) : (orEmptyLine ls).length = max ls.length 1 := by
  cases ls with
  | nil => rfl
  | cons line rest => rw [orEmptyLine, List.length_cons]; omega

/-- The only line that is added is the empty one. -/
theorem mem_orEmptyLine {ls : List String} {line : String} (h : line ∈ orEmptyLine ls) :
    line = "" ∨ line ∈ ls := by
  cases ls with
  | nil => exact Or.inl (List.mem_singleton.mp h)
  | cons p ps => exact Or.inr h

/-- The empty line in place of no lines shows in no text. -/
theorem intercalate_orEmptyLine (sep : String) (ls : List String) :
    sep.intercalate (orEmptyLine ls) = sep.intercalate ls := by
  cases ls with
  | nil => rw [orEmptyLine, String.intercalate_singleton, String.intercalate_nil]
  | cons p ps => rfl

/-! ## Texts without a line feed -/

/-- A text that is put together from texts without a character has none either. -/
theorem not_mem_intercalate {c : Char} {sep : String} {ls : List String} (hs : c ∉ sep.toList)
    (hls : ∀ l ∈ ls, c ∉ l.toList) : c ∉ (sep.intercalate ls).toList := by
  induction ls with
  | nil => simp
  | cons p ps ih =>
    have hp := hls p (List.mem_cons_self ..)
    cases ps with
    | nil => rwa [String.intercalate_singleton]
    | cons q qs =>
      have hrest := ih fun l hl => hls l (List.mem_cons_of_mem _ hl)
      rw [String.intercalate_cons_cons]
      simp only [String.toList_append, List.mem_append, not_or]
      exact ⟨⟨hp, hs⟩, hrest⟩

/-- A row whose name and type stand on one line. -/
structure Field.OneLine (f : Field) : Prop where
  name : '\n' ∉ f.name.toList
  javaType : '\n' ∉ f.javaType.toList

/-- A class whose name, base and fields stand on one line each. -/
structure Entity.OneLine (e : Entity) : Prop where
  className : '\n' ∉ e.className.toList
  superclass : ∀ base ∈ e.superclass, '\n' ∉ base.toList
  fields : ∀ f ∈ e.fields, f.OneLine

namespace Field

/-- The parameter for a field of one line has no line feed. -/
theorem OneLine.parameter {f : Field} (h : f.OneLine) : '\n' ∉ f.parameter.toList := by
  simp [Field.parameter, h.name, h.javaType]

/-- The declaration of a field of one line has no line feed. -/
theorem OneLine.declaration {f : Field} (h : f.OneLine) : '\n' ∉ f.declaration.toList := by
  simp [Field.declaration, h.parameter]

theorem OneLine.assignment {f : Field} (h : f.OneLine) : '\n' ∉ f.assignment.toList := by
  simp [Field.assignment, h.name]

/-- Where no cell has a line feed, name and type stand on one line. -/
theorem Clean.oneLine {f : Field} (h : f.Clean) : f.OneLine :=
  ⟨h.name.2, h.javaType.2⟩

end Field

namespace Entity

/-! ## The text as lines -/

/-- The lines of the text of a class. -/
def lines (e : Entity) : List String :=
  [e.header] ++ (orEmptyLine (e.fields.map Field.declaration)
    ++ (["", e.emptyConstructor, "", e.constructorHead]
      ++ (orEmptyLine (e.fields.map Field.assignment) ++ ["\t\x7d ", "\x7d"])))

/-- A class has seven lines, and two for each field or for the lack of any. -/
theorem length_lines (e : Entity) : e.lines.length = 7 + 2 * max e.fields.length 1 := by
  simp only [lines, List.length_append, length_orEmptyLine, List.length_map, List.length_cons,
    List.length_nil]
  omega

/-- The text of a class is its lines with a line feed between each two. -/
theorem render_eq_intercalate_lines (e : Entity) : e.render = "\n".intercalate e.lines := by
  have hlast : "\n".intercalate ["\t\x7d ", "\x7d"] = "\t\x7d \n\x7d" := by decide
  have hmiddle : "\n".intercalate ["", e.emptyConstructor, "", e.constructorHead]
      = "\n" ++ e.emptyConstructor ++ "\n\n" ++ e.constructorHead := by
    simp [String.intercalate_cons_cons, ← String.toList_inj]
  rw [lines, String.intercalate_append_of_ne_nil (by simp) (by simp),
    String.intercalate_append_of_ne_nil (orEmptyLine_ne_nil _) (by simp),
    String.intercalate_append_of_ne_nil (by simp) (by simp),
    String.intercalate_append_of_ne_nil (orEmptyLine_ne_nil _) (by simp),
    intercalate_orEmptyLine, intercalate_orEmptyLine, hmiddle, hlast,
    String.intercalate_singleton, render, ← String.toList_inj]
  simp

/-- No line of a class holds a line feed. -/
theorem OneLine.lines {e : Entity} (h : e.OneLine) : ∀ line ∈ e.lines, '\n' ∉ line.toList := by
  have hheader : '\n' ∉ e.header.toList := by
    rw [header]
    cases hs : e.superclass with
    | none => simp [h.className]
    | some base => simp [h.className, h.superclass base hs]
  have hempty : '\n' ∉ e.emptyConstructor.toList := by
    simp [emptyConstructor, h.className]
  have hparameters : '\n' ∉ (", ".intercalate (e.fields.map Field.parameter)).toList := by
    apply not_mem_intercalate (by decide)
    intro l hl
    obtain ⟨f, hf, rfl⟩ := List.mem_map.mp hl
    exact (h.fields f hf).parameter
  have hhead : '\n' ∉ e.constructorHead.toList := by
    rw [constructorHead]
    simp only [String.toList_append, List.mem_append, not_or]
    exact ⟨⟨⟨⟨by decide, h.className⟩, by decide⟩, hparameters⟩, by decide⟩
  -- Both listings are lines of single fields, or one empty line.
  have hlisting : ∀ g : Field → String, (∀ f ∈ e.fields, '\n' ∉ (g f).toList) →
      ∀ line ∈ orEmptyLine (e.fields.map g), '\n' ∉ line.toList := by
    intro g hg line hline
    rcases mem_orEmptyLine hline with rfl | hline
    · decide
    · obtain ⟨f, hf, rfl⟩ := List.mem_map.mp hline
      exact hg f hf
  intro line hline
  rw [Entity.lines] at hline
  simp only [List.mem_append, List.mem_cons, List.not_mem_nil, or_false] at hline
  rcases hline with rfl | hline | (rfl | rfl | rfl | rfl) | hline | rfl | rfl
  · exact hheader
  · exact hlisting _ (fun f hf => (h.fields f hf).declaration) line hline
  · decide
  · exact hempty
  · decide
  · exact hhead
  · exact hlisting _ (fun f hf => (h.fields f hf).assignment) line hline
  · decide
  · decide

/-- The text of a class is cut at its line feeds into its lines. -/
theorem split_render {e : Entity} (h : e.OneLine) :
    split '\n' e.render.toList = e.lines.map String.toList := by
  have hjoin : e.render.toList = join '\n' (e.lines.map String.toList) := by
    rw [render_eq_intercalate_lines, String.toList_intercalate, join_eq_intercalate]
    rfl
  rw [hjoin]
  apply split_join
  · intro p hp
    obtain ⟨line, hline, rfl⟩ := List.mem_map.mp hp
    exact h.lines line hline
  · simp [Entity.lines]

end Entity

/-! ## Classes of a table that was read -/

/-- The name of a class has no line feed if the identifier has none. -/
theorem newline_not_mem_className {v : Variant} {identifier : String}
    (h : '\n' ∉ identifier.toList) : '\n' ∉ (v.className identifier).toList := by
  cases v with
  | app => simp [Variant.className, h]
  | relational => exact h
  | document => exact h

/-- Whatever the text of a table, its classes stand on one line where they should. -/
theorem oneLine_entity {identifier : String} (content : String) (v : Variant) (l : Layout)
    (h : '\n' ∉ identifier.toList) :
    ((⟨identifier, parseRows content⟩ : Schema).entity l v).OneLine where
  className := newline_not_mem_className h
  superclass base hbase := by
    rw [← Option.some.inj (Option.mem_def.mp hbase)]
    cases v <;> decide
  fields _ hf := (clean_of_mem_parseRows hf).oneLine

/-- The parameters of a class are found again between their separators. -/
theorem splitAtText_parameters {rows : List Field} (hrows : ∀ f ∈ rows, f.Clean) (hne : rows ≠ []) :
    splitAtText [',', ' '] 0 (", ".intercalate (rows.map Field.parameter)).toList
      = rows.map fun f => f.parameter.toList := by
  rw [String.toList_intercalate, List.map_map]
  refine splitAtText_join ?_ (by simpa using hne)
  intro p hp
  obtain ⟨f, hf, rfl⟩ := List.mem_map.mp hp
  have hname := (hrows f hf).name.1
  have htype := (hrows f hf).javaType.1
  simp [Field.parameter, hname, htype]

/-- **The shape of a class file.** The rows of a table are its lines that are not blank,
each cut at its commas into cells without blanks at their ends. Whatever the text of a
table, each class file that is made of it has one line for each declaration and each
assignment, in the order of the rows, and one parameter for each row; without rows, an
empty line stands in place of either listing and nothing between the parentheses. -/
theorem artifact_lines (content identifier : String) (v : Variant) (l : Layout)
    (hid : '\n' ∉ identifier.toList) :
    let rows := parseRows content
    let name := v.className identifier
    let text := ((⟨identifier, rows⟩ : Schema).entity l v).artifact.contents.toList
    let written := (Text.lines content.toList).filter fun line => !allBlank line
    rows = (written.map fun line =>
      ⟨(split ',' line).map fun cell => String.ofList (trim cell)⟩) ∧
    rows.length = written.length ∧
    (split '\n' text).length = 7 + 2 * max rows.length 1 ∧
    ∃ parameters : String,
      split '\n' text =
        (["public class " ++ name ++ " extends " ++ v.superclass ++ " \x7b"]
          ++ (orEmptyLine (rows.map fun f => "\tpublic " ++ f.javaType ++ " " ++ f.name ++ ";")
          ++ (["", "\tpublic " ++ name ++ "()\x7b\x7d", "",
              "\tpublic " ++ name ++ "(" ++ parameters ++ ")\x7b "]
          ++ (orEmptyLine (rows.map fun f => "\t\tthis." ++ f.name ++ " = " ++ f.name ++ ";")
          ++ ["\t\x7d ", "\x7d"])))).map String.toList ∧
      (rows = [] → parameters = "") ∧
      (rows ≠ [] → splitAtText [',', ' '] 0 parameters.toList
        = rows.map fun f => (f.javaType ++ " " ++ f.name).toList) := by
  intro rows name text written
  have hsplit : split '\n' text = (((⟨identifier, rows⟩ : Schema).entity l v).lines).map
      String.toList := Entity.split_render (oneLine_entity content v l hid)
  refine ⟨rfl, List.length_map _, ?_, ", ".intercalate (rows.map Field.parameter), ?_, ?_, ?_⟩
  · rw [hsplit, List.length_map, Entity.length_lines]
    rfl
  · have hdeclaration : Field.declaration
        = fun f => "\tpublic " ++ f.javaType ++ " " ++ f.name ++ ";" := by
      funext f
      simp only [Field.declaration, Field.parameter, String.append_assoc]
    rw [hsplit, Entity.lines, hdeclaration]
    rfl
  · intro hnil
    rw [hnil]
    rfl
  · exact splitAtText_parameters fun f hf => clean_of_mem_parseRows hf

/-- A table with a carriage return, a blank line, a wide blank and a short row: one
parameter and one line in each listing for each of its two rows. -/
theorem artifact_lines_of_two_rows :
    '\n' ∉ "Users".toList ∧
    (split '\n' ((⟨"Users", parseRows "id,,Numeric\r\n \r\n name\u2003,x"⟩ : Schema).entity {}
      .app).artifact.contents.toList).length = 11 :=
  ⟨by decide, by
    have h := (artifact_lines "id,,Numeric\r\n \r\n name\u2003,x" "Users" .app {} (by decide)).2.2.1
    have hrows : (parseRows "id,,Numeric\r\n \r\n name\u2003,x").length = 2 := by decide
    rw [h, hrows]
    rfl⟩

end JavaEntities
