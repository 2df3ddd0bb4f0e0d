import JavaEntities.Proofs.ClassText.Lines

/-!
# What the text of a class gives back

Nothing is escaped in the text of a class, and a type is told from a name by one blank
that both may hold. The text still determines what it was made of, as long as each
part stands on one line (`render_eq_render_iff`).

The number of lines gives the number of fields, save that one field and none take
the same; there the empty line tells them apart, as no declaration is empty. With the
lines in their places, the constructor without arguments gives the name of the
class, the header its base, an assignment the name of a field (its length first,
since the name stands in it twice) and a declaration, once the name is known, the type.
-/

namespace JavaEntities

open Text

/-! ## Single lines -/

/-- Lists without empty lines are told apart by what stands for them. -/
theorem orEmptyLine_inj {ls ms : List String} (hls : "" ∉ ls) (hms : "" ∉ ms)
    (h : orEmptyLine ls = orEmptyLine ms) : ls = ms := by
  cases ls with
  | nil =>
    cases ms with
    | nil => rfl
    | cons m ms =>
      rw [orEmptyLine, orEmptyLine, List.cons.injEq] at h
      exact absurd (h.1 ▸ List.mem_cons_self ..) hms
  | cons l ls =>
    cases ms with
    | nil =>
      rw [orEmptyLine, orEmptyLine, List.cons.injEq] at h
      exact absurd (h.1 ▸ List.mem_cons_self ..) hls
    | cons m ms => exact h

namespace Field

/-- The text of a field is never empty, so no empty line is a declaration. -/
theorem declaration_ne_empty (f : Field) : f.declaration ≠ "" := by
  intro h
  have hl := congrArg String.length h
  simp [declaration] at hl

theorem assignment_ne_empty (f : Field) : f.assignment ≠ "" := by
  intro h
  have hl := congrArg String.length h
  simp [assignment] at hl

/-- The name stands twice in an assignment, so the length of the line gives the
length of the name, and with it the name. -/
theorem name_eq_of_assignment_eq {f g : Field} (h : f.assignment = g.assignment) :
    f.name = g.name := by
  have hchars := String.toList_inj.mpr h
  simp only [assignment, String.toList_append, List.append_assoc] at hchars
  have htail := List.append_cancel_left hchars
  -- What is left is the name, four characters, the name again and one more.
  have hlength : f.name.toList.length = g.name.toList.length := by
    have hl := congrArg List.length htail
    simp only [List.length_append] at hl
    omega
  exact String.toList_inj.mp (List.append_inj htail hlength).1

/-- What stands before a name that is known is the type. -/
theorem javaType_eq_of_declaration_eq {f g : Field} (h : f.declaration = g.declaration)
    (hname : f.name = g.name) : f.javaType = g.javaType := by
  have hchars := String.toList_inj.mpr h
  simp only [declaration, parameter, hname, String.toList_append, List.append_assoc] at hchars
  exact String.toList_inj.mp (List.append_cancel_right (List.append_cancel_left hchars))

/-- Rows with the same assignments and the same declarations have the same types and names. -/
theorem map_javaType_name_eq {fs gs : List Field}
    (hassignments : fs.map assignment = gs.map assignment)
    (hdeclarations : fs.map declaration = gs.map declaration) :
    (fs.map fun f => (f.javaType, f.name)) = gs.map fun f => (f.javaType, f.name) := by
  induction fs generalizing gs with
  | nil => rw [List.map_nil, List.map_eq_nil_iff.mp hassignments.symm, List.map_nil]
  | cons f fs ih =>
    cases gs with
    | nil => exact absurd hassignments (by simp)
    | cons g gs =>
      rw [List.map_cons, List.map_cons, List.cons.injEq] at hassignments hdeclarations
      have hname := name_eq_of_assignment_eq hassignments.1
      rw [List.map_cons, List.map_cons, ih hassignments.2 hdeclarations.2, hname,
        javaType_eq_of_declaration_eq hdeclarations.1 hname]

end Field

namespace Entity

/-- The constructor without arguments shows the name of the class. -/
theorem className_eq_of_emptyConstructor_eq {d e : Entity}
    (h : d.emptyConstructor = e.emptyConstructor) : d.className = e.className := by
  have hchars := String.toList_inj.mpr h
  simp only [emptyConstructor, String.toList_append, List.append_assoc] at hchars
  exact String.toList_inj.mp (List.append_cancel_right (List.append_cancel_left hchars))

/-- Behind a name that is known, a header with a base is longer than one without. -/
theorem superclass_eq_of_header_eq {d e : Entity} (h : d.header = e.header)
    (hname : d.className = e.className) : d.superclass = e.superclass := by
  have hchars := String.toList_inj.mpr h
  rw [header, header, hname] at hchars
  cases hd : d.superclass with
  | none =>
    cases he : e.superclass with
    | none => rfl
    | some base =>
      have hl := congrArg List.length hchars
      simp [hd, he] at hl
  | some base =>
    cases he : e.superclass with
    | none =>
      have hl := congrArg List.length hchars
      simp [hd, he] at hl
    | some base' =>
      simp only [hd, he, String.toList_append, List.append_assoc] at hchars
      have hbehind := List.append_cancel_left (List.append_cancel_left hchars)
      have htail := List.append_cancel_left hbehind
      exact congrArg some (String.toList_inj.mp (List.append_cancel_right htail))

/-- The lines stand in the same places in two texts with the same number of lines. -/
theorem parts_eq_of_lines_eq {d e : Entity} (h : d.lines = e.lines) :
    d.header = e.header ∧ d.emptyConstructor = e.emptyConstructor ∧
      d.fields.map Field.declaration = e.fields.map Field.declaration ∧
      d.fields.map Field.assignment = e.fields.map Field.assignment := by
  have hcount : max d.fields.length 1 = max e.fields.length 1 := by
    have hl := congrArg List.length h
    rw [length_lines, length_lines] at hl
    omega
  have hlisting : ∀ g : Field → String,
      (orEmptyLine (d.fields.map g)).length = (orEmptyLine (e.fields.map g)).length := by
    intro g
    rw [length_orEmptyLine, length_orEmptyLine, List.length_map, List.length_map, hcount]
  -- Equal numbers of lines, so the five parts of the text have equal lengths one by one.
  rw [lines, lines] at h
  obtain ⟨hheader, h⟩ := List.append_inj h rfl
  obtain ⟨hdeclarations, h⟩ := List.append_inj h (hlisting _)
  obtain ⟨hmiddle, h⟩ := List.append_inj h rfl
  obtain ⟨hassignments, -⟩ := List.append_inj h (hlisting _)
  refine ⟨(List.cons.inj hheader).1, ?_, ?_, ?_⟩
  · exact (List.cons.inj (List.cons.inj hmiddle).2).1
  · refine orEmptyLine_inj ?_ ?_ hdeclarations
    · simp [Field.declaration_ne_empty]
    · simp [Field.declaration_ne_empty]
  · refine orEmptyLine_inj ?_ ?_ hassignments
    · simp [Field.assignment_ne_empty]
    · simp [Field.assignment_ne_empty]

/-- The text depends on the fields by their types and names alone. -/
theorem render_congr {d e : Entity} (hname : d.className = e.className)
    (hbase : d.superclass = e.superclass)
    (hfields : (d.fields.map fun f => (f.javaType, f.name))
      = e.fields.map fun f => (f.javaType, f.name)) : d.render = e.render := by
  have hmap : ∀ g : String × String → String,
      (d.fields.map fun f => g (f.javaType, f.name))
        = e.fields.map fun f => g (f.javaType, f.name) := by
    intro g
    have hg := congrArg (List.map g) hfields
    rwa [List.map_map, List.map_map] at hg
  have hparameters : d.fields.map Field.parameter = e.fields.map Field.parameter :=
    hmap fun p => p.1 ++ " " ++ p.2
  have hdeclarations : d.fields.map Field.declaration = e.fields.map Field.declaration :=
    hmap fun p => "\tpublic " ++ (p.1 ++ " " ++ p.2) ++ ";"
  have hassignments : d.fields.map Field.assignment = e.fields.map Field.assignment :=
    hmap fun p => "\t\tthis." ++ p.2 ++ " = " ++ p.2 ++ ";"
  simp only [render, header, emptyConstructor, constructorHead, hname, hbase, hparameters,
    hdeclarations, hassignments]

/-- **A class text loses nothing.** Two classes whose parts stand on one line have
the same text exactly if they have the same name, the same base or none, and fields
of the same types and names in the same order. -/
theorem render_eq_render_iff {d e : Entity} (hd : d.OneLine) (he : e.OneLine) :
    d.render = e.render ↔
      d.className = e.className ∧ d.superclass = e.superclass ∧
        (d.fields.map fun f => (f.javaType, f.name))
          = e.fields.map fun f => (f.javaType, f.name) := by
  constructor
  · intro h
    have hsplit : split '\n' d.render.toList = split '\n' e.render.toList := by rw [h]
    rw [split_render hd, split_render he] at hsplit
    have hlines : d.lines = e.lines :=
      (List.map_inj_right fun _ _ => String.toList_inj.mp).mp hsplit
    obtain ⟨hheader, hempty, hdeclarations, hassignments⟩ := parts_eq_of_lines_eq hlines
    have hname := className_eq_of_emptyConstructor_eq hempty
    exact ⟨hname, superclass_eq_of_header_eq hheader hname,
      Field.map_javaType_name_eq hassignments hdeclarations⟩
  · intro hparts
    obtain ⟨hname, hbase, hfields⟩ := hparts
    exact render_congr hname hbase hfields

/-- A blank that moves from the type to the name keeps the declaration and changes the text. -/
theorem render_ne_of_blank_moved :
    let d : Entity :=
      { variant := .app, identifier := "T", className := "T", superclass := none,
        fields := [⟨["c", "", "a b"]⟩], path := ⟨"T"⟩ }
    let e : Entity := { d with fields := [⟨["b c", "", "a"]⟩] }
    d.OneLine ∧ e.OneLine ∧ d.render ≠ e.render := by
  intro d e
  have hd : d.OneLine := by
    refine ⟨by decide, (fun base hbase => nomatch hbase), ?_⟩
    intro f hf
    rw [List.mem_singleton.mp hf]
    exact ⟨by decide, by decide⟩
  have he : e.OneLine := by
    refine ⟨by decide, (fun base hbase => nomatch hbase), ?_⟩
    intro f hf
    rw [List.mem_singleton.mp hf]
    exact ⟨by decide, by decide⟩
  refine ⟨hd, he, fun h => ?_⟩
  exact absurd ((render_eq_render_iff hd he).mp h).2.2 (by decide)

end Entity

end JavaEntities
