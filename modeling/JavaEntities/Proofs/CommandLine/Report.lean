import JavaEntities.CommandLine.Report
import JavaEntities.Proofs.Generation.Plan
import JavaEntities.Proofs.Settings.Layers
import JavaEntities.Proofs.Text.Raw

/-!
# Plans as JSON

JSON holds texts, so a plan has that form if and only if all its paths are texts
(`renderJson?_eq_none_iff`). The name of a class file always is one, so only the output directory
can be at fault (`isText_of_mem_artifacts`), and only if it is named on the command line: the
default is a text, and so is whatever a configuration file says (`isText_outputDir_of_gather`).
-/

namespace JavaEntities

/-! ## Texts put together -/

/-- A path is a text if the directory and the name are, however they are joined. -/
theorem Path.isText_join {dir : Path} {name : RawText} (hdir : dir.text.IsText)
    (hname : name.IsText) : (dir.join name).text.IsText := by
  unfold Path.join
  split
  · exact hname
  · split
    · exact hdir.append hname
    · exact (hdir.append (RawText.isText_ofString "/")).append hname

/-- In an output directory whose path is a text, every class file has such a path. -/
theorem isText_of_mem_artifacts {set : SchemaSet} {l : Layout} {x : Artifact}
    (hdir : l.dir.text.IsText) (hx : x ∈ set.artifacts l) : x.path.text.IsText := by
  obtain ⟨s, -, v, rfl⟩ := SchemaSet.mem_artifacts hx
  exact Path.isText_join hdir (RawText.isText_ofString _)

/-! ## The output directory -/

/-- What the table of a configuration file says about a path is a text. -/
theorem Configuration.Taken.isText {entries : List (String × Toml.Value)} {key : String}
    {default p : Path} (h : Configuration.Taken entries key Configuration.IsPath default p)
    (hdefault : default.text.IsText) : p.text.IsText := by
  by_cases hkey : key ∈ entries.map Prod.fst
  · obtain ⟨⟨k, v⟩, hv, rfl⟩ := List.mem_map.mp hkey
    obtain ⟨s, -, rfl⟩ := h.given v hv
    exact RawText.isText_ofString s
  · rwa [h.missing hkey]

/-- The output directory is a text, unless the user names one that is not. -/
theorem Settings.isText_outputDir_of_gather {read : Toml.TableReader} (hlawful : read.Lawful)
    {fs : FileSystem} {base : Path} {o : Overrides} {s : Settings}
    (h : Settings.gather read fs base o = .ok s)
    (hasked : ∀ dir, o.outputDir = some dir → dir.text.IsText) :
    s.configuration.outputDir.text.IsText := by
  obtain ⟨entries, hmerged⟩ := Settings.merged_of_gather hlawful h
  cases hmerged.outputDir with
  | given h => exact hasked _ h
  | below _ h => exact h.isText (RawText.isText_ofString "out")

/-! ## The report -/

namespace CommandLine

/-- An artifact has no form in JSON if and only if its path is no text. -/
theorem artifactMembers?_eq_none_iff {x : Artifact} :
    artifactMembers? x = none ↔ ¬ x.path.text.IsText := by
  unfold artifactMembers? RawText.IsText
  rw [Option.map_eq_none_iff, Option.not_isSome_iff_eq_none]

/-- **A plan has no form in JSON if and only if one of its paths is no text.** -/
theorem renderJson?_eq_none_iff {artifacts : List Artifact} :
    renderJson? artifacts = none ↔ ∃ x ∈ artifacts, ¬ x.path.text.IsText := by
  unfold renderJson?
  rw [Option.map_eq_none_iff]
  induction artifacts with
  | nil => simp
  | cons x rest ih =>
    rw [List.mapM_cons, List.exists_mem_cons_iff, ← artifactMembers?_eq_none_iff, ← ih]
    cases artifactMembers? x with
    | none => simp
    | some members =>
      cases rest.mapM artifactMembers? with
      | none => simp
      | some objects => simp

end CommandLine

end JavaEntities
