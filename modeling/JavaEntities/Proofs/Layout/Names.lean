import JavaEntities.Layout
import JavaEntities.Proofs.Path.Steps
import JavaEntities.Proofs.Text.Raw

/-!
# Names of class files

An identifier is a part of a file name, so it holds no separator
(`IsIdentifier.no_separator`). The name of a class file can therefore stand in a path, and it
determines the identifier and the variant: the three variants end their stems differently
(`fileName_inj`). So no two class files of distinct schemas or variants share a name.
-/

namespace JavaEntities

open Text FileSystem

/-! ## Identifiers -/

/-- The last name of a path can stand in a path. -/
theorem isFileName_of_fileName {p : Path} {n : RawText} (h : p.fileName = some n) :
    IsFileName n := by
  obtain ⟨lead, steps, htakes⟩ := p.takes
  unfold Path.fileName at h
  split at h
  · next m hlast =>
    rw [← Option.some.inj h]
    rw [htakes.components_eq] at hlast
    have hmem := List.mem_of_getLast? hlast
    rcases List.mem_append.mp hmem with hmem | hmem
    · rcases htakes.lead_cases with rfl | rfl | rfl
      · exact absurd hmem List.not_mem_nil
      · exact absurd (List.mem_singleton.mp hmem) (by simp)
      · exact absurd (List.mem_singleton.mp hmem) (by simp)
    · exact htakes.isStep _ hmem
  · exact nomatch h

/-- An identifier is a part of the text of a file name. -/
theorem mem_of_mem_identifierOfText {n identifier : String} {c : Char}
    (h : identifierOfText n = some identifier) (hc : c ∈ identifier.toList) : c ∈ n.toList := by
  unfold identifierOfText at h
  split at h
  · exact nomatch h
  · exact nomatch h
  · next first rest hne hsplit =>
    rw [← Option.some.inj h, String.toList_ofList] at hc
    exact mem_of_mem_split (hsplit ▸ List.mem_cons_self ..) _ hc

/-- Whether some file has a text as its identifier. -/
def IsIdentifier (s : String) : Prop :=
  ∃ p, identifierOf p = some s

/-- An identifier does not divide a path. -/
theorem IsIdentifier.no_separator {s : String} (h : IsIdentifier s) : '/' ∉ s.toList := by
  obtain ⟨p, hp⟩ := h
  obtain ⟨text, htext, hidentifier⟩ := Option.bind_eq_some_iff.mp hp
  obtain ⟨n, hn, hread⟩ := Option.bind_eq_some_iff.mp htext
  obtain rfl := RawText.toString?_eq_some_iff.mp hread
  intro hmem
  exact (isFileName_of_fileName hn).no_separator
    (RawText.slash_mem_ofString.mpr (mem_of_mem_identifierOfText hidentifier hmem))

/-! ## File names -/

/-- The last five characters of a stem, which tell the variants apart. -/
def Variant.tag : Variant → List Char
  | .app => ['n', 't', 'i', 't', 'y']
  | .relational => ['e', 'D', 'a', 't', 'a']
  | .document => ['o', 'D', 'a', 't', 'a']

theorem Variant.tag_inj {v v' : Variant} (h : v.tag = v'.tag) : v = v' := by
  cases v <;> cases v' <;> first | rfl | exact absurd h (by decide)

theorem Variant.length_tag (v : Variant) : v.tag.length = 5 := by
  cases v <;> rfl

/-- The name of a file ends with the mark of its variant. -/
theorem fileStem_eq (v : Variant) (identifier : String) :
    ∃ start, (v.fileStem identifier).toList = start ++ v.tag := by
  cases v with
  | app =>
    refine ⟨"App".toList ++ identifier.toList ++ ['E'], ?_⟩
    show ("App" ++ identifier ++ "Entity").toList = _
    rw [String.toList_append, String.toList_append, List.append_assoc _ ['E']]
    rfl
  | relational =>
    refine ⟨identifier.toList ++ "Postgr".toList, ?_⟩
    show (identifier ++ "PostgreData").toList = _
    rw [String.toList_append, List.append_assoc]
    rfl
  | document =>
    refine ⟨identifier.toList ++ "Mong".toList, ?_⟩
    show (identifier ++ "MongoData").toList = _
    rw [String.toList_append, List.append_assoc]
    rfl

/-- The name of a file tells the identifier and the variant. -/
theorem fileStem_inj {v v' : Variant} {identifier identifier' : String}
    (h : v.fileStem identifier = v'.fileStem identifier') : identifier = identifier' ∧ v = v' := by
  obtain ⟨start, hstem⟩ := fileStem_eq v identifier
  obtain ⟨start', hstem'⟩ := fileStem_eq v' identifier'
  -- Equal stems end in the same five characters.
  have htags : start ++ v.tag = start' ++ v'.tag := by rw [← hstem, ← hstem', h]
  obtain rfl : v = v' :=
    Variant.tag_inj (List.append_inj' htags (v.length_tag.trans v'.length_tag.symm)).2
  refine ⟨?_, rfl⟩
  -- With the variant known, the stem is the identifier between two known texts.
  cases v with
  | app => exact (String.append_right_inj _).mp ((String.append_left_inj _).mp h)
  | relational => exact (String.append_left_inj _).mp h
  | document => exact (String.append_left_inj _).mp h

/-- The same holds with the extension. -/
theorem Layout.fileName_inj {l : Layout} {v v' : Variant} {identifier identifier' : String}
    (h : l.fileName identifier v = l.fileName identifier' v') :
    identifier = identifier' ∧ v = v' := by
  unfold Layout.fileName at h
  exact fileStem_inj ((String.append_left_inj _).mp ((String.append_left_inj _).mp h))

/-- The name of a class file can stand in a path. -/
theorem Layout.isFileName_fileName {l : Layout} {identifier : String} (v : Variant)
    (hidentifier : '/' ∉ identifier.toList) (hextension : '/' ∉ l.extension.toList) :
    IsFileName (l.fileName identifier v) := by
  have hlong : 5 ≤ (l.fileName identifier v).toList.length := by
    obtain ⟨start, hstem⟩ := fileStem_eq v identifier
    unfold Layout.fileName
    rw [String.toList_append, String.toList_append, hstem]
    simp only [List.length_append, v.length_tag]
    omega
  have hne : ∀ s : String, s.toList.length < 5 → (l.fileName identifier v : RawText) ≠ s := by
    intro s hs he
    rw [RawText.ofString_inj.mp he] at hlong
    omega
  refine ⟨⟨hne "" (by decide), hne "." (by decide), hne ".." (by decide)⟩, ?_⟩
  · have hstem : '/' ∉ (v.fileStem identifier).toList := by
      cases v with
      | app => simp [Variant.fileStem, hidentifier]
      | relational => simp [Variant.fileStem, hidentifier]
      | document => simp [Variant.fileStem, hidentifier]
    rw [RawText.slash_mem_ofString]
    simp [Layout.fileName, hstem, hextension]

end JavaEntities
