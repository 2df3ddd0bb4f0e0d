import JavaEntities.FileSystem.Change
import JavaEntities.Proofs.Text.Pieces

/-!
# Segments of a path

The segments of a path are its texts between separators, none of them empty, and
an empty one for a separator at the end. `named` is the list of the former.
-/

namespace JavaEntities.FileSystem

/-- The texts between the separators of a path that are not empty. -/
def named (text : RawText) : List RawText :=
  ((Text.split slash text.toList).filter (· ≠ [])).map RawText.ofList

/-- What a separator at the end adds to the segments of a path. -/
def mark (text : RawText) : List RawText :=
  if text.toList.getLast? = some slash then [""] else []

/-- The segments of a path are its names and the mark of a separator at its end. -/
theorem segments_eq (text : RawText) : segments text = named text ++ mark text := by
  rw [segments, mark]
  by_cases h : text.toList.getLast? = some slash
  · rw [if_pos h, if_pos h]
    rfl
  · rw [if_neg h, if_neg h, List.append_nil]
    rfl

/-- The names of a path are not empty. -/
theorem ne_empty_of_mem_named {text s : RawText} (h : s ∈ named text) : s ≠ "" := by
  obtain ⟨cs, hcs, rfl⟩ := List.mem_map.mp h
  have hne : cs ≠ [] := by simpa using (List.mem_filter.mp hcs).2
  intro he
  rw [← RawText.toList_inj, RawText.toList_ofList] at he
  exact hne he

theorem eq_empty_of_mem_mark {text s : RawText} (h : s ∈ mark text) : s = "" := by
  rw [mark] at h
  split at h
  · exact List.mem_singleton.mp h
  · exact absurd h List.not_mem_nil

/-- A segment holds no separator. -/
theorem no_separator_of_mem_segments {text s : RawText} (h : s ∈ segments text) :
    slash ∉ s.toList := by
  rw [segments_eq] at h
  rcases List.mem_append.mp h with hs | hs
  · obtain ⟨cs, hcs, rfl⟩ := List.mem_map.mp hs
    rw [RawText.toList_ofList]
    exact Text.not_mem_of_mem_split (List.mem_filter.mp hcs).1
  · rw [eq_empty_of_mem_mark hs]
    decide

/-- After the last name only a separator may follow. -/
theorem atEnd_of_suffix_mark {text : RawText} {rest : List RawText} (h : rest <:+ mark text) :
    atEnd rest = true := by
  rw [mark] at h
  split at h
  · rcases List.suffix_cons_iff.mp h with rfl | h
    · rfl
    · rw [List.suffix_nil.mp h]
      rfl
  · rw [List.suffix_nil.mp h]
    rfl

/-- The last segment of a path that is not empty. -/
def lastSegment? (p : Path) : Option RawText :=
  ((segments p.text).filter (· ≠ ("" : RawText))).getLast?

/-- The last segment is the last name. -/
theorem lastSegment?_eq (p : Path) : lastSegment? p = (named p.text).getLast? := by
  have hnamed : (named p.text).filter (· ≠ ("" : RawText)) = named p.text :=
    List.filter_eq_self.mpr fun s hs => decide_eq_true (ne_empty_of_mem_named hs)
  have hmark : (mark p.text).filter (· ≠ ("" : RawText)) = [] := by
    refine List.filter_eq_nil_iff.mpr fun s hs => ?_
    simpa using eq_empty_of_mem_mark hs
  rw [lastSegment?, segments_eq, List.filter_append, hnamed, hmark, List.append_nil]

/-- After the last segment there is only the mark of a separator. -/
theorem segments_of_lastSegment? {p : Path} {last : RawText} (h : lastSegment? p = some last) :
    ∃ pre, segments p.text = pre ++ last :: mark p.text := by
  rw [lastSegment?_eq] at h
  obtain ⟨pre, hpre⟩ := List.getLast?_eq_some_iff.mp h
  refine ⟨pre, ?_⟩
  rw [segments_eq, hpre, List.append_assoc]
  rfl

end JavaEntities.FileSystem
