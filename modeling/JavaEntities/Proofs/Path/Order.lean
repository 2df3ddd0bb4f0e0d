import JavaEntities.Proofs.Path.Steps

/-!
# The order of paths

Paths are compared by their components, so two compare as equal exactly when they have the
same components, however they are spelled (`compare_eq_iff`). The path of an entry has the
components of the directory and one more, the name of the entry (`components_join`). So
entries of one directory are in the order of their names (`compare_join`).
-/

namespace JavaEntities

open Text

namespace Component

/-- The kind and the name are all there is to a component. -/
theorem eq_of_rank_label {a b : Component} (hrank : a.rank = b.rank) (hlabel : a.label = b.label) :
    a = b := by
  cases a <;> cases b <;>
    first | rfl | exact congrArg name hlabel | simp [rank] at hrank

instance : Std.LawfulEqOrd Component where
  eq_of_compare h := by
    obtain ⟨hrank, hlabel⟩ := compareLex_eq_eq.mp h
    exact eq_of_rank_label (Std.LawfulEqCmp.eq_of_compare hrank)
      (Std.LawfulEqCmp.eq_of_compare hlabel)

/-- Names are compared by their bytes. -/
theorem compare_name (n m : RawText) : compare (name n) (name m) = compare n m := by
  have hrank : compare (name n).rank (name m).rank = .eq := Std.ReflCmp.compare_self
  show (compare (name n).rank (name m).rank).then (compare n m) = _
  rw [hrank]
  rfl

end Component

/-- A beginning that two lists share does not count. -/
theorem compare_append_left {α : Type} [Ord α] [Std.TransOrd α] (pre xs ys : List α) :
    compare (pre ++ xs) (pre ++ ys) = compare xs ys := by
  induction pre with
  | nil => rfl
  | cons a pre ih =>
    have hself : compare a a = .eq := Std.ReflCmp.compare_self
    rw [List.cons_append, List.cons_append, List.compare_cons_cons, hself, ih]
    rfl

namespace Path

/-- Paths are the same in order if and only if their components are the same. -/
theorem compare_eq_iff {p q : Path} : compare p q = .eq ↔ p.components = q.components := by
  show compare p.components q.components = .eq ↔ _
  exact Std.LawfulEqCmp.compare_eq_iff_eq

/-! ## The components of an entry -/

/-- Only an empty first segment needs to know whether others follow. -/
theorem leading_of_ne_nil {s : List UInt8} (hs : s ≠ []) (rest : List (List UInt8)) :
    leading (s :: rest) = if s = [dot] then [.here] else [] := by
  have hempty : ¬ (s = [] ∧ rest ≠ []) := fun h => hs h.1
  unfold leading
  dsimp only
  rw [if_neg hempty]

/-- What the first segment gives stays the same when segments are added behind, unless
there is nothing but an empty one. -/
theorem leading_append {pieces : List (List UInt8)} (hne : pieces ≠ []) (hempty : pieces ≠ [[]])
    (more : List (List UInt8)) : leading (pieces ++ more) = leading pieces := by
  obtain ⟨s, rest, rfl⟩ := List.exists_cons_of_ne_nil hne
  rw [List.cons_append]
  by_cases hs : s = []
  · subst hs
    cases rest with
    | nil => exact absurd rfl hempty
    | cons t rest => rfl
  · rw [leading_of_ne_nil hs, leading_of_ne_nil hs]

/-- A segment behind a separator has no say in what the first segment gives. -/
theorem leading_concat {pieces : List (List UInt8)} (hne : pieces ≠ []) (s t : List UInt8) :
    leading (pieces ++ [s]) = leading (pieces ++ [t]) := by
  by_cases hempty : pieces = [[]]
  · rw [hempty]
    rfl
  · rw [leading_append hne hempty, leading_append hne hempty]

theorem ofSegment_of_isFileName {n : RawText} (h : IsFileName n) :
    Component.ofSegment n.toList = some (.name n) := by
  have hback : ∀ s : RawText, n.toList = s.toList → n = s := fun s => RawText.toList_inj.mp
  have hnoise : ¬ (n.toList = [] ∨ n.toList = [dot]) := by
    rintro (he | he)
    · exact h.ne_empty (hback "" he)
    · exact h.ne_here (hback "." he)
  have hup : n.toList ≠ [dot, dot] := fun he => h.ne_up (hback ".." he)
  unfold Component.ofSegment
  rw [if_neg hnoise, if_neg hup, RawText.ofList_toList]

theorem split_of_isFileName {n : RawText} (h : IsFileName n) : split slash n.toList = [n.toList] :=
  split_of_not_mem h.no_separator

theorem split_separator {cs : List UInt8} {n : RawText} (h : IsFileName n) :
    split slash (cs ++ slash :: n.toList) = split slash cs ++ [n.toList] := by
  rw [split_append_cons_self, split_of_isFileName h]

/-- The components of a path with a name at its end. -/
theorem components_of_split {p : Path} {n : RawText} {pieces : List (List UInt8)}
    (h : IsFileName n) (hp : split slash p.text.toList = pieces ++ [n.toList]) :
    p.components = leading (pieces ++ [n.toList])
      ++ pieces.filterMap Component.ofSegment ++ [.name n] := by
  have hname : [n.toList].filterMap Component.ofSegment = [.name n] :=
    List.filterMap_cons_some (ofSegment_of_isFileName h)
  show leading (split slash p.text.toList) ++ (split slash p.text.toList).filterMap _ = _
  rw [hp, List.filterMap_append, hname, ← List.append_assoc]

theorem components_of_empty {dir : Path} (h : dir.text = "") : dir.components = [] := by
  unfold components
  rw [h]
  rfl

theorem text_eq_empty_of_split {dir : Path} (h : split slash dir.text.toList = [[]]) :
    dir.text = "" := by
  have hjoin := join_split slash dir.text.toList
  rw [h] at hjoin
  exact RawText.toList_eq_nil_iff.mp hjoin.symm

/-- Only the empty path has no components. -/
theorem components_ne_nil {dir : Path} (h : dir.text ≠ "") : dir.components ≠ [] := by
  unfold components
  cases hpieces : split slash dir.text.toList with
  | nil => exact absurd hpieces (split_ne_nil slash _)
  | cons s rest =>
    by_cases hs : s = []
    · subst hs
      cases rest with
      | nil => exact absurd (text_eq_empty_of_split hpieces) h
      | cons t rest => exact List.cons_ne_nil _ _
    · dsimp only
      rw [leading_of_ne_nil hs]
      by_cases hdot : s = [dot]
      · rw [if_pos hdot]
        exact List.cons_ne_nil _ _
      · rw [if_neg hdot, List.nil_append]
        -- A segment that is neither empty nor a dot stands for a component.
        have hsome : ∃ c, Component.ofSegment s = some c := by
          unfold Component.ofSegment
          rw [if_neg (not_or.mpr ⟨hs, hdot⟩)]
          split
          · exact ⟨_, rfl⟩
          · exact ⟨_, rfl⟩
        obtain ⟨c, hc⟩ := hsome
        rw [List.filterMap_cons_some hc]
        exact List.cons_ne_nil _ _

/-- **The components of an entry are those of the directory and its name.** -/
theorem components_join (dir : Path) {n : RawText} (h : IsFileName n) :
    (dir.join n).components = dir.components ++ [.name n] := by
  unfold Path.join
  rw [if_neg (not_isAbsolute_of_isFileName h)]
  by_cases hempty : dir.text = ""
  · have hpieces : split slash (dir.text ++ n).toList = [] ++ [n.toList] := by
      rw [hempty, RawText.empty_append]
      exact split_of_isFileName h
    have hne : n.toList ≠ [] := fun he => h.ne_empty (RawText.toList_eq_nil_iff.mp he)
    have hdot : n.toList ≠ [dot] := fun he => h.ne_here (RawText.toList_inj.mp he)
    rw [if_pos (by simp [hempty]), components_of_split h hpieces, components_of_empty hempty,
      List.nil_append, leading_of_ne_nil hne, if_neg hdot]
    rfl
  · by_cases hends : dir.endsInSeparator = true
    · -- The empty segment behind the last separator is the one the name takes the place of.
      obtain ⟨cs, hcs⟩ := text_of_endsInSeparator hends
      have hpieces : split slash (dir.text ++ n).toList = split slash cs ++ [n.toList] := by
        rw [RawText.toList_append, hcs, List.append_assoc]
        exact split_separator h
      have hdir : dir.components
          = leading (split slash cs ++ [[]]) ++ (split slash cs).filterMap Component.ofSegment := by
        unfold components
        rw [hcs, split_append_cons_self]
        simp [Component.ofSegment, split]
      rw [if_pos (by simp [hends]), components_of_split h hpieces, hdir,
        leading_concat (split_ne_nil _ _) n.toList []]
    · have hpieces : split slash (dir.text ++ "/" ++ n).toList
          = split slash dir.text.toList ++ [n.toList] := by
        rw [toList_separated]
        exact split_separator h
      rw [if_neg (by simp [hends, hempty]), components_of_split h hpieces,
        leading_append (split_ne_nil _ _) fun he => hempty (text_eq_empty_of_split he)]
      rfl

/-- Entries of one directory with different names have different components. -/
theorem components_join_eq_iff (dir : Path) {n m : RawText} (hn : IsFileName n)
    (hm : IsFileName m) : (dir.join n).components = (dir.join m).components ↔ n = m := by
  rw [components_join dir hn, components_join dir hm, List.append_cancel_left_eq]
  simp

/-- **Entries of one directory are in the order of their names.** -/
theorem compare_join (dir : Path) {n m : RawText} (hn : IsFileName n) (hm : IsFileName m) :
    compare (dir.join n) (dir.join m) = compare n m := by
  show compare (dir.join n).components (dir.join m).components = _
  rw [components_join dir hn, components_join dir hm, compare_append_left,
    List.compare_cons_cons, Component.compare_name]
  cases compare n m <;> rfl

end Path

end JavaEntities
