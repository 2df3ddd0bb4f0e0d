import JavaEntities.Proofs.FileSystem.Changes
import JavaEntities.Proofs.FileSystem.Onward

/-!
# What files hold after a change

A new entry is where the path that missed it leads from then on (`follow_of_addEntry`).
Making directories changes the bytes of no file and makes none (`fileAt?_makeDirs`). A
write leads to exactly one file, which has its bytes, and leaves all others
(`canonical?_of_writeBytes`).
-/

namespace JavaEntities.FileSystem

variable {fs fs' : FileSystem} {p : Path}

/-! ## Where the new entry is -/

/-- A path that missed a name goes on through the entry once there is one. -/
theorem follow_of_addEntry {links : List RawText → Bool} {d : Address} {n : RawText}
    {rest : List RawText} {c : Node} (hf : fs.follow links p = .ok (.absent d n rest))
    (hadd : fs.addEntry d n c = .ok fs') (hc : c.IsLeaf) :
    fs'.root.get? (d ++ [n]) = some c ∧
      ∃ m, ∀ l stop, fs'.root.Walks links m d (n :: rest) l stop →
        fs'.follow links p = .ok stop := by
  have hnone := (follow_absent_look hf).2.2
  have hpart := partOf_addEntry hadd hnone hc
  obtain ⟨hd, rfl⟩ := addEntry_eq_ok hadd
  have hnew : (fs.root.modify (Node.addChild n c) d).get? (d ++ [n]) = some c := by
    rw [get?_addChild hd (Node.sight?_eq_none_iff.mp hnone) hc (by simp), if_pos rfl]
  obtain ⟨hp, hwalk⟩ := follow_eq_ok_iff.mp hf
  obtain ⟨m, hm⟩ := (Node.walks_iff.mpr ⟨rfl, hwalk⟩).resume hpart.sight_eq
  refine ⟨hnew, m, ?_⟩
  intro l stop hway
  obtain ⟨l', hl'⟩ := hm l stop hway
  exact follow_eq_ok_iff.mpr ⟨hp, hl'.eq.2⟩

/-! ## Making directories -/

/-- To make a directory changes no file. -/
theorem fileAt?_makeDir (h : fs.makeDir p = .ok fs') (x : Address) :
    fs'.root.fileAt? x = fs.root.fileAt? x := by
  obtain ⟨d, n, rest, hf, -, hadd⟩ := makeDir_eq_ok h
  have hget := Node.sight?_eq_none_iff.mp (follow_absent_look hf).2.2
  obtain ⟨hd, rfl⟩ := addEntry_eq_ok hadd
  by_cases hx : x = d ++ [n]
  · subst hx
    rw [Node.fileAt?, Node.fileAt?, get?_addChild hd hget Node.isLeaf_emptyDir (by simp),
      if_pos rfl, hget]
  · exact fileAt?_addChild hd hget Node.isLeaf_emptyDir hx

/-- To make directories changes no file. -/
theorem fileAt?_of_makes {paths : List Path} (h : Relation.ReflTransGen (Makes paths) fs fs')
    (x : Address) : fs'.root.fileAt? x = fs.root.fileAt? x := by
  induction h with
  | refl => rfl
  | tail _ hmakes ih =>
    obtain ⟨p, -, hmake⟩ := hmakes
    exact (fileAt?_makeDir hmake x).trans ih

/-- Making directories changes the bytes of no file and makes none, whether it succeeds or
not. -/
theorem fileAt?_makeDirs (fs : FileSystem) (p : Path) (x : Address) :
    (fs.makeDirs p).2.root.fileAt? x = fs.root.fileAt? x :=
  fileAt?_of_makes (makes_makeChain (chain p) fs) x

/-! ## Writing -/

/-- A write leads to one file. This file has its bytes, and all others have kept theirs. -/
theorem canonical?_of_writeBytes {bytes : ByteArray} (h : fs.writeBytes p bytes = .ok fs') :
    ∃ a, fs'.canonical? p = some a ∧
      ∀ x, fs'.root.fileAt? x = if x = a then some bytes else fs.root.fileAt? x := by
  rcases writeBytes_eq_ok h with ⟨a, hf, ha, rfl⟩ | ⟨d, n, hf, hadd⟩
  · have hshown : fs.root.sight? a ≠ none := by
      rw [ha]
      exact Option.some_ne_none _
    refine ⟨a, (partOf_writeBytes h).canonical?_eq ?_, ?_⟩
    · exact canonical?_eq_some_iff.mpr ⟨follow_all_of_reached hf, hshown⟩
    · intro x
      by_cases hx : x = a
      · subst hx
        obtain ⟨old, hold⟩ := Node.sight?_eq_file_iff.mp ha
        rw [if_pos rfl, Node.fileAt?, Node.get?_modify_self, hold]
        rfl
      · rw [if_neg hx]
        exact fileAt?_overwritten ha hx
  · obtain ⟨hname, hlength, hnone⟩ := follow_absent_look hf
    obtain ⟨hnew, m, hm⟩ := follow_of_addEntry hf hadd (Node.isLeaf_file bytes)
    have hfile := Node.sight?_eq_file_iff.mpr ⟨bytes, hnew⟩
    have hshown : fs'.root.sight? (d ++ [n]) ≠ none := by
      rw [hfile]
      exact Option.some_ne_none _
    refine ⟨d ++ [n], canonical?_eq_some_iff.mpr ⟨?_, hshown⟩, ?_⟩
    · have hway := Node.Advances.file hname hlength hfile
      exact follow_all_of_reached (hm _ _ (hway.walks rfl _ m))
    · intro x
      obtain ⟨hd, rfl⟩ := addEntry_eq_ok hadd
      by_cases hx : x = d ++ [n]
      · rw [if_pos hx, hx, Node.fileAt?, hnew]
      · rw [if_neg hx]
        exact fileAt?_addChild hd (Node.sight?_eq_none_iff.mp hnone) (Node.isLeaf_file bytes) hx

end JavaEntities.FileSystem
