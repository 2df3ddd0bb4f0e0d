import Mathlib.Logic.Relation
import JavaEntities.Proofs.FileSystem.Part
import JavaEntities.Proofs.FileSystem.Segments

/-!
# What the changes do

For each change, what it asks of the tree and what it gives. From there: what making
directories adds to is a part of the result, what a write adds to is a part of the result
but for the bytes of the file that the path leads to, and what a removal leaves is a part
of what was there.
-/

namespace JavaEntities.FileSystem

variable {fs fs' : FileSystem} {p : Path}

/-! ## New entries -/

/-- An entry is added to a directory, and nothing else changes. -/
theorem addEntry_eq_ok {d : Address} {n : RawText} {c : Node}
    (h : fs.addEntry d n c = .ok fs') :
    fs.root.sight? d = some .dir ∧
      fs' = { fs with root := fs.root.modify (Node.addChild n c) d } := by
  rw [addEntry] at h
  cases hd : fs.root.get? d with
  | none => rw [hd] at h; exact nomatch h
  | some node =>
    rw [hd] at h
    cases node with
    | file bytes => exact nomatch h
    | link target => exact nomatch h
    | dir entries => exact ⟨Node.sight?_eq_dir_iff.mpr ⟨entries, hd⟩, (Except.ok.inj h).symm⟩

/-- A new entry leaves what is there. -/
theorem partOf_addEntry {d : Address} {n : RawText} {c : Node} (h : fs.addEntry d n c = .ok fs')
    (hn : fs.root.sight? (d ++ [n]) = none) (hc : c.IsLeaf) :
    PartOf (fun _ => False) fs fs' := by
  obtain ⟨hd, rfl⟩ := addEntry_eq_ok h
  have hget := Node.sight?_eq_none_iff.mp hn
  have hne : ∀ x, fs.root.sight? x ≠ none → x ≠ d ++ [n] := by
    intro x hx heq
    subst heq
    exact hx hn
  refine ⟨rfl, ?_, ?_⟩
  · intro x hx
    rw [sight?_addChild hd hget hc, if_neg (hne x hx)]
  · intro x hx _
    exact fileAt?_addChild hd hget hc (hne x hx)

/-- A way that ends at a missing name has looked for it in a directory. -/
theorem follow_absent_look {links : List RawText → Bool} {d : Address} {n : RawText}
    {rest : List RawText} (h : fs.follow links p = .ok (.absent d n rest)) :
    IsName n ∧ n.size ≤ nameLimit ∧ fs.root.sight? (d ++ [n]) = none := by
  have hway := Node.walks_iff.mpr ⟨rfl, (follow_eq_ok_iff.mp h).2⟩
  obtain ⟨hname, hlength, hnone, -⟩ := hway.absent_look
  exact ⟨hname, hlength, hnone⟩

/-- What a path leads to without passing its last link, it leads to in any case. -/
theorem follow_all_of_reached {links : List RawText → Bool} {a : Address}
    (h : fs.follow links p = .ok (.reached a)) :
    fs.follow (fun _ => true) p = .ok (.reached a) := by
  obtain ⟨hp, hwalk⟩ := follow_eq_ok_iff.mp h
  have hway := Node.walks_iff.mpr ⟨rfl, hwalk⟩
  exact follow_eq_ok_iff.mpr ⟨hp, (hway.follow_all fun _ _ _ _ => nofun).eq.2⟩

/-! ## Making directories -/

/-- A directory is made only at a missing name of a directory. -/
theorem makeDir_eq_ok (h : fs.makeDir p = .ok fs') :
    ∃ d n rest, fs.follow (fun rest => !atEnd rest) p = .ok (.absent d n rest) ∧
      atEnd rest = true ∧ fs.addEntry d n (.dir []) = .ok fs' := by
  rw [makeDir] at h
  cases hf : fs.follow (fun rest => !atEnd rest) p with
  | error c => rw [hf] at h; exact nomatch h
  | ok stop =>
    rw [hf] at h
    cases stop with
    | reached a => exact nomatch h
    | blocked f rest => exact nomatch h
    | link d n target rest => exact nomatch h
    | tooLong rest => exact nomatch h
    | endless => exact nomatch h
    | absent d n rest =>
      dsimp only at h
      by_cases hrest : atEnd rest = true
      · rw [if_pos hrest] at h
        exact ⟨d, n, rest, rfl, hrest, h⟩
      · rw [if_neg hrest] at h
        exact nomatch h

/-- To make a directory keeps what was there. -/
theorem partOf_makeDir (h : fs.makeDir p = .ok fs') : PartOf (fun _ => False) fs fs' := by
  obtain ⟨d, n, rest, hf, -, hadd⟩ := makeDir_eq_ok h
  exact partOf_addEntry hadd (follow_absent_look hf).2.2 Node.isLeaf_emptyDir

/-- Whether one of several paths was made as a directory. -/
def Makes (paths : List Path) (fs fs' : FileSystem) : Prop :=
  ∃ p ∈ paths, fs.makeDir p = .ok fs'

/-- Directories may be made of more paths than needed. -/
theorem Makes.cons {paths : List Path} (q : Path) (fs fs' : FileSystem) (h : Makes paths fs fs') :
    Makes (q :: paths) fs fs' := by
  obtain ⟨p, hp, hmake⟩ := h
  exact ⟨p, List.mem_cons_of_mem q hp, hmake⟩

/-- Making a directory with those above it comes to making single ones of them, one after the
other, whether it succeeds or not. -/
theorem makes_makeChain (paths : List Path) (fs : FileSystem) :
    Relation.ReflTransGen (Makes paths) fs (makeChain paths fs).2 := by
  induction paths generalizing fs with
  | nil => exact .refl
  | cons p above ih =>
    have hstep : ∀ {fs fs'}, makeDir fs p = .ok fs' → Makes (p :: above) fs fs' :=
      fun h => ⟨p, List.mem_cons_self .., h⟩
    rw [makeChain]
    split
    · next h => exact .single (hstep h)
    · have habove : Relation.ReflTransGen (Makes (p :: above)) fs (makeChain above fs).2 :=
        Relation.ReflTransGen.mono (Makes.cons p) _ _ (ih fs)
      split
      · next h => rwa [h] at habove
      · next fs₁ h =>
        rw [h] at habove
        split
        · next h' => exact habove.tail (hstep h')
        · split
          · exact habove
          · exact habove
    · split
      · exact .refl
      · exact .refl

/-- Directories made one after the other keep what was there. -/
theorem partOf_of_makes {paths : List Path} (h : Relation.ReflTransGen (Makes paths) fs fs') :
    PartOf (fun _ => False) fs fs' := by
  induction h with
  | refl => exact .refl _ fs
  | tail _ hmakes ih =>
    obtain ⟨p, -, hmake⟩ := hmakes
    exact ih.trans (partOf_makeDir hmake)

/-- Making directories leaves what is there, whether it succeeds or not. -/
theorem partOf_makeDirs (fs : FileSystem) (p : Path) :
    PartOf (fun _ => False) fs (fs.makeDirs p).2 :=
  partOf_of_makes (makes_makeChain (chain p) fs)

/-! ## Writing -/

/-- A write puts its bytes in place of those of a file, or makes a file at a missing
name of a directory. -/
theorem writeBytes_eq_ok {bytes : ByteArray} (h : fs.writeBytes p bytes = .ok fs') :
    (∃ a, fs.follow (fun rest => !isMarked rest) p = .ok (.reached a) ∧
      fs.root.sight? a = some .file ∧
      fs' = { fs with root := fs.root.modify (fun _ => .file bytes) a }) ∨
    (∃ d n, fs.follow (fun rest => !isMarked rest) p = .ok (.absent d n []) ∧
      fs.addEntry d n (.file bytes) = .ok fs') := by
  rw [writeBytes] at h
  cases hf : fs.follow (fun rest => !isMarked rest) p with
  | error c => rw [hf] at h; exact nomatch h
  | ok stop =>
    rw [hf] at h
    cases stop with
    | blocked f rest => exact nomatch h
    | link d n target rest => exact nomatch h
    | tooLong rest => exact nomatch h
    | endless => exact nomatch h
    | reached a =>
      dsimp only at h
      cases ha : fs.root.get? a with
      | none => rw [ha] at h; exact nomatch h
      | some node =>
        rw [ha] at h
        cases node with
        | link target => exact nomatch h
        | dir entries => exact nomatch h
        | file old =>
          left
          exact ⟨a, rfl, Node.sight?_eq_file_iff.mpr ⟨old, ha⟩, (Except.ok.inj h).symm⟩
    | absent d n rest =>
      dsimp only at h
      by_cases hrest : rest = []
      · rw [if_pos hrest] at h
        right
        subst hrest
        exact ⟨d, n, rfl, h⟩
      · rw [if_neg hrest] at h
        exact nomatch h

/-- A write changes the bytes of no file but the one that its path leads to. -/
theorem partOf_writeBytes {bytes : ByteArray} (h : fs.writeBytes p bytes = .ok fs') :
    PartOf (fun x => fs'.canonical? p = some x) fs fs' := by
  rcases writeBytes_eq_ok h with ⟨a, hf, ha, rfl⟩ | ⟨d, n, hf, hadd⟩
  · have hsight : ∀ x, (fs.root.modify (fun _ => .file bytes) a).sight? x = fs.root.sight? x :=
      fun x => sight?_overwritten ha
    have hpart : PartOf (fun x => x = a) fs
        { fs with root := fs.root.modify (fun _ => .file bytes) a } :=
      ⟨rfl, fun x _ => hsight x, fun x _ hx => fileAt?_overwritten ha hx⟩
    have hshown : fs.root.sight? a ≠ none := by
      rw [ha]
      exact Option.some_ne_none _
    refine hpart.mono ?_
    intro x heq
    subst heq
    exact hpart.canonical?_eq (canonical?_eq_some_iff.mpr ⟨follow_all_of_reached hf, hshown⟩)
  · refine (partOf_addEntry hadd (follow_absent_look hf).2.2 (Node.isLeaf_file bytes)).mono ?_
    exact fun x hx => hx.elim

/-! ## Removing -/

/-- What is left without an entry was there before. -/
theorem partOf_dropEntry (fs : FileSystem) (d : Address) (n : RawText) :
    PartOf (fun _ => False) (fs.dropEntry d n) fs := by
  have hkept : ∀ x, (fs.dropEntry d n).root.sight? x ≠ none → ¬ d ++ [n] <+: x := by
    intro x hx habove
    rw [sight?_dropEntry, if_pos habove] at hx
    exact hx rfl
  refine ⟨rfl, ?_, ?_⟩
  · intro x hx
    rw [sight?_dropEntry, if_neg (hkept x hx)]
  · intro x hx _
    exact (fileAt?_dropEntry fs (hkept x hx)).symm

/-- The file system with a directory emptied. -/
def emptied (fs : FileSystem) (a : Address) : FileSystem :=
  { fs with root := fs.root.modify (fun _ => .dir []) a }

/-- What is left when a directory is emptied was there before. -/
theorem partOf_emptied {a : Address} (ha : fs.root.sight? a = some .dir) :
    PartOf (fun _ => False) (fs.emptied a) fs := by
  have hkept : ∀ x, (fs.emptied a).root.sight? x ≠ none → ¬ (a <+: x ∧ x ≠ a) := by
    intro x hx hbelow
    rw [emptied, sight?_emptied ha, if_pos hbelow] at hx
    exact hx rfl
  refine ⟨rfl, ?_, ?_⟩
  · intro x hx
    rw [emptied, sight?_emptied ha, if_neg (hkept x hx)]
  · intro x hx _
    by_cases hxa : x = a
    · obtain ⟨entries, he⟩ := Node.sight?_eq_dir_iff.mp ha
      rw [hxa, emptied, Node.fileAt?, Node.fileAt?, Node.get?_modify_self, he]
      rfl
    · exact (Node.fileAt?_modify_of_not_below _ _ fun habove => hkept x hx ⟨habove, hxa⟩).symm

/-- An empty directory is removed by the last segment of its path, which has to be a name. -/
theorem removeDir_eq_ok (h : fs.removeDir p = .ok fs') :
    ∃ a last, fs.follow (fun rest => !atEnd rest) p = .ok (.reached a) ∧
      lastSegment? p = some last ∧ IsName last ∧ fs.root.get? a = some (.dir []) ∧
      fs' = fs.dropEntry a.dropLast last := by
  rw [removeDir] at h
  cases hf : fs.follow (fun rest => !atEnd rest) p with
  | error c => rw [hf] at h; exact nomatch h
  | ok stop =>
    rw [hf] at h
    cases stop with
    | absent d n rest => exact nomatch h
    | blocked f rest => exact nomatch h
    | link d n target rest => exact nomatch h
    | tooLong rest => exact nomatch h
    | endless => exact nomatch h
    | reached a =>
      dsimp only at h
      cases hlast : ((segments p.text).filter (· ≠ ("" : RawText))).getLast? with
      | none => rw [hlast] at h; exact nomatch h
      | some last =>
        rw [hlast] at h
        dsimp only at h
        have hne : last ≠ "" := by
          have hmem := List.mem_of_getLast? hlast
          simpa using (List.mem_filter.mp hmem).2
        by_cases hhere : last = "."
        · rw [if_pos hhere] at h; exact nomatch h
        · rw [if_neg hhere] at h
          by_cases hup : last = ".."
          · rw [if_pos hup] at h; exact nomatch h
          · rw [if_neg hup] at h
            cases ha : fs.root.get? a with
            | none => rw [ha] at h; exact nomatch h
            | some node =>
              rw [ha] at h
              cases node with
              | file bytes => exact nomatch h
              | link target => exact nomatch h
              | dir entries =>
                cases entries with
                | cons e entries => exact nomatch h
                | nil => exact ⟨a, last, rfl, hlast, ⟨hne, hhere, hup⟩, ha, (Except.ok.inj h).symm⟩

/-- What is left when a directory is removed was there before. -/
theorem partOf_removeDir (h : fs.removeDir p = .ok fs') : PartOf (fun _ => False) fs' fs := by
  obtain ⟨a, last, -, -, -, -, rfl⟩ := removeDir_eq_ok h
  exact partOf_dropEntry fs a.dropLast last

/-- What removing a directory takes is the directory that its path leads to. -/
theorem removeDir_eq_dropEntry (h : fs.removeDir p = .ok fs') :
    ∃ d n, fs.follow (fun _ => true) p = .ok (.reached (d ++ [n])) ∧
      fs.root.get? (d ++ [n]) = some (.dir []) ∧ fs' = fs.dropEntry d n := by
  obtain ⟨a, last, hf, hlast, hname, ha, rfl⟩ := removeDir_eq_ok h
  have hway := Node.walks_iff.mpr ⟨rfl, (follow_eq_ok_iff.mp hf).2⟩
  obtain ⟨pre, hsegs⟩ := segments_of_lastSegment? hlast
  rw [hsegs] at hway
  -- No link at the end is followed, so the address ends with the last segment.
  obtain ⟨d, rfl⟩ := hway.ends hname (fun s hs => eq_empty_of_mem_mark hs) (by
    intro rest hrest
    rw [atEnd_of_suffix_mark hrest]
    rfl)
  refine ⟨d, last, follow_all_of_reached hf, ha, ?_⟩
  rw [List.dropLast_concat]

/-- What a removal can come to. -/
inductive Removes (fs : FileSystem) (p : Path) : Except IoCause Unit × FileSystem → Prop
  /-- Nothing is removed. -/
  | refused (c : IoCause) : Removes fs p (.error c, fs)
  /-- The path ends at a link, which is removed. -/
  | unlinked {d : Address} {n target : RawText} {rest : List RawText}
      (hf : fs.follow (fun rest => rest ≠ []) p = .ok (.link d n target rest)) :
      Removes fs p (.ok (), fs.dropEntry d n)
  /-- The path leads to a directory, which is emptied and removed. -/
  | removed {a : Address} {fs' : FileSystem}
      (hf : fs.follow (fun rest => rest ≠ []) p = .ok (.reached a))
      (ha : fs.root.sight? a = some .dir) (h : (fs.emptied a).removeDir p = .ok fs') :
      Removes fs p (.ok (), fs')
  /-- The path led to a directory through what the directory held. -/
  | cutOff {a : Address} (hf : fs.follow (fun rest => rest ≠ []) p = .ok (.reached a))
      (ha : fs.root.sight? a = some .dir)
      (h : (fs.emptied a).removeDir p = .error (.os .notFound)) :
      Removes fs p (.ok (), fs.emptied a)
  /-- The directory is emptied and cannot be removed. -/
  | stuck {a : Address} {c : IoCause} (hf : fs.follow (fun rest => rest ≠ []) p = .ok (.reached a))
      (ha : fs.root.sight? a = some .dir) (h : (fs.emptied a).removeDir p = .error c) :
      Removes fs p (.error c, fs.emptied a)

/-- A removal comes to one of these. -/
theorem removes (fs : FileSystem) (p : Path) : Removes fs p (fs.removeAll p) := by
  rw [removeAll]
  cases hf : fs.follow (fun rest => rest ≠ []) p with
  | error c => exact .refused c
  | ok stop =>
    cases stop with
    | absent d n rest => exact .refused _
    | blocked f rest => exact .refused _
    | tooLong rest => exact .refused _
    | endless => exact .refused _
    | link d n target rest => exact .unlinked hf
    | reached a =>
      dsimp only
      cases hget : fs.root.get? a with
      | none => exact .refused _
      | some node =>
        cases node with
        | file bytes => exact .refused _
        | link target => exact .refused _
        | dir entries =>
          have ha := Node.sight?_eq_dir_iff.mpr ⟨entries, hget⟩
          dsimp only
          split
          · next h => exact .removed hf ha h
          · next h => exact .cutOff hf ha h
          · next h => exact .stuck hf ha h

/-- What a removal leaves is a part of what was there, whether it succeeds or not. -/
theorem partOf_removeAll (fs : FileSystem) (p : Path) :
    PartOf (fun _ => False) (fs.removeAll p).2 fs := by
  have h := removes fs p
  generalize fs.removeAll p = r at h
  cases h with
  | refused c => exact .refl _ fs
  | unlinked hf => exact partOf_dropEntry fs _ _
  | removed hf ha h => exact (partOf_removeDir h).trans (partOf_emptied ha)
  | cutOff hf ha h => exact partOf_emptied ha
  | stuck hf ha h => exact partOf_emptied ha

/-- A path that leads to a directory, links followed or not, has its address. -/
theorem canonical?_of_reached {links : List RawText → Bool} {a : Address}
    (hf : fs.follow links p = .ok (.reached a)) (ha : fs.root.sight? a = some .dir) :
    fs.canonical? p = some a := by
  refine canonical?_eq_some_iff.mpr ⟨follow_all_of_reached hf, ?_⟩
  rw [ha]
  exact Option.some_ne_none _

/-- What is gone when a directory is emptied was in it. -/
theorem prefix_of_emptied_eq_none {a x : Address} (ha : fs.root.sight? a = some .dir)
    (hgone : (fs.emptied a).root.sight? x = none) (hx : fs.root.sight? x ≠ none) : a <+: x := by
  rw [emptied, sight?_emptied ha] at hgone
  by_cases hbelow : a <+: x ∧ x ≠ a
  · exact hbelow.1
  · rw [if_neg hbelow] at hgone
    exact absurd hgone hx

/-- What is gone without an entry was at it or below. -/
theorem prefix_of_dropEntry_eq_none {d x : Address} {n : RawText}
    (hgone : (fs.dropEntry d n).root.sight? x = none) (hx : fs.root.sight? x ≠ none) :
    d ++ [n] <+: x := by
  rw [sight?_dropEntry] at hgone
  by_cases hbelow : d ++ [n] <+: x
  · exact hbelow
  · rw [if_neg hbelow] at hgone
    exact absurd hgone hx

/-- **A removal takes nothing but a link, or the directory its path leads to and what that
holds.** -/
theorem taken_removeAll {x : Address} (hgone : (fs.removeAll p).2.root.sight? x = none)
    (hx : fs.root.sight? x ≠ none) :
    (∃ target, fs.root.sight? x = some (.link target)) ∨
      ∃ a, fs.canonical? p = some a ∧ fs.root.sight? a = some .dir ∧ a <+: x := by
  have h := removes fs p
  generalize fs.removeAll p = r at h hgone
  cases h with
  | refused c => exact absurd hgone hx
  | @unlinked d n target rest hf =>
    -- Nothing lies below a link, so what is gone is the link itself.
    left
    have hway := Node.walks_iff.mpr ⟨rfl, (follow_eq_ok_iff.mp hf).2⟩
    have hlink := hway.link_mem_trail.1
    obtain ⟨r, rfl⟩ := prefix_of_dropEntry_eq_none hgone hx
    by_cases hr : r = []
    · subst hr
      rw [List.append_nil]
      exact ⟨target, hlink⟩
    · have hdir := Node.sight?_eq_dir_of_sight?_append hr hx
      rw [hlink] at hdir
      exact absurd (Option.some.inj hdir) (by simp)
  | @removed a fs' hf ha h =>
    right
    refine ⟨a, canonical?_of_reached hf ha, ha, ?_⟩
    obtain ⟨d, n, hf', -, rfl⟩ := removeDir_eq_dropEntry h
    -- The path leads to the same directory before and after it is emptied.
    have hsame : d ++ [n] = a := by
      have hd := (partOf_emptied ha).follow_eq hf'
      rw [follow_all_of_reached hf] at hd
      exact (Stop.reached.inj (Except.ok.inj hd)).symm
    by_cases hkept : (fs.emptied a).root.sight? x = none
    · exact prefix_of_emptied_eq_none ha hkept hx
    · rw [← hsame]
      exact prefix_of_dropEntry_eq_none hgone hkept
  | cutOff hf ha h =>
    right
    exact ⟨_, canonical?_of_reached hf ha, ha, prefix_of_emptied_eq_none ha hgone hx⟩
  | stuck hf ha h =>
    right
    exact ⟨_, canonical?_of_reached hf ha, ha, prefix_of_emptied_eq_none ha hgone hx⟩

end JavaEntities.FileSystem
