import JavaEntities.Proofs.FileSystem.Confined

/-!
# Making a directory again

Several changes of the node at one address are one change of it (`modify_modify`), and as
long as names are distinct a change that leaves this node as it is changes nothing
(`modify_eq_self`). So a directory that was made can be removed without a trace, whatever
has been put into it since (`removeAll_of_made`).
-/

namespace JavaEntities.FileSystem

namespace Node

/-- A change that leaves a node as it is leaves the tree so. -/
theorem modify_id (a : Address) (t : Node) : t.modify (fun n => n) a = t := by
  induction a generalizing t with
  | nil => rfl
  | cons m a ih =>
    cases t with
    | file bytes => rfl
    | link target => rfl
    | dir entries =>
      have hentry : ∀ e : RawText × Node,
          (if e.1 = m then (e.1, modify (fun n => n) a e.2) else e) = e := by
        intro e
        rw [ih, ite_self]
      rw [modify]
      simp only [hentry, List.map_id']

/-- A change further down is a change of the node above it. -/
theorem modify_append (f : Node → Node) (a b : Address) (t : Node) :
    t.modify f (a ++ b) = t.modify (fun n => n.modify f b) a := by
  induction a generalizing t with
  | nil => rfl
  | cons m a ih =>
    cases t with
    | file bytes => rfl
    | link target => rfl
    | dir entries =>
      rw [List.cons_append, modify, modify]
      simp only [ih]

/-- Two changes of a node are one. -/
theorem modify_modify (f g : Node → Node) (a : Address) (t : Node) :
    (t.modify f a).modify g a = t.modify (fun n => g (f n)) a := by
  induction a generalizing t with
  | nil => rfl
  | cons m a ih =>
    cases t with
    | file bytes => rfl
    | link target => rfl
    | dir entries =>
      rw [modify, modify, modify, List.map_map]
      congr 1
      refine List.map_congr_left fun e _ => ?_
      by_cases he : e.1 = m
      · simp [he, ih]
      · simp [he]

/-- Where names are distinct, a change that leaves the node as it is changes nothing. -/
theorem modify_eq_self {f : Node → Node} {a : Address} {n t : Node} (h : t.WellNamed)
    (ha : t.get? a = some n) (hf : f n = n) : t.modify f a = t := by
  induction a generalizing t with
  | nil => rwa [← Option.some.inj ha] at hf
  | cons m a ih =>
    cases t with
    | file bytes => rfl
    | link target => rfl
    | dir entries =>
      obtain ⟨c, hc, hn⟩ := Option.bind_eq_some_iff.mp ha
      have hdistinct : (entries.map Prod.fst).Nodup := (h [] _ rfl).1
      have hentry : ∀ e ∈ entries, (if e.1 = m then (e.1, modify f a e.2) else e) = e := by
        intro e he
        by_cases hm : e.1 = m
        · -- The only entry with the name is the one that is found under it.
          have hlookup := lookup_of_mem hdistinct he
          rw [hm, show entries.lookup m = some c from hc] at hlookup
          have hchild : c.WellNamed := Everywhere.get? (a := [m]) h (by rw [Node.get?, hc]; rfl)
          rw [if_pos hm, ← Option.some.inj hlookup, ih hchild hn]
          exact Prod.ext rfl (Option.some.inj hlookup)
        · exact if_neg hm
      rw [modify, List.map_congr_left hentry, List.map_id']

/-- A new entry that is dropped again leaves no trace. -/
theorem dropChild_addChild {m : RawText} {c : Node} {entries : List (RawText × Node)}
    (hnew : entries.lookup m = none) :
    dropChild m (addChild m c (dir entries)) = dir entries := by
  have hold : entries.filter (fun e => e.1 ≠ m) = entries :=
    List.filter_eq_self.mpr fun e he => by
      simpa using lookup_eq_none_iff_names.mp hnew e he
  rw [addChild, dropChild, List.filter_append, hold]
  simp

end Node

variable {fs fs' fs'' : FileSystem} {p root : Path} {a : Address}

/-! ## Changes of one node -/

/-- Whether all that changes from one file system to another is the node at an address. -/
def ChangedAt (a : Address) (fs fs' : FileSystem) : Prop :=
  ∃ f, fs' = { fs with root := fs.root.modify f a }

namespace ChangedAt

theorem refl (a : Address) (fs : FileSystem) : ChangedAt a fs fs :=
  ⟨fun n => n, by rw [Node.modify_id]⟩

theorem trans (h : ChangedAt a fs fs') (h' : ChangedAt a fs' fs'') : ChangedAt a fs fs'' := by
  obtain ⟨f, rfl⟩ := h
  obtain ⟨g, rfl⟩ := h'
  exact ⟨fun n => g (f n), by rw [Node.modify_modify]⟩

/-- What is emptied after a change is as if it had been emptied before. -/
theorem emptied_eq (h : ChangedAt a fs fs') : fs'.emptied a = fs.emptied a := by
  obtain ⟨f, rfl⟩ := h
  rw [emptied, emptied, Node.modify_modify]

end ChangedAt

/-- A write to an entry of a directory changes the directory. -/
theorem changedAt_writeBytes {n : RawText} {bytes : ByteArray} (hlinks : fs.root.LinkFree)
    (hn : IsFileName n) (hne : root.text ≠ "")
    (h : fs.writeBytes (root.join n) bytes = .ok fs') : ChangedAt (fs.lexical root) fs fs' := by
  rcases writeBytes_eq_ok h with ⟨b, hf, -, rfl⟩ | ⟨d, m, hf, hadd⟩
  · obtain rfl := lexical_of_reached hlinks hf
    rw [lexical_join hn hne, Node.modify_append]
    exact ⟨_, rfl⟩
  · have hplace : fs.lexical (root.join n) = d ++ [m] := lexical_of_absent hlinks hf
    rw [lexical_join hn hne] at hplace
    obtain ⟨rfl, -⟩ := List.append_inj' hplace rfl
    obtain ⟨-, rfl⟩ := addEntry_eq_ok hadd
    exact ⟨_, rfl⟩

/-! ## Removing what was made -/

/-- The name that a way misses at its end is the last segment of the path. -/
theorem lastSegment?_of_absent (hlinks : fs.root.LinkFree) {links : List RawText → Bool}
    {d : Address} {n : RawText} {rest : List RawText} (hrest : atEnd rest = true)
    (hf : fs.follow links p = .ok (.absent d n rest)) : lastSegment? p = some n := by
  have hname := (follow_absent_look hf).1
  obtain ⟨pre, hpre⟩ := (advances_of_follow hlinks hf).absent_suffix
  have hempty : rest.filter (· ≠ ("" : RawText)) = [] := by
    have hcases : rest = [] ∨ rest = [("" : RawText)] := by simpa [atEnd] using hrest
    rcases hcases with rfl | rfl
    · rfl
    · rfl
  have hsegs : (n :: rest).filter (· ≠ ("" : RawText)) = [n] := by
    rw [List.filter_cons, if_pos (by simpa using hname.ne_empty), hempty]
  rw [lastSegment?, ← hpre, List.filter_append, hsegs, List.getLast?_concat]

/-- An empty directory is removed by the last name of its path. -/
theorem removeDir_eq {last : RawText}
    (hf : fs.follow (fun rest => !atEnd rest) p = .ok (.reached a))
    (hlast : lastSegment? p = some last) (hname : IsName last)
    (ha : fs.root.get? a = some (.dir [])) :
    fs.removeDir p = .ok (fs.dropEntry a.dropLast last) := by
  unfold lastSegment? at hlast
  unfold removeDir
  rw [hf]
  dsimp only
  rw [hlast]
  dsimp only
  rw [if_neg hname.ne_here, if_neg hname.ne_up, ha]

/-- A directory that was made is removed without a trace. -/
theorem removeDir_of_made (hlinks : fs.root.LinkFree) (hnames : fs.root.WellNamed)
    (h : fs.makeDir p = .ok fs') : fs'.removeDir p = .ok fs := by
  have hlinks' := everywhere_makeDir Node.lasting_linkFree h hlinks
  obtain ⟨b, hb⟩ := locate_of_makeDir h
  obtain ⟨hfollow, hempty⟩ := locate_eq_ok_iff.mp hb
  obtain ⟨d, n, rest, hf, hrest, hadd⟩ := makeDir_eq_ok h
  obtain ⟨hname, -, hmissing⟩ := follow_absent_look hf
  have hlast := lastSegment?_of_absent hlinks hrest hf
  have hplace : fs.lexical p = d ++ [n] := by
    rw [lexical_of_absent hlinks hf, along_of_atEnd hrest]
  obtain ⟨hd, rfl⟩ := addEntry_eq_ok hadd
  obtain rfl : b = d ++ [n] := by
    rw [lexical_of_reached hlinks' hfollow, ← hplace]
    exact lexical_congr rfl p
  rw [follow_eq_of_linkFree hlinks' _ fun rest => !atEnd rest] at hfollow
  rw [removeDir_eq hfollow hlast hname hempty, List.dropLast_concat, dropEntry,
    Node.modify_modify]
  obtain ⟨entries, hentries⟩ := Node.sight?_eq_dir_iff.mp hd
  have hnew : entries.lookup n = none := by
    rw [← get?_entry hentries]
    exact Node.sight?_eq_none_iff.mp hmissing
  rw [Node.modify_eq_self hnames hentries (Node.dropChild_addChild hnew)]

/-- **What was made is removed without a trace**, whatever has been put into it since. -/
theorem removeAll_of_made (hlinks : fs.root.LinkFree) (hnames : fs.root.WellNamed)
    (h : fs.makeDir p = .ok fs') (hchanged : ChangedAt (fs.lexical p) fs' fs'')
    (hlinks'' : fs''.root.LinkFree) {entries : List (RawText × Node)}
    (hdir : fs''.locate p = .ok (a, .dir entries)) : fs''.removeAll p = (.ok (), fs) := by
  have hlinks' := everywhere_makeDir Node.lasting_linkFree h hlinks
  have hnames' := everywhere_makeDir Node.lasting_wellNamed h hnames
  obtain ⟨b, hb⟩ := locate_of_makeDir h
  obtain ⟨hfollow, hempty⟩ := locate_eq_ok_iff.mp hb
  obtain ⟨hfollow'', hget⟩ := locate_eq_ok_iff.mp hdir
  have hcurrent' : fs'.current = fs.current := (partOf_makeDir h).current_eq
  have hcurrent'' : fs''.current = fs.current := by
    obtain ⟨f, rfl⟩ := hchanged
    exact hcurrent'
  have hplace : b = fs.lexical p := by
    rw [lexical_of_reached hlinks' hfollow, lexical_congr hcurrent']
  have hplace'' : a = fs.lexical p := by
    rw [lexical_of_reached hlinks'' hfollow'', lexical_congr hcurrent'']
  -- Emptied, the directory is again as it was made.
  have hemptied : fs''.emptied a = fs' := by
    rw [hplace'', hchanged.emptied_eq, ← hplace, emptied, Node.modify_eq_self hnames' hempty rfl]
  rw [follow_eq_of_linkFree hlinks'' _ fun rest => rest ≠ []] at hfollow''
  unfold removeAll
  rw [hfollow'']
  dsimp only
  rw [hget]
  dsimp only
  rw [show { fs'' with root := fs''.root.modify (fun _ => .dir []) a } = fs' from hemptied,
    removeDir_of_made hlinks hnames h]

/-- What can be made as it is, is made so together with those above it. -/
theorem makeDirs_of_makeDir (h : fs.makeDir p = .ok fs') (hnames : chain p ≠ []) :
    fs.makeDirs p = (.ok (), fs') := by
  rw [makeDirs, (chain_eq hnames).2, makeChain, h]

end JavaEntities.FileSystem
