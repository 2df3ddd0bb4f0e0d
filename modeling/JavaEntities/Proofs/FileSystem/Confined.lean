import JavaEntities.Proofs.FileSystem.Lexical

/-!
# Changes confined to one place

A change is confined to an address if everything that is neither there nor below is kept,
with the bytes of its files, and what is new elsewhere are directories above the address
(`Confined`). In a tree without links the lexical address of a path is where its changes
are confined to: a removal (`confined_removeAll`), making the directory with those above
it if the path has no `..` (`confined_makeDirs`) and a write (`confined_writeBytes`). An
operation that breaks off can leave anything at an address (`Touched`), and that is
confined as well.
-/

namespace JavaEntities.FileSystem

/-- Whether all that changes from one file system to another is at an address or below it, but
for directories above it that are new. -/
structure Confined (a : Address) (fs fs' : FileSystem) : Prop where
  current_eq : fs'.current = fs.current
  kept : ∀ x, ¬ a <+: x → fs.root.sight? x ≠ none →
    fs'.root.sight? x = fs.root.sight? x ∧ fs'.root.fileAt? x = fs.root.fileAt? x
  made : ∀ x, ¬ a <+: x → fs.root.sight? x = none → fs'.root.sight? x ≠ none →
    x <+: a ∧ fs'.root.sight? x = some .dir

variable {fs fs' fs'' : FileSystem} {p q : Path} {a b x : Address}

namespace Confined

theorem refl (a : Address) (fs : FileSystem) : Confined a fs fs :=
  ⟨rfl, fun _ _ _ => ⟨rfl, rfl⟩, fun _ _ hx hx' => absurd hx hx'⟩

theorem trans (h : Confined a fs fs') (h' : Confined a fs' fs'') : Confined a fs fs'' := by
  refine ⟨h'.current_eq.trans h.current_eq, ?_, ?_⟩
  · intro x hax hx
    obtain ⟨hsight, hfile⟩ := h.kept x hax hx
    rw [← hsight] at hx
    obtain ⟨hsight', hfile'⟩ := h'.kept x hax hx
    exact ⟨hsight'.trans hsight, hfile'.trans hfile⟩
  · intro x hax hx hx''
    by_cases hx' : fs'.root.sight? x = none
    · exact h'.made x hax hx' hx''
    · obtain ⟨habove, hdir⟩ := h.made x hax hx hx'
      exact ⟨habove, (h'.kept x hax hx').1.trans hdir⟩

/-- A change that is confined to an address is confined to those above it. -/
theorem mono (h : Confined b fs fs') (hab : a <+: b) : Confined a fs fs' := by
  have hbx : ∀ {x}, ¬ a <+: x → ¬ b <+: x := fun hax hbx => hax (hab.trans hbx)
  refine ⟨h.current_eq, fun x hax => h.kept x (hbx hax), ?_⟩
  intro x hax hx hx'
  obtain ⟨hxb, hdir⟩ := h.made x (hbx hax) hx hx'
  rcases List.prefix_or_prefix_of_prefix hxb hab with hxa | hax'
  · exact ⟨hxa, hdir⟩
  · exact absurd hax' hax

/-- What is a part of a file system, or has it as a part, differs by no more than the addresses at
which only one of them shows something. -/
theorem of_partOf_add (h : PartOf (fun _ => False) fs fs')
    (hnew : ∀ x, fs.root.sight? x = none → fs'.root.sight? x ≠ none →
      x <+: a ∧ fs'.root.sight? x = some .dir) : Confined a fs fs' :=
  ⟨h.current_eq, fun x _ hx => ⟨h.sight_eq x hx, h.file_eq x hx id⟩, fun x _ => hnew x⟩

/-- What only loses what is at an address or below it is a change confined to it. -/
theorem of_partOf_drop (h : PartOf (fun _ => False) fs' fs)
    (hgone : ∀ x, fs'.root.sight? x = none → fs.root.sight? x ≠ none → a <+: x) :
    Confined a fs fs' := by
  have hleft : ∀ x, ¬ a <+: x → fs.root.sight? x ≠ none → fs'.root.sight? x ≠ none :=
    fun x hax hx hx' => hax (hgone x hx' hx)
  refine ⟨h.current_eq.symm, ?_, ?_⟩
  · intro x hax hx
    have hx' := hleft x hax hx
    exact ⟨(h.sight_eq x hx').symm, (h.file_eq x hx' id).symm⟩
  · intro x _ hx hx'
    rw [← h.sight_eq x hx'] at hx'
    exact absurd hx hx'

end Confined

/-! ## Breaking off -/

/-- Whether the tree is the same but for what stands at an address, if anything does. -/
def Touched (a : Address) (fs fs' : FileSystem) : Prop :=
  ∃ f, fs' = { fs with root := fs.root.modify f a }

/-- An operation that breaks off at an address is confined to it. -/
theorem confined_of_touched (h : Touched a fs fs') : Confined a fs fs' := by
  obtain ⟨f, rfl⟩ := h
  have hsight : ∀ x, ¬ a <+: x → (fs.root.modify f a).sight? x = fs.root.sight? x :=
    fun _ hax => Node.sight?_modify_of_not_below f fs.root hax
  refine ⟨rfl, ?_, ?_⟩
  · exact fun x hax _ => ⟨hsight x hax, Node.fileAt?_modify_of_not_below f fs.root hax⟩
  · exact fun x hax hx hx' => absurd ((hsight x hax).trans hx) hx'

/-! ## Removing -/

/-- What a removal takes in a tree without links is at the lexical address of the path. -/
theorem confined_removeAll (hlinks : fs.root.LinkFree) (p : Path) :
    Confined (fs.lexical p) fs (fs.removeAll p).2 := by
  refine .of_partOf_drop (partOf_removeAll fs p) ?_
  intro x hx' hx
  rcases taken_removeAll hx' hx with ⟨target, hlink⟩ | ⟨b, hb, -, hbx⟩
  · exact absurd hlink (hlinks.sight?_ne_link x target)
  · rwa [← lexical_of_canonical? hlinks hb]

/-! ## Making directories -/

/-- A directory that is made in a tree without links is at the lexical address of its path. -/
theorem confined_makeDir (hlinks : fs.root.LinkFree) (h : fs.makeDir p = .ok fs')
    (ha : fs.lexical p <+: a) : Confined a fs fs' := by
  obtain ⟨d, n, rest, hf, hrest, hadd⟩ := makeDir_eq_ok h
  have hmissing := (follow_absent_look hf).2.2
  rw [lexical_of_absent hlinks hf, along_of_atEnd hrest] at ha
  refine .of_partOf_add (partOf_makeDir h) ?_
  intro x hx hx'
  obtain ⟨hd, rfl⟩ := addEntry_eq_ok hadd
  rw [sight?_addChild hd (Node.sight?_eq_none_iff.mp hmissing) Node.isLeaf_emptyDir] at hx' ⊢
  by_cases hnew : x = d ++ [n]
  · rw [if_pos hnew, hnew]
    exact ⟨ha, rfl⟩
  · rw [if_neg hnew] at hx'
    exact absurd hx hx'

/-- Directories that are made on the way to an address are a change confined to it. -/
theorem confined_of_makes {paths : List Path} (hlinks : fs.root.LinkFree)
    (h : Relation.ReflTransGen (Makes paths) fs fs') (ha : ∀ q ∈ paths, fs.lexical q <+: a) :
    Confined a fs fs' := by
  induction h with
  | refl => exact .refl a fs
  | tail hbefore hmakes ih =>
    obtain ⟨q, hq, hmake⟩ := hmakes
    have hlinks' := everywhere_of_makes Node.lasting_linkFree hbefore hlinks
    have hqa := ha q hq
    rw [← lexical_congr ih.current_eq] at hqa
    exact ih.trans (confined_makeDir hlinks' hmake hqa)

/-- The paths above a path without steps up have the addresses above its own. -/
theorem lexical_of_mem_chain (hup : Component.up ∉ p.components) (hq : q ∈ chain p) :
    fs.lexical q <+: fs.lexical p := by
  obtain ⟨-, hchain⟩ := chain_eq (List.ne_nil_of_mem hq)
  rw [hchain] at hq
  rcases List.mem_cons.mp hq with rfl | hq
  · exact List.prefix_refl _
  · obtain ⟨lead, steps, htakes⟩ := p.takes
    obtain ⟨i, hi, rfl⟩ := List.mem_map.mp hq
    obtain ⟨htake, -, -⟩ := take_components htakes (List.mem_range.mp hi)
    -- Such a path goes over the first steps of the path, from where that starts.
    have htaken : ∀ c ∈ steps.take (steps.length - 1 - i), c.IsStep :=
      fun c hc => htakes.isStep c (List.mem_of_mem_take hc)
    obtain ⟨hplain, habs⟩ := respell_spec htakes.lead_cases htaken
    have hstart : (Path.respell (lead ++ steps.take (steps.length - 1 - i))).isAbsolute
        = p.isAbsolute := by
      rw [Bool.eq_iff_iff, habs, htakes.root_iff]
    have hsteps : steps.map Component.segment
        = (steps.take (steps.length - 1 - i)).map Component.segment
          ++ (steps.drop (steps.length - 1 - i)).map Component.segment := by
      rw [← List.map_append, List.take_append_drop]
    have hrest : (".." : RawText) ∉ (steps.drop (steps.length - 1 - i)).map Component.segment := by
      intro hmem
      refine up_not_mem_segments hup ?_
      have hplain' : (".." : RawText) ∈ plain (segments p.text) := by
        rw [htakes.plain_segments, hsteps]
        exact List.mem_append_right _ hmem
      exact (List.mem_filter.mp hplain').1
    rw [htake, lexical_eq_along, lexical_eq_along, origin_eq fs.current hstart, ← along_plain,
      hplain, ← along_plain _ (segments p.text), htakes.plain_segments, hsteps, along_append]
    exact prefix_along _ hrest

/-- What is made in a tree without links is at the lexical address of the path or above. -/
theorem confined_makeDirs (hlinks : fs.root.LinkFree) (hup : Component.up ∉ p.components) :
    Confined (fs.lexical p) fs (fs.makeDirs p).2 :=
  confined_of_makes hlinks (makes_makeChain (chain p) fs) fun _ hq => lexical_of_mem_chain hup hq

/-! ## Writing -/

/-- A write in a tree without links is to the lexical address of its path. -/
theorem confined_writeBytes {bytes : ByteArray} (hlinks : fs.root.LinkFree)
    (h : fs.writeBytes p bytes = .ok fs') : Confined (fs.lexical p) fs fs' := by
  rcases writeBytes_eq_ok h with ⟨b, hf, hb, rfl⟩ | ⟨d, n, hf, hadd⟩
  · obtain rfl := lexical_of_reached hlinks hf
    have hsight : ∀ x, (fs.root.modify (fun _ => .file bytes) (fs.lexical p)).sight? x
        = fs.root.sight? x := fun x => sight?_overwritten hb
    refine ⟨rfl, ?_, ?_⟩
    · intro x hax _
      refine ⟨hsight x, fileAt?_overwritten hb ?_⟩
      rintro rfl
      exact hax (List.prefix_refl _)
    · intro x _ hx hx'
      exact absurd ((hsight x).trans hx) hx'
  · have hmissing := (follow_absent_look hf).2.2
    have hget := Node.sight?_eq_none_iff.mp hmissing
    have ha : fs.lexical p = d ++ [n] := lexical_of_absent hlinks hf
    have hpart := partOf_addEntry hadd hmissing (Node.isLeaf_file bytes)
    obtain ⟨hd, rfl⟩ := addEntry_eq_ok hadd
    refine ⟨rfl, fun x _ hx => ⟨hpart.sight_eq x hx, hpart.file_eq x hx id⟩, ?_⟩
    intro x hax hx hx'
    have hne : x ≠ d ++ [n] := by
      rintro rfl
      rw [ha] at hax
      exact hax (List.prefix_refl _)
    rw [sight?_addChild hd hget (Node.isLeaf_file bytes), if_neg hne] at hx'
    exact absurd hx hx'

/-! ## What is still found -/

namespace Confined

/-- Files elsewhere are the same: none is new and none is gone. -/
theorem fileAt?_eq (h : Confined a fs fs') (hax : ¬ a <+: x) :
    fs'.root.fileAt? x = fs.root.fileAt? x := by
  by_cases hx : fs.root.sight? x = none
  · have hno : fs.root.sight? x ≠ some .file := by
      rw [hx]
      exact fun he => nomatch he
    have hno' : fs'.root.sight? x ≠ some .file := by
      intro hfile
      have hdir := (h.made x hax hx (by rw [hfile]; exact Option.some_ne_none _)).2
      rw [hfile] at hdir
      exact nomatch hdir
    rw [Node.fileAt?_eq_none hno, Node.fileAt?_eq_none hno']
  · exact (h.kept x hax hx).2

section Directory

variable (h : Confined a fs fs') (hlinks : fs.root.LinkFree) {dir : Path} {i : Address}
  {entries : List (RawText × Node)} (hdir : fs.locate dir = .ok (i, .dir entries)) (hai : ¬ a <+: i)

include h hdir hai

/-- What is above a directory elsewhere is as it was. -/
theorem sight?_eq_of_above (hx : x <+: i) : fs'.root.sight? x = fs.root.sight? x := by
  refine (h.kept x (fun hax => hai (hax.trans hx)) ?_).1
  have hi := Node.sight?_eq_dir_iff.mpr ⟨entries, (locate_eq_ok_iff.mp hdir).2⟩
  obtain ⟨r, rfl⟩ := hx
  by_cases hr : r = []
  · rw [hr, List.append_nil] at hi
    rw [hi]
    exact Option.some_ne_none _
  · rw [Node.sight?_eq_dir_of_sight?_append hr (by rw [hi]; exact Option.some_ne_none _)]
    exact Option.some_ne_none _

include hlinks

/-- A directory elsewhere is still found. -/
theorem locate_dir (hup : Component.up ∉ dir.components) :
    ∃ entries', fs'.locate dir = .ok (i, .dir entries') := by
  obtain ⟨hf, hi⟩ := locate_eq_ok_iff.mp hdir
  have habove := fun x => h.sight?_eq_of_above hdir hai (x := x)
  have hi' := (habove i (List.prefix_refl i)).trans (Node.sight?_eq_dir_iff.mpr ⟨entries, hi⟩)
  rw [lexical_of_reached hlinks hf] at habove
  obtain ⟨entries', hentries'⟩ := Node.sight?_eq_dir_iff.mp hi'
  exact ⟨entries', locate_eq_ok_iff.mpr
    ⟨follow_eq_of_above hlinks hup h.current_eq habove hf, hentries'⟩⟩

/-- An entry of a directory elsewhere is the same file if the same bytes are there. -/
theorem bytes?_join (hlinks' : fs'.root.LinkFree) (hup : Component.up ∉ dir.components)
    {n : RawText} (hn : IsFileName n)
    (hfile : fs'.root.fileAt? (i ++ [n]) = fs.root.fileAt? (i ++ [n])) :
    fs'.bytes? (dir.join n) = fs.bytes? (dir.join n) := by
  obtain ⟨hf, -⟩ := locate_eq_ok_iff.mp hdir
  have hplace : fs.lexical (dir.join n) = i ++ [n] := by
    rw [lexical_join hn (follow_eq_ok_iff.mp hf).1.ne_empty, ← lexical_of_reached hlinks hf]
  have hup' : Component.up ∉ (dir.join n).components := by
    rw [Path.components_join dir hn]
    simpa using hup
  rw [← hplace] at hfile
  refine bytes?_eq_of_above hlinks hlinks' hup' h.current_eq ?_ hfile
  intro x hx hne
  rw [hplace] at hx hne
  exact h.sight?_eq_of_above hdir hai ((List.prefix_concat_iff.mp hx).resolve_left hne)

end Directory

end Confined

end JavaEntities.FileSystem
