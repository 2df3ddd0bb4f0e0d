import JavaEntities.Proofs.FileSystem.Entries

/-!
# What holds everywhere in a tree

A property of single nodes holds everywhere in a tree if it holds of whatever is found at
an address. If it is of a kind that no single entry can spoil (`Lasting`), then making
directories, removing and writing keep it everywhere, whether they succeed or not
(`everywhere_makeDirs`, `everywhere_removeAll`, `everywhere_writeBytes`).

Two such properties are used: that nothing is a link (`LinkFree`), and that the names of
every directory are distinct and such as can stand in a path (`WellNamed`).
-/

namespace JavaEntities.FileSystem

namespace Node

/-- Whether a property holds of every node that is found in a tree. -/
def Everywhere (P : Node → Prop) (t : Node) : Prop :=
  ∀ x n, t.get? x = some n → P n

/-- What holds of files and empty directories and goes on holding of a directory when something
below it changes, an entry is dropped or one with a new name is added. -/
structure Lasting (P : Node → Prop) : Prop where
  file : ∀ bytes, P (.file bytes)
  emptyDir : P (.dir [])
  modify : ∀ f m r n, P n → P (n.modify f (m :: r))
  dropChild : ∀ m n, P n → P (n.dropChild m)
  addChild : ∀ m c n, IsFileName m → m ∉ n.names → P n → P (addChild m c n)

/-- Whether there is no link in a tree. -/
def LinkFree (t : Node) : Prop :=
  t.Everywhere fun n => ∀ target, n ≠ .link target

/-- Whether the names of every directory in a tree are distinct and can stand in a path. -/
def WellNamed (t : Node) : Prop :=
  t.Everywhere fun n => n.names.Nodup ∧ ∀ m ∈ n.names, IsFileName m

/-- Whether the names in a tree are texts. -/
def TextNamed (t : Node) : Prop :=
  t.Everywhere fun n => ∀ m ∈ n.names, m.IsText

/-- An entry is missing if its name is. -/
theorem lookup_eq_none_iff_not_mem {m : RawText} {entries : List (RawText × Node)} :
    entries.lookup m = none ↔ m ∉ (dir entries).names := by
  rw [lookup_eq_none_iff_names]
  constructor
  · intro h hm
    obtain ⟨e, he, rfl⟩ := List.mem_map.mp hm
    exact h e he rfl
  · intro h e he heq
    exact h (heq ▸ List.mem_map_of_mem he)

/-! ## The two properties -/

/-- That a node is no link is lasting. -/
theorem lasting_linkFree : Lasting fun n => ∀ target, n ≠ .link target where
  file _ _ := fun he => nomatch he
  emptyDir _ := fun he => nomatch he
  modify f m r n h target := by
    cases n with
    | file bytes => exact fun he => nomatch he
    | link target' => exact absurd rfl (h target')
    | dir entries => exact fun he => nomatch he
  dropChild m n h target := by
    cases n with
    | file bytes => exact fun he => nomatch he
    | link target' => exact absurd rfl (h target')
    | dir entries => exact fun he => nomatch he
  addChild m c n _ _ h target := by
    cases n with
    | file bytes => exact fun he => nomatch he
    | link target' => exact absurd rfl (h target')
    | dir entries => exact fun he => nomatch he

/-- A change below a directory keeps its names. -/
theorem names_modify (f : Node → Node) (m : RawText) (r : Address) (n : Node) :
    (n.modify f (m :: r)).names = n.names := by
  cases n with
  | file bytes => rfl
  | link target => rfl
  | dir entries => exact names_map_of_name m (modify f r) entries

/-- Without an entry, a directory has some of its names. -/
theorem names_dropChild_sublist (m : RawText) (n : Node) :
    (n.dropChild m).names.Sublist n.names := by
  cases n with
  | file bytes => exact List.Sublist.refl _
  | link target => exact List.Sublist.refl _
  | dir entries => exact (List.filter_sublist ..).map Prod.fst

/-- That the names of a directory are distinct and can stand in a path is lasting. -/
theorem lasting_wellNamed : Lasting fun n => n.names.Nodup ∧ ∀ m ∈ n.names, IsFileName m where
  file _ := ⟨List.nodup_nil, fun _ hm => absurd hm List.not_mem_nil⟩
  emptyDir := ⟨List.nodup_nil, fun _ hm => absurd hm List.not_mem_nil⟩
  modify f m r n h := by rwa [names_modify]
  dropChild m n h := by
    have hsub := names_dropChild_sublist m n
    exact ⟨h.1.sublist hsub, fun k hk => h.2 k (hsub.subset hk)⟩
  addChild m c n hm hnew h := by
    cases n with
    | file bytes => exact h
    | link target => exact h
    | dir entries =>
      have hnames : (addChild m c (dir entries)).names = (dir entries).names ++ [m] :=
        List.map_append
      rw [hnames]
      constructor
      · rw [List.nodup_append]
        refine ⟨h.1, List.nodup_singleton m, ?_⟩
        intro k hk k' hk' heq
        rw [List.mem_singleton.mp hk'] at heq
        exact hnew (heq ▸ hk)
      · intro k hk
        rcases List.mem_append.mp hk with hk | hk
        · exact h.2 k hk
        · rw [List.mem_singleton.mp hk]
          exact hm

/-! ## Putting trees together -/

section Everywhere

variable {P : Node → Prop} {t : Node} {a : Address}

/-- What holds everywhere in a tree holds everywhere below each address. -/
theorem Everywhere.get? {n : Node} (h : t.Everywhere P) (ha : t.get? a = some n) :
    n.Everywhere P := by
  intro x c hx
  refine h (a ++ x) c ?_
  rw [get?_append, ha]
  exact hx

/-- Where nothing is below a node, it is enough that the node has the property. -/
theorem everywhere_of_isLeaf {c : Node} (hc : c.IsLeaf) (h : P c) : c.Everywhere P := by
  intro x n hx
  by_cases hnil : x = []
  · rw [hnil] at hx
    rwa [← Option.some.inj hx]
  · rw [hc x hnil] at hx
    exact nomatch hx

/-- What holds of a directory and everywhere in its entries holds everywhere in it. -/
theorem everywhere_dir {entries : List (RawText × Node)} (h : P (.dir entries))
    (hentries : ∀ e ∈ entries, e.2.Everywhere P) : (dir entries).Everywhere P := by
  intro x n hx
  cases x with
  | nil => rwa [← Option.some.inj hx]
  | cons m x =>
    obtain ⟨c, hc, hx⟩ := Option.bind_eq_some_iff.mp hx
    obtain ⟨front, back, hsplit, -⟩ := List.lookup_eq_some_iff.mp hc
    exact hentries (m, c) (by rw [hsplit]; simp) x n hx

theorem everywhere_file (hP : Lasting P) (bytes : ByteArray) : (file bytes).Everywhere P :=
  everywhere_of_isLeaf (isLeaf_file bytes) (hP.file bytes)

/-- What is lasting holds of a directory whose names are distinct and can stand in a path. -/
theorem Lasting.dir {entries : List (RawText × Node)} (hP : Lasting P)
    (hdistinct : (entries.map Prod.fst).Nodup) (hnames : ∀ e ∈ entries, IsFileName e.1) :
    P (.dir entries) := by
  -- The entries are added one after the other to an empty directory.
  induction entries using List.reverseRecOn with
  | nil => exact hP.emptyDir
  | append_singleton front e ih =>
    rw [List.map_append, List.nodup_append] at hdistinct
    obtain ⟨hfront, -, hnew⟩ := hdistinct
    refine hP.addChild e.1 e.2 (.dir front) (hnames e (by simp)) ?_ ?_
    · intro hmem
      exact hnew e.1 hmem e.1 (List.mem_singleton_self _) rfl
    · exact ih hfront fun e' he' => hnames e' (List.mem_append_left _ he')

/-- What is lasting holds everywhere in a directory with one entry, if it does in that. -/
theorem everywhere_singleton {m : RawText} {c : Node} (hP : Lasting P) (hm : IsFileName m)
    (hc : c.Everywhere P) : (dir [(m, c)]).Everywhere P :=
  everywhere_dir (hP.dir (List.nodup_singleton m) (by simpa using hm)) (by simpa using hc)

theorem textNamed_file (bytes : ByteArray) : (file bytes).TextNamed :=
  everywhere_of_isLeaf (isLeaf_file bytes) fun _ hm => absurd hm List.not_mem_nil

/-- A directory with one entry has texts for names if that entry has. -/
theorem textNamed_singleton {m : RawText} {c : Node} (hm : m.IsText) (hc : c.TextNamed) :
    (dir [(m, c)]).TextNamed := by
  refine everywhere_dir ?_ ?_
  · intro k hk
    rw [List.mem_singleton.mp hk]
    exact hm
  · intro e he
    rw [List.mem_singleton.mp he]
    exact hc

/-- A change of one node keeps what is everywhere if the changed node has it everywhere. -/
theorem Everywhere.modify {f : Node → Node} (hP : Lasting P) (h : t.Everywhere P)
    (hf : ∀ n, t.get? a = some n → (f n).Everywhere P) : (t.modify f a).Everywhere P := by
  intro x n hx
  by_cases hax : a <+: x
  · obtain ⟨r, rfl⟩ := hax
    rw [get?_modify_append] at hx
    obtain ⟨c, hc, hx⟩ := Option.bind_eq_some_iff.mp hx
    exact hf c hc r n hx
  · rcases get?_modify_of_not_below f t hax with hget | ⟨m, r, hget⟩
    · rw [hget] at hx
      exact h x n hx
    · rw [hget] at hx
      obtain ⟨c, hc, rfl⟩ := Option.map_eq_some_iff.mp hx
      exact hP.modify f m r c (h x c hc)

/-- What holds everywhere holds so without an entry. -/
theorem Everywhere.dropChild (hP : Lasting P) (h : t.Everywhere P) (m : RawText) :
    (t.dropChild m).Everywhere P := by
  intro x n hx
  cases x with
  | nil =>
    rw [← Option.some.inj hx]
    exact hP.dropChild m t (h [] t rfl)
  | cons k x =>
    obtain ⟨c, hc, hx⟩ := Option.bind_eq_some_iff.mp hx
    rw [child?_dropChild] at hc
    split at hc
    · exact nomatch hc
    · refine h (k :: x) n ?_
      rw [Node.get?, hc]
      exact hx

/-- What is lasting holds everywhere after an entry is added that has it everywhere. -/
theorem Everywhere.addChild {entries : List (RawText × Node)} {m : RawText} {c : Node}
    (hP : Lasting P) (h : (dir entries).Everywhere P) (hm : IsFileName m)
    (hnew : entries.lookup m = none) (hc : c.Everywhere P) :
    (Node.addChild m c (dir entries)).Everywhere P := by
  intro x n hx
  cases x with
  | nil =>
    rw [← Option.some.inj hx]
    exact hP.addChild m c _ hm (lookup_eq_none_iff_not_mem.mp hnew) (h [] _ rfl)
  | cons k x =>
    obtain ⟨c', hc', hx⟩ := Option.bind_eq_some_iff.mp hx
    have hlookup : (entries ++ [(m, c)]).lookup k = some c' := hc'
    rw [List.lookup_append, Option.or_eq_some_iff] at hlookup
    rcases hlookup with hold | ⟨-, hadded⟩
    · refine h (k :: x) n ?_
      show (entries.lookup k).bind (fun c => c.get? x) = some n
      rw [hold]
      exact hx
    · rw [List.lookup_cons] at hadded
      split at hadded
      · rw [Option.some.inj hadded] at hc
        exact hc x n hx
      · exact nomatch hadded

end Everywhere

end Node

/-- Whether all names can stand in a path, those on the way to the current directory too, and no
directory has one of them twice. -/
structure WellNamed (fs : FileSystem) : Prop where
  root : fs.root.WellNamed
  current : ∀ n ∈ fs.current, IsFileName n

/-- What a directory lists are distinct names that can stand in a path. -/
theorem names_of_list {fs : FileSystem} {p : Path} {names : List RawText} (h : fs.root.WellNamed)
    (hlist : fs.list p = .ok names) : (∀ n ∈ names, IsFileName n) ∧ names.Nodup := by
  obtain ⟨a, entries, hdir, rfl⟩ := list_eq_ok hlist
  obtain ⟨hdistinct, hnames⟩ := h a _ (locate_eq_ok_iff.mp hdir).2
  exact ⟨hnames, hdistinct⟩

/-- Whether the names that a directory lists are texts. -/
def ListsTexts (fs : FileSystem) (dir : Path) : Prop :=
  ∀ names, fs.list dir = .ok names → ∀ n ∈ names, n.IsText

/-- Where all names are texts, every directory lists texts. -/
theorem listsTexts_of_textNamed {fs : FileSystem} (h : fs.root.TextNamed) (dir : Path) :
    fs.ListsTexts dir := by
  intro names hlist
  obtain ⟨a, entries, hdir, rfl⟩ := list_eq_ok hlist
  exact h a _ (locate_eq_ok_iff.mp hdir).2

/-! ## New names -/

/-- A name that a way misses is one of the segments that it follows, or one of a link. -/
theorem Node.Walks.absent_no_separator {t : Node} {follow : List RawText → Bool} {links : Nat}
    {a d : Address} {segs rest : List RawText} {n : RawText} {l : List Address}
    (h : t.Walks follow links a segs l (.absent d n rest))
    (hsegs : ∀ s ∈ segs, slash ∉ s.toList) : slash ∉ n.toList := by
  generalize hstop : Stop.absent d n rest = stop at h
  induction h with
  | stop h hs =>
    subst hstop
    exact hsegs n (h.absent_suffix.subset (List.mem_cons_self ..))
  | endless h hf => exact nomatch hstop
  | follow h hf hw ih =>
    refine ih ?_ hstop
    intro s hs
    rcases List.mem_append.mp hs with hs | hs
    · exact no_separator_of_mem_segments hs
    · exact hsegs s (h.link_suffix.subset (List.mem_cons_of_mem _ hs))

variable {fs fs' : FileSystem} {p : Path} {P : Node → Prop}

/-- A name that a way misses can stand in a path. -/
theorem isFileName_of_absent {links : List RawText → Bool} {d : Address} {n : RawText}
    {rest : List RawText} (h : fs.follow links p = .ok (.absent d n rest)) : IsFileName n := by
  have hway := Node.walks_iff.mpr ⟨rfl, (follow_eq_ok_iff.mp h).2⟩
  exact ⟨hway.absent_look.1,
    hway.absent_no_separator fun _ hs => no_separator_of_mem_segments hs⟩

/-! ## The changes -/

open Node (Lasting)

/-- A new entry keeps what is lasting. -/
theorem everywhere_addEntry {d : Address} {n : RawText} {c : Node} (hP : Lasting P)
    (h : fs.addEntry d n c = .ok fs') (hn : IsFileName n)
    (hmissing : fs.root.sight? (d ++ [n]) = none) (hc : c.Everywhere P)
    (hroot : fs.root.Everywhere P) : fs'.root.Everywhere P := by
  obtain ⟨hd, rfl⟩ := addEntry_eq_ok h
  refine hroot.modify hP ?_
  intro node hnode
  obtain ⟨entries, hentries⟩ := Node.sight?_eq_dir_iff.mp hd
  obtain rfl : node = .dir entries := Option.some.inj (hnode.symm.trans hentries)
  refine (hroot.get? hnode).addChild hP hn ?_ hc
  rw [← get?_entry hentries]
  exact Node.sight?_eq_none_iff.mp hmissing

/-- A directory that is made keeps what is lasting. -/
theorem everywhere_makeDir (hP : Lasting P) (h : fs.makeDir p = .ok fs')
    (hroot : fs.root.Everywhere P) : fs'.root.Everywhere P := by
  obtain ⟨d, n, rest, hf, -, hadd⟩ := makeDir_eq_ok h
  exact everywhere_addEntry hP hadd (isFileName_of_absent hf) (follow_absent_look hf).2.2
    (Node.everywhere_of_isLeaf Node.isLeaf_emptyDir hP.emptyDir) hroot

/-- Directories that are made keep what is lasting. -/
theorem everywhere_of_makes {paths : List Path} (hP : Lasting P)
    (h : Relation.ReflTransGen (Makes paths) fs fs') (hroot : fs.root.Everywhere P) :
    fs'.root.Everywhere P := by
  induction h with
  | refl => exact hroot
  | tail _ hmakes ih =>
    obtain ⟨p, -, hmake⟩ := hmakes
    exact everywhere_makeDir hP hmake ih

/-- Making directories keeps what is everywhere. -/
theorem everywhere_makeDirs (hP : Lasting P) (p : Path) (hroot : fs.root.Everywhere P) :
    (fs.makeDirs p).2.root.Everywhere P :=
  everywhere_of_makes hP (makes_makeChain (chain p) fs) hroot

/-- To drop an entry keeps what is lasting. -/
theorem everywhere_dropEntry (hP : Lasting P) (d : Address) (n : RawText)
    (hroot : fs.root.Everywhere P) : (fs.dropEntry d n).root.Everywhere P :=
  hroot.modify hP fun _ hc => (hroot.get? hc).dropChild hP n

/-- To empty a directory keeps what is lasting. -/
theorem everywhere_emptied (hP : Lasting P) (a : Address) (hroot : fs.root.Everywhere P) :
    (fs.emptied a).root.Everywhere P :=
  hroot.modify hP fun _ _ => Node.everywhere_of_isLeaf Node.isLeaf_emptyDir hP.emptyDir

/-- Removing keeps what is everywhere. -/
theorem everywhere_removeAll (hP : Lasting P) (p : Path) (hroot : fs.root.Everywhere P) :
    (fs.removeAll p).2.root.Everywhere P := by
  have h := removes fs p
  generalize fs.removeAll p = r at h
  cases h with
  | refused c => exact hroot
  | unlinked hf => exact everywhere_dropEntry hP _ _ hroot
  | removed hf ha h =>
    obtain ⟨a, last, -, -, -, -, rfl⟩ := removeDir_eq_ok h
    exact everywhere_dropEntry hP _ _ (everywhere_emptied hP _ hroot)
  | cutOff hf ha h => exact everywhere_emptied hP _ hroot
  | stuck hf ha h => exact everywhere_emptied hP _ hroot

/-- Writing keeps what is everywhere. -/
theorem everywhere_writeBytes {bytes : ByteArray} (hP : Lasting P)
    (h : fs.writeBytes p bytes = .ok fs') (hroot : fs.root.Everywhere P) :
    fs'.root.Everywhere P := by
  have hfile := Node.everywhere_file hP bytes
  rcases writeBytes_eq_ok h with ⟨a, -, -, rfl⟩ | ⟨d, n, hf, hadd⟩
  · exact hroot.modify hP fun _ _ => hfile
  · exact everywhere_addEntry hP hadd (isFileName_of_absent hf) (follow_absent_look hf).2.2 hfile
      hroot

end JavaEntities.FileSystem
