import JavaEntities.FileSystem.Change

/-!
# What a tree shows at an address

Following a path asks a tree for one thing only: whether there is a file, a link (and
where it points) or a directory at an address. `sight?` is that view. Every change of a
file system is described by the view after it:

* a directory that is emptied shows the same but for what lies below it;
* an entry that is dropped is gone with what lies below it;
* an entry that is added is all that is new;
* a file that is written over is still a file, so the view does not change at all.

The bytes of the files are a second view, `fileAt?`.
-/

namespace JavaEntities.FileSystem

/-- What a path sees of a node. -/
inductive Sight
  | file
  | link (target : RawText)
  | dir
  deriving DecidableEq, Repr

namespace Node

/-- What a path sees of a node. -/
def sight : Node → Sight
  | file _ => .file
  | link target => .link target
  | dir _ => .dir

/-- What stands at an address, if anything does. -/
def sight? (t : Node) (x : Address) : Option Sight :=
  (t.get? x).map sight

/-- The bytes of the file at an address. -/
def fileAt? (t : Node) (x : Address) : Option ByteArray :=
  match t.get? x with
  | some (file bytes) => some bytes
  | _ => none

/-- The names in the directory at an address. -/
def namesAt? (t : Node) (x : Address) : Option (List RawText) :=
  match t.get? x with
  | some (dir entries) => some (entries.map Prod.fst)
  | _ => none

/-! ## Addresses -/

/-- To find a node is to go on from a node on the way to it. -/
theorem get?_append (t : Node) (a b : Address) :
    t.get? (a ++ b) = (t.get? a).bind fun n => n.get? b := by
  induction a generalizing t with
  | nil => rfl
  | cons n a ih =>
    rw [List.cons_append, get?, get?]
    cases t.child? n with
    | none => rfl
    | some c => exact ih c

theorem get?_file_of_ne_nil {bytes : ByteArray} {x : Address} (hx : x ≠ []) :
    (file bytes).get? x = none := by
  cases x with
  | nil => exact absurd rfl hx
  | cons n x => rfl

theorem get?_link_of_ne_nil {target : RawText} {x : Address} (hx : x ≠ []) :
    (link target).get? x = none := by
  cases x with
  | nil => exact absurd rfl hx
  | cons n x => rfl

theorem get?_emptyDir_of_ne_nil {x : Address} (hx : x ≠ []) : (dir []).get? x = none := by
  cases x with
  | nil => exact absurd rfl hx
  | cons n x => rfl

/-- To see something is to go on from a node on the way to it. -/
theorem sight?_append (t : Node) (a b : Address) :
    t.sight? (a ++ b) = (t.get? a).bind fun n => n.sight? b := by
  rw [sight?, get?_append]
  cases t.get? a <;> rfl

theorem sight?_eq_none_iff {t : Node} {x : Address} : t.sight? x = none ↔ t.get? x = none :=
  Option.map_eq_none_iff

theorem sight?_eq_file_iff {t : Node} {x : Address} :
    t.sight? x = some .file ↔ ∃ bytes, t.get? x = some (file bytes) := by
  rw [sight?]
  cases t.get? x with
  | none => simp
  | some n => cases n <;> simp [sight]

theorem sight?_eq_dir_iff {t : Node} {x : Address} :
    t.sight? x = some .dir ↔ ∃ entries, t.get? x = some (dir entries) := by
  rw [sight?]
  cases t.get? x with
  | none => simp
  | some n => cases n <;> simp [sight]

/-- The bytes at an address are those of the file there. -/
theorem fileAt?_eq_some_iff {t : Node} {x : Address} {bytes : ByteArray} :
    t.fileAt? x = some bytes ↔ t.get? x = some (file bytes) := by
  rw [fileAt?]
  cases t.get? x with
  | none => simp
  | some n => cases n <;> simp

/-- Where there are bytes, a file is seen. -/
theorem sight?_of_fileAt? {t : Node} {x : Address} {bytes : ByteArray}
    (h : t.fileAt? x = some bytes) : t.sight? x = some .file :=
  sight?_eq_file_iff.mpr ⟨bytes, fileAt?_eq_some_iff.mp h⟩

/-- Where no file is seen, there are no bytes. -/
theorem fileAt?_eq_none {t : Node} {x : Address} (h : t.sight? x ≠ some .file) :
    t.fileAt? x = none :=
  Option.eq_none_iff_forall_ne_some.mpr fun _ hbytes => h (sight?_of_fileAt? hbytes)

/-- Where there are names, a directory is seen. -/
theorem sight?_eq_dir_of_namesAt? {t : Node} {x : Address} {l : List RawText}
    (h : t.namesAt? x = some l) : t.sight? x = some .dir := by
  rw [namesAt?] at h
  rw [sight?]
  cases hx : t.get? x with
  | none => rw [hx] at h; exact nomatch h
  | some n =>
    rw [hx] at h
    cases n with
    | file bytes => exact nomatch h
    | link target => exact nomatch h
    | dir entries => rfl

/-- Only a directory has anything below it. -/
theorem sight?_eq_dir_of_sight?_append {t : Node} {a b : Address} (hb : b ≠ [])
    (h : t.sight? (a ++ b) ≠ none) : t.sight? a = some .dir := by
  rw [sight?_append] at h
  rw [sight?]
  cases ha : t.get? a with
  | none => rw [ha] at h; exact absurd rfl h
  | some n =>
    rw [ha] at h
    cases n with
    | dir entries => rfl
    | file bytes => exact absurd (by rw [Option.bind_some, sight?, get?_file_of_ne_nil hb]; rfl) h
    | link target => exact absurd (by rw [Option.bind_some, sight?, get?_link_of_ne_nil hb]; rfl) h

/-! ## Entries -/

/-- A change of the entry with one name shows under this name alone. -/
theorem lookup_map_of_name (n m : RawText) (g : Node → Node) (entries : List (RawText × Node)) :
    (entries.map fun e => if e.1 = m then (e.1, g e.2) else e).lookup n
      = if n = m then (entries.lookup n).map g else entries.lookup n := by
  induction entries with
  | nil => simp
  | cons e rest ih =>
    obtain ⟨k, c⟩ := e
    rw [List.map_cons, List.lookup_cons]
    by_cases hn : n = k
    · subst hn
      by_cases hm : n = m
      · simp [hm]
      · simp [hm]
    · have hk : (n == k) = false := beq_eq_false_iff_ne.mpr hn
      by_cases hm : k = m
      · rw [if_pos hm]
        simp only [List.lookup_cons, hk, ih]
      · rw [if_neg hm]
        simp only [List.lookup_cons, hk, ih]

/-- Entries that are replaced by others with their names are still listed as they were. -/
theorem names_map_of_name (m : RawText) (g : Node → Node) (entries : List (RawText × Node)) :
    (entries.map fun e => if e.1 = m then (e.1, g e.2) else e).map Prod.fst
      = entries.map Prod.fst := by
  rw [List.map_map]
  refine List.map_congr_left fun e _ => ?_
  show (if e.1 = m then (e.1, g e.2) else e).1 = e.1
  split
  · rfl
  · rfl

/-- Without the entry with one name, only this name is missing. -/
theorem lookup_filter_of_name (n m : RawText) (entries : List (RawText × Node)) :
    (entries.filter fun e => e.1 ≠ m).lookup n = if n = m then none else entries.lookup n := by
  induction entries with
  | nil => simp
  | cons e rest ih =>
    obtain ⟨k, c⟩ := e
    rw [List.filter_cons, List.lookup_cons]
    by_cases hkm : k = m
    · subst hkm
      rw [if_neg (by simp), ih]
      by_cases hn : n = k
      · rw [if_pos hn, if_pos hn]
      · rw [if_neg hn, if_neg hn, beq_eq_false_iff_ne.mpr hn]
    · rw [if_pos (by simpa using hkm), List.lookup_cons, ih]
      by_cases hn : n = k
      · subst hn
        rw [beq_self_eq_true]
        exact (if_neg hkm).symm
      · rw [beq_eq_false_iff_ne.mpr hn]

/-- Without an entry, only its name is missing. -/
theorem child?_dropChild (n m : RawText) (t : Node) :
    (t.dropChild m).child? n = if n = m then none else t.child? n := by
  cases t with
  | dir entries => exact lookup_filter_of_name n m entries
  | file bytes => simp [dropChild, child?]
  | link target => simp [dropChild, child?]

/-! ## Changing the node at an address -/

/-- Below a changed node, what is found is in the changed node. -/
theorem get?_modify_append (f : Node → Node) (a r : Address) (t : Node) :
    (t.modify f a).get? (a ++ r) = (t.get? a).bind fun n => (f n).get? r := by
  induction a generalizing t with
  | nil => rfl
  | cons n a ih =>
    cases t with
    | file bytes => rfl
    | link target => rfl
    | dir entries =>
      rw [List.cons_append, modify, get?, get?, child?, child?, lookup_map_of_name, if_pos rfl]
      cases entries.lookup n with
      | none => rfl
      | some c => exact ih c

/-- A changed node is found at its address. -/
theorem get?_modify_self (f : Node → Node) (a : Address) (t : Node) :
    (t.modify f a).get? a = (t.get? a).map f := by
  have h := get?_modify_append f a [] t
  rw [List.append_nil] at h
  rw [h]
  cases t.get? a <;> rfl

/-- Above the change, a node holds the changed one. -/
theorem get?_modify_of_append (f : Node → Node) (x r : Address) (t : Node) :
    (t.modify f (x ++ r)).get? x = (t.get? x).map fun n => n.modify f r := by
  induction x generalizing t with
  | nil => rfl
  | cons n x ih =>
    cases t with
    | file bytes => rfl
    | link target => rfl
    | dir entries =>
      rw [List.cons_append, modify, get?, get?, child?, child?, lookup_map_of_name, if_pos rfl]
      cases entries.lookup n with
      | none => rfl
      | some c => exact ih c

/-- Neither above nor below the change, nothing changes. -/
theorem get?_modify_of_apart (f : Node → Node) {a x : Address} (t : Node) (hax : ¬ a <+: x)
    (hxa : ¬ x <+: a) : (t.modify f a).get? x = t.get? x := by
  induction a generalizing t x with
  | nil => exact absurd List.nil_prefix hax
  | cons n a ih =>
    cases x with
    | nil => exact absurd List.nil_prefix hxa
    | cons m x =>
      cases t with
      | file bytes => rfl
      | link target => rfl
      | dir entries =>
        rw [modify, get?, get?, child?, child?, lookup_map_of_name]
        by_cases hm : m = n
        · subst hm
          rw [if_pos rfl]
          cases entries.lookup m with
          | none => rfl
          | some c =>
            refine ih c ?_ ?_
            · exact fun h => hax (List.cons_prefix_cons.mpr ⟨rfl, h⟩)
            · exact fun h => hxa (List.cons_prefix_cons.mpr ⟨rfl, h⟩)
        · rw [if_neg hm]

/-- Anywhere but at the change and below it, a node stays or holds the changed one further down. -/
theorem get?_modify_of_not_below (f : Node → Node) {a x : Address} (t : Node) (hax : ¬ a <+: x) :
    (t.modify f a).get? x = t.get? x ∨
      ∃ m r, (t.modify f a).get? x = (t.get? x).map fun n => n.modify f (m :: r) := by
  by_cases hxa : x <+: a
  · obtain ⟨r, rfl⟩ := hxa
    cases r with
    | nil =>
      rw [List.append_nil] at hax
      exact absurd (List.prefix_refl x) hax
    | cons m r => exact .inr ⟨m, r, get?_modify_of_append f x (m :: r) t⟩
  · exact .inl (get?_modify_of_apart f t hax hxa)

/-- Elsewhere nothing looks different after a change. -/
theorem sight?_modify_of_not_below (f : Node → Node) {a x : Address} (t : Node)
    (hax : ¬ a <+: x) : (t.modify f a).sight? x = t.sight? x := by
  rw [sight?, sight?]
  rcases get?_modify_of_not_below f t hax with hget | ⟨m, r, hget⟩
  · rw [hget]
  · rw [hget]
    cases t.get? x with
    | none => rfl
    | some n => cases n <;> rfl

/-- Elsewhere files have the same bytes after a change. -/
theorem fileAt?_modify_of_not_below (f : Node → Node) {a x : Address} (t : Node)
    (hax : ¬ a <+: x) : (t.modify f a).fileAt? x = t.fileAt? x := by
  rw [fileAt?, fileAt?]
  rcases get?_modify_of_not_below f t hax with hget | ⟨m, r, hget⟩
  · rw [hget]
  · rw [hget]
    cases t.get? x with
    | none => rfl
    | some n => cases n <;> rfl

/-- Elsewhere directories have the same names after a change. -/
theorem namesAt?_modify_of_not_below (f : Node → Node) {a x : Address} (t : Node)
    (hax : ¬ a <+: x) : (t.modify f a).namesAt? x = t.namesAt? x := by
  rw [namesAt?, namesAt?]
  rcases get?_modify_of_not_below f t hax with hget | ⟨m, r, hget⟩
  · rw [hget]
  · rw [hget]
    cases t.get? x with
    | none => rfl
    | some n =>
      cases n with
      | file bytes => rfl
      | link target => rfl
      | dir entries =>
        exact congrArg some (names_map_of_name m (modify f r) entries)

end Node

/-! ## The view after a change -/

/-- A directory that is emptied keeps its place, and what lies below it is gone. -/
theorem sight?_emptied {t : Node} {a x : Address} (ha : t.sight? a = some .dir) :
    (t.modify (fun _ => .dir []) a).sight? x = if a <+: x ∧ x ≠ a then none else t.sight? x := by
  by_cases hax : a <+: x
  · obtain ⟨r, rfl⟩ := hax
    obtain ⟨entries, he⟩ := Node.sight?_eq_dir_iff.mp ha
    rw [Node.sight?, Node.get?_modify_append, he, Option.bind_some]
    by_cases hr : r = []
    · subst hr
      rw [List.append_nil, if_neg (by simp), ha]
      rfl
    · rw [if_pos ⟨List.prefix_append a r, by simpa using hr⟩, Node.get?_emptyDir_of_ne_nil hr]
      rfl
  · rw [if_neg fun h => hax h.1, Node.sight?_modify_of_not_below _ t hax]

/-- An entry that is dropped is gone, and so is what lies below it. -/
theorem sight?_dropEntry (fs : FileSystem) (d : Address) (n : RawText) (x : Address) :
    (fs.dropEntry d n).root.sight? x = if d ++ [n] <+: x then none else fs.root.sight? x := by
  rw [dropEntry]
  by_cases hdx : d <+: x
  · obtain ⟨r, rfl⟩ := hdx
    rw [Node.sight?, Node.get?_modify_append]
    cases r with
    | nil =>
      -- The directory of the entry is not below it, and is still a directory.
      have hshort : ¬ d ++ [n] <+: d ++ [] := by
        intro h
        have hl := h.length_le
        rw [List.append_nil, List.length_append, List.length_singleton] at hl
        omega
      rw [if_neg hshort, List.append_nil, Node.sight?]
      cases fs.root.get? d with
      | none => rfl
      | some c => cases c <;> rfl
    | cons m r =>
      -- What is below the directory is below the entry if it has the name of the entry.
      have hiff : d ++ [n] <+: d ++ m :: r ↔ m = n := by
        rw [List.prefix_append_right_inj, List.cons_prefix_cons]
        exact ⟨fun h => h.1.symm, fun h => ⟨h.symm, List.nil_prefix⟩⟩
      have hget : ∀ c : Node,
          (c.dropChild n).get? (m :: r) = if m = n then none else c.get? (m :: r) := by
        intro c
        rw [Node.get?, Node.get?, Node.child?_dropChild]
        by_cases hm : m = n
        · rw [if_pos hm, if_pos hm]; rfl
        · rw [if_neg hm, if_neg hm]
      rw [Node.sight?, Node.get?_append]
      by_cases hm : m = n
      · rw [if_pos (hiff.mpr hm)]
        cases fs.root.get? d with
        | none => rfl
        | some c => rw [Option.bind_some, hget, if_pos hm]; rfl
      · rw [if_neg fun h => hm (hiff.mp h)]
        cases fs.root.get? d with
        | none => rfl
        | some c => rw [Option.bind_some, hget, if_neg hm]; rfl
  · rw [Node.sight?_modify_of_not_below _ _ hdx,
      if_neg fun h => hdx ((List.prefix_append d [n]).trans h)]

/-- Elsewhere files have the same bytes without an entry. -/
theorem fileAt?_dropEntry (fs : FileSystem) {d x : Address} {n : RawText}
    (hx : ¬ d ++ [n] <+: x) : (fs.dropEntry d n).root.fileAt? x = fs.root.fileAt? x := by
  rw [dropEntry]
  by_cases hdx : d <+: x
  · obtain ⟨r, rfl⟩ := hdx
    rw [Node.fileAt?, Node.fileAt?, Node.get?_modify_append, Node.get?_append]
    cases hc : fs.root.get? d with
    | none => rfl
    | some c =>
      rw [Option.bind_some, Option.bind_some]
      cases r with
      | nil => cases c <;> rfl
      | cons m r =>
        have hm : m ≠ n := by
          intro heq
          subst heq
          refine hx ((List.prefix_append_right_inj d).mpr ?_)
          exact List.cons_prefix_cons.mpr ⟨rfl, List.nil_prefix⟩
        rw [Node.get?, Node.get?, Node.child?_dropChild, if_neg hm]
  · exact Node.fileAt?_modify_of_not_below _ _ hdx

/-- Whether a node has nothing below it. -/
def Node.IsLeaf (c : Node) : Prop :=
  ∀ r, r ≠ [] → c.get? r = none

theorem Node.isLeaf_file (bytes : ByteArray) : (Node.file bytes).IsLeaf :=
  fun _ => Node.get?_file_of_ne_nil

theorem Node.isLeaf_emptyDir : (Node.dir []).IsLeaf :=
  fun _ => Node.get?_emptyDir_of_ne_nil

/-- Adding a leaf changes what is found at one address. -/
theorem get?_addChild {t : Node} {d x : Address} {n : RawText} {c : Node}
    (hd : t.sight? d = some .dir) (hn : t.get? (d ++ [n]) = none) (hc : c.IsLeaf) (hx : x ≠ []) :
    (t.modify (Node.addChild n c) d).get? (d ++ x)
      = if x = [n] then some c else t.get? (d ++ x) := by
  obtain ⟨entries, he⟩ := Node.sight?_eq_dir_iff.mp hd
  have hlookup : entries.lookup n = none := by
    rw [Node.get?_append, he, Option.bind_some, Node.get?, Node.child?] at hn
    cases hl : entries.lookup n with
    | none => rfl
    | some e => rw [hl] at hn; exact absurd hn (by simp [Node.get?])
  rw [Node.get?_modify_append, Node.get?_append, he, Option.bind_some, Option.bind_some]
  cases x with
  | nil => exact absurd rfl hx
  | cons m r =>
    rw [Node.addChild, Node.get?, Node.get?, Node.child?, Node.child?, List.lookup_append]
    by_cases hm : m = n
    · -- Nothing had the name, so it is looked up in the new entry, with nothing below that.
      subst hm
      rw [hlookup]
      by_cases hr : r = []
      · subst hr
        simp [List.lookup_cons_self, Node.get?]
      · rw [if_neg (by simpa using hr)]
        simp [List.lookup_cons_self, hc r hr]
    · rw [if_neg (by simp [hm])]
      have hb : (m == n) = false := beq_eq_false_iff_ne.mpr hm
      cases hl : entries.lookup m with
      | none => simp [List.lookup_cons, hb]
      | some e => simp

/-- After a leaf is added, it is seen at its address, and nothing else looks different. -/
theorem sight?_addChild {t : Node} {d x : Address} {n : RawText} {c : Node}
    (hd : t.sight? d = some .dir) (hn : t.get? (d ++ [n]) = none) (hc : c.IsLeaf) :
    (t.modify (Node.addChild n c) d).sight? x
      = if x = d ++ [n] then some c.sight else t.sight? x := by
  by_cases hdx : d <+: x
  · obtain ⟨r, rfl⟩ := hdx
    by_cases hr : r = []
    · subst hr
      rw [if_neg (by simp), List.append_nil, Node.sight?, Node.get?_modify_self]
      obtain ⟨entries, he⟩ := Node.sight?_eq_dir_iff.mp hd
      rw [Node.sight?, he]
      rfl
    · rw [Node.sight?, get?_addChild hd hn hc hr]
      by_cases hrn : r = [n]
      · rw [if_pos hrn, if_pos (by rw [hrn])]
        rfl
      · rw [if_neg hrn, if_neg (by simpa using hrn)]
        rfl
  · rw [Node.sight?_modify_of_not_below _ _ hdx, if_neg]
    intro heq
    subst heq
    exact hdx (List.prefix_append d [n])

/-- After a leaf is added, files elsewhere have the same bytes. -/
theorem fileAt?_addChild {t : Node} {d x : Address} {n : RawText} {c : Node}
    (hd : t.sight? d = some .dir) (hn : t.get? (d ++ [n]) = none) (hc : c.IsLeaf)
    (hx : x ≠ d ++ [n]) : (t.modify (Node.addChild n c) d).fileAt? x = t.fileAt? x := by
  by_cases hdx : d <+: x
  · obtain ⟨r, rfl⟩ := hdx
    by_cases hr : r = []
    · subst hr
      rw [List.append_nil, Node.fileAt?, Node.get?_modify_self]
      obtain ⟨entries, he⟩ := Node.sight?_eq_dir_iff.mp hd
      rw [Node.fileAt?, he]
      rfl
    · rw [Node.fileAt?, get?_addChild hd hn hc hr, if_neg (by simpa using hx)]
      rfl
  · exact Node.fileAt?_modify_of_not_below _ _ hdx

/-- A file that is written over is still a file. -/
theorem sight?_overwritten {t : Node} {a x : Address} {bytes : ByteArray}
    (ha : t.sight? a = some .file) : (t.modify (fun _ => .file bytes) a).sight? x = t.sight? x := by
  by_cases hax : a <+: x
  · obtain ⟨r, rfl⟩ := hax
    obtain ⟨old, ho⟩ := Node.sight?_eq_file_iff.mp ha
    rw [Node.sight?, Node.sight?, Node.get?_modify_append, Node.get?_append, ho, Option.bind_some,
      Option.bind_some]
    cases r with
    | nil => rfl
    | cons m r => rfl
  · exact Node.sight?_modify_of_not_below _ t hax

/-- After a file is overwritten, others have the same bytes. -/
theorem fileAt?_overwritten {t : Node} {a x : Address} {bytes : ByteArray}
    (ha : t.sight? a = some .file) (hx : x ≠ a) :
    (t.modify (fun _ => .file bytes) a).fileAt? x = t.fileAt? x := by
  by_cases hax : a <+: x
  · obtain ⟨r, rfl⟩ := hax
    obtain ⟨old, ho⟩ := Node.sight?_eq_file_iff.mp ha
    rw [Node.fileAt?, Node.fileAt?, Node.get?_modify_append, Node.get?_append, ho,
      Option.bind_some, Option.bind_some]
    cases r with
    | nil => exact absurd (List.append_nil a) hx
    | cons m r => rfl
  · exact Node.fileAt?_modify_of_not_below _ t hax

/-- After a file is overwritten, directories have the same names. -/
theorem namesAt?_overwritten {t : Node} {a x : Address} {bytes : ByteArray} {l : List RawText}
    (ha : t.sight? a = some .file) (h : t.namesAt? x = some l) :
    (t.modify (fun _ => .file bytes) a).namesAt? x = some l := by
  rw [Node.namesAt?_modify_of_not_below _ t ?_]
  · exact h
  · -- A directory lies neither at a file nor below it.
    have hdir := Node.sight?_eq_dir_of_namesAt? h
    intro hbelow
    obtain ⟨r, rfl⟩ := hbelow
    by_cases hr : r = []
    · rw [hr, List.append_nil, ha] at hdir
      exact nomatch hdir
    · have habove : t.sight? a = some .dir :=
        Node.sight?_eq_dir_of_sight?_append hr (by rw [hdir]; exact Option.some_ne_none _)
      rw [ha] at habove
      exact nomatch habove

/-- A new entry comes behind those of its directory. -/
theorem namesAt?_addChild {t : Node} {d x : Address} {n : RawText} {c : Node} {l : List RawText}
    (hd : t.sight? d = some .dir) (hn : t.get? (d ++ [n]) = none) (hc : c.IsLeaf)
    (h : t.namesAt? x = some l) :
    ∃ new, (t.modify (Node.addChild n c) d).namesAt? x = some (l ++ new) := by
  by_cases hdx : d <+: x
  · obtain ⟨r, rfl⟩ := hdx
    by_cases hr : r = []
    · subst hr
      obtain ⟨entries, he⟩ := Node.sight?_eq_dir_iff.mp hd
      rw [List.append_nil, Node.namesAt?, he] at h
      refine ⟨[n], ?_⟩
      rw [List.append_nil, Node.namesAt?, Node.get?_modify_self, he, ← Option.some.inj h]
      show some ((entries ++ [(n, c)]).map Prod.fst) = _
      rw [List.map_append]
      rfl
    · have hrn : r ≠ [n] := by
        intro heq
        subst heq
        rw [Node.namesAt?, hn] at h
        exact nomatch h
      refine ⟨[], ?_⟩
      rw [Node.namesAt?, get?_addChild hd hn hc hr, if_neg hrn, List.append_nil]
      exact h
  · refine ⟨[], ?_⟩
    rw [List.append_nil]
    rw [Node.namesAt?_modify_of_not_below _ t hdx]
    exact h

end JavaEntities.FileSystem
