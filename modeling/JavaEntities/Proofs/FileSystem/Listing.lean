import JavaEntities.Proofs.FileSystem.Entries

/-!
# The order of listing

A directory lists its entries in some order, and nothing but `list` can tell one order
from another. `Relisted` relates file systems that differ in the order of listing alone:
they have like nodes at every address, the same files and links and directories with the
same names. Paths lead to the same addresses in both (`Relisted.locate`), files have the
same text (`Relisted.readText_eq`) and listings the same names (`Relisted.list`).

Entries of a directory may be in any order as long as their names differ
(`relisted_of_perm`).
-/

namespace JavaEntities.FileSystem

/-- Whether two nodes are the same file, the same link, or directories with the same names. -/
inductive Node.Alike : Node → Node → Prop
  | file (bytes : ByteArray) : Alike (.file bytes) (.file bytes)
  | link (target : RawText) : Alike (.link target) (.link target)
  | dir {entries entries' : List (RawText × Node)}
      (h : (entries.map Prod.fst).Perm (entries'.map Prod.fst)) :
      Alike (.dir entries) (.dir entries')

theorem Node.Alike.sight_eq {n n' : Node} (h : n.Alike n') : n'.sight = n.sight := by
  cases h <;> rfl

theorem Node.Alike.refl (n : Node) : n.Alike n := by
  cases n with
  | file bytes => exact .file bytes
  | link target => exact .link target
  | dir entries => exact .dir (List.Perm.refl _)

/-- Whether two file systems differ in the order of listing alone. -/
structure Relisted (fs fs' : FileSystem) : Prop where
  current_eq : fs'.current = fs.current
  alike : ∀ x, Option.Rel Node.Alike (fs.root.get? x) (fs'.root.get? x)

namespace Relisted

variable {fs fs' : FileSystem} {p : Path}

/-- Nothing looks different in another order. -/
theorem sight_eq (h : fs.Relisted fs') (x : Address) : fs'.root.sight? x = fs.root.sight? x := by
  have hx := h.alike x
  unfold Node.sight?
  revert hx
  generalize fs.root.get? x = o
  generalize fs'.root.get? x = o'
  intro hx
  cases hx with
  | none => rfl
  | some halike => exact congrArg some halike.sight_eq

/-- The way that a path describes ends where it did. -/
theorem follow_eq (h : fs.Relisted fs') (links : List RawText → Bool) (p : Path) :
    fs'.follow links p = fs.follow links p := by
  have hwalk : fs'.root.walk links linkLimit (origin fs.current p.text) (segments p.text)
      = fs.root.walk links linkLimit (origin fs.current p.text) (segments p.text) := by
    have hway := Node.walks fs.root links linkLimit (origin fs.current p.text) (segments p.text)
    exact (hway.congr fun x _ => h.sight_eq x).eq.2
  unfold follow
  rw [h.current_eq, hwalk]

/-- A path leads to like nodes, or nowhere for the same reason. -/
theorem locate (h : fs.Relisted fs') (p : Path) :
    (∃ c, fs.locate p = .error c ∧ fs'.locate p = .error c) ∨
      ∃ a n n', fs.locate p = .ok (a, n) ∧ fs'.locate p = .ok (a, n') ∧ n.Alike n' := by
  unfold FileSystem.locate
  rw [h.follow_eq]
  cases fs.follow (fun _ => true) p with
  | error c => exact .inl ⟨c, rfl, rfl⟩
  | ok stop =>
    cases stop with
    | reached a =>
      have ha := h.alike a
      dsimp only
      revert ha
      generalize fs.root.get? a = o
      generalize fs'.root.get? a = o'
      intro ha
      cases ha with
      | none => exact .inl ⟨_, rfl, rfl⟩
      | some halike => exact .inr ⟨a, _, _, rfl, rfl, halike⟩
    | absent d n rest => exact .inl ⟨_, rfl, rfl⟩
    | blocked f rest => exact .inl ⟨_, rfl, rfl⟩
    | link d n target rest => exact .inl ⟨_, rfl, rfl⟩
    | tooLong rest => exact .inl ⟨_, rfl, rfl⟩
    | endless => exact .inl ⟨_, rfl, rfl⟩

/-- The same paths lead to files in another order. -/
theorem isFile_eq (h : fs.Relisted fs') (p : Path) : fs'.isFile p = fs.isFile p := by
  unfold isFile
  rcases h.locate p with ⟨c, hc, hc'⟩ | ⟨a, n, n', hn, hn', halike⟩
  · rw [hc, hc']
  · rw [hn, hn']
    cases halike <;> rfl

/-- The same texts are read in another order. -/
theorem readText_eq (h : fs.Relisted fs') (p : Path) : fs'.readText p = fs.readText p := by
  unfold readText
  rcases h.locate p with ⟨c, hc, hc'⟩ | ⟨a, n, n', hn, hn', halike⟩
  · rw [hc, hc']
  · rw [hn, hn']
    cases halike <;> rfl

/-- A directory has the same names, in some order, or cannot be listed for the same reason. -/
theorem list (h : fs.Relisted fs') (p : Path) :
    (∃ c, fs.list p = .error c ∧ fs'.list p = .error c) ∨
      ∃ names names', fs.list p = .ok names ∧ fs'.list p = .ok names' ∧ names.Perm names' := by
  unfold FileSystem.list
  rcases h.locate p with ⟨c, hc, hc'⟩ | ⟨a, n, n', hn, hn', halike⟩
  · rw [hc, hc']
    exact .inl ⟨c, rfl, rfl⟩
  · rw [hn, hn']
    cases halike with
    | file bytes => exact .inl ⟨_, rfl, rfl⟩
    | link target => exact .inl ⟨_, rfl, rfl⟩
    | dir hperm => exact .inr ⟨_, _, rfl, rfl, hperm⟩

end Relisted

/-! ## Entries in another order -/

/-- With distinct names, an entry is found in any order. -/
theorem lookup_eq_of_perm {entries entries' : List (RawText × Node)}
    (hnames : (entries.map Prod.fst).Nodup) (h : entries.Perm entries') (n : RawText) :
    entries'.lookup n = entries.lookup n := by
  have hnames' : (entries'.map Prod.fst).Nodup := (h.map Prod.fst).nodup_iff.mp hnames
  cases hn : entries.lookup n with
  | none =>
    rw [lookup_eq_none_iff_names] at hn ⊢
    exact fun e he => hn e (h.mem_iff.mpr he)
  | some c =>
    obtain ⟨before, after, hsplit, -⟩ := List.lookup_eq_some_iff.mp hn
    have hmem : (n, c) ∈ entries := by simp [hsplit]
    exact lookup_of_mem hnames' (h.mem_iff.mp hmem)

/-- A change below a node that is a directory leaves it its names. -/
theorem Node.alike_modify (f : Node → Node) (m : RawText) (r : Address) (n : Node) :
    n.Alike (n.modify f (m :: r)) := by
  cases n with
  | file bytes => exact .file bytes
  | link target => exact .link target
  | dir entries => exact .dir (List.Perm.of_eq (names_map_of_name m (modify f r) entries).symm)

/-- **The entries of a directory can be listed in any order** as long as their names differ. -/
theorem relisted_of_perm {fs : FileSystem} {a : Address} {entries entries' : List (RawText × Node)}
    (ha : fs.root.get? a = some (.dir entries)) (hnames : (entries.map Prod.fst).Nodup)
    (h : entries.Perm entries') :
    fs.Relisted { fs with root := fs.root.modify (fun _ => .dir entries') a } := by
  have hrefl : ∀ o : Option Node, Option.Rel Node.Alike o o := by
    intro o
    cases o with
    | none => exact .none
    | some n => exact .some (.refl n)
  refine ⟨rfl, fun x => ?_⟩
  show Option.Rel Node.Alike (fs.root.get? x) ((fs.root.modify (fun _ => .dir entries') a).get? x)
  by_cases hax : a <+: x
  · obtain ⟨r, rfl⟩ := hax
    rw [Node.get?_modify_append, Node.get?_append, ha, Option.bind_some, Option.bind_some]
    cases r with
    | nil => exact .some (.dir (h.map Prod.fst))
    | cons m r =>
      -- Below the directory it only matters which entry has the name.
      rw [Node.get?, Node.get?, Node.child?, Node.child?, lookup_eq_of_perm hnames h]
      exact hrefl _
  · rcases Node.get?_modify_of_not_below (fun _ => .dir entries') fs.root hax with
      hget | ⟨m, r, hget⟩
    · rw [hget]
      exact hrefl _
    · rw [hget]
      cases fs.root.get? x with
      | none => exact .none
      | some n => exact .some (Node.alike_modify _ m r n)

end JavaEntities.FileSystem
