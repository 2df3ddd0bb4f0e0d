import Mathlib.Data.List.Nodup
import JavaEntities.Proofs.FileSystem.Directories

/-!
# Entries of a directory

Writing files into a directory that has only files puts one entry after the other
(`locate_of_writeBytes`). If the names that are put are distinct, and every entry from
before has one of them, the directory has exactly the entries that were put, in some
order (`perm_putAll`). The path of a file in a directory leads to the file unless the path is
too long (`isFile_join_iff`).

Whatever is written, a file system only fills: what it shows stays, what is new is a file,
and the names of a directory stay in front (`Fills`).
-/

namespace JavaEntities.FileSystem

/-! ## Putting entries -/

/-- The entries with one more, in place of those with its name. -/
def put (entries : List (RawText × Node)) (e : RawText × Node) : List (RawText × Node) :=
  if entries.lookup e.1 = none then entries ++ [e]
  else entries.map fun old => if old.1 = e.1 then (old.1, e.2) else old

/-- The entries with those of a list put one after the other. -/
def putAll (entries news : List (RawText × Node)) : List (RawText × Node) :=
  news.foldl put entries

/-- A name is missing if no entry bears it. -/
theorem lookup_eq_none_iff_names {n : RawText} {entries : List (RawText × Node)} :
    entries.lookup n = none ↔ ∀ e ∈ entries, e.1 ≠ n := by
  rw [List.lookup_eq_none_iff]
  constructor
  · intro h e he hn
    exact bne_iff_ne.mp (h e he) hn.symm
  · intro h e he
    exact bne_iff_ne.mpr fun hn => h e he hn.symm

/-- With distinct names, an entry is found under its name. -/
theorem lookup_of_mem {entries : List (RawText × Node)} {e : RawText × Node}
    (h : (entries.map Prod.fst).Nodup) (he : e ∈ entries) : entries.lookup e.1 = some e.2 := by
  induction entries with
  | nil => exact absurd he List.not_mem_nil
  | cons old rest ih =>
    obtain ⟨hold, hrest⟩ := List.nodup_cons.mp h
    rcases List.mem_cons.mp he with rfl | he
    · exact List.lookup_cons_self
    · have hne : e.1 ≠ old.1 := by
        intro heq
        exact hold (heq ▸ List.mem_map_of_mem he)
      rw [List.lookup_cons, beq_eq_false_iff_ne.mpr hne]
      exact ih hrest he

/-- An entry that is put takes the place of the one with its name. -/
theorem mem_put {entries : List (RawText × Node)} {e new : RawText × Node} :
    e ∈ put entries new ↔ e = new ∨ (e ∈ entries ∧ e.1 ≠ new.1) := by
  unfold put
  by_cases hnew : entries.lookup new.1 = none
  · rw [if_pos hnew, List.mem_append, List.mem_singleton]
    have hother := lookup_eq_none_iff_names.mp hnew
    constructor
    · intro hmem
      rcases hmem with he | he
      · exact .inr ⟨he, hother e he⟩
      · exact .inl he
    · intro hmem
      rcases hmem with he | ⟨he, -⟩
      · exact .inr he
      · exact .inl he
  · rw [if_neg hnew, List.mem_map]
    constructor
    · intro hmem
      obtain ⟨old, hold, rfl⟩ := hmem
      by_cases hn : old.1 = new.1
      · rw [if_pos hn]
        left
        rw [hn]
      · rw [if_neg hn]
        exact .inr ⟨hold, hn⟩
    · intro hmem
      rcases hmem with rfl | ⟨he, hn⟩
      · obtain ⟨old, hold, hn⟩ : ∃ old ∈ entries, old.1 = e.1 := by
          simpa [lookup_eq_none_iff_names] using hnew
        refine ⟨old, hold, ?_⟩
        rw [if_pos hn, hn]
      · exact ⟨e, he, if_neg hn⟩

/-- A new name comes last, and an old one stays where it is. -/
theorem names_put (entries : List (RawText × Node)) (new : RawText × Node) :
    (put entries new).map Prod.fst = if entries.lookup new.1 = none
      then entries.map Prod.fst ++ [new.1] else entries.map Prod.fst := by
  unfold put
  by_cases hnew : entries.lookup new.1 = none
  · rw [if_pos hnew, if_pos hnew, List.map_append]
    rfl
  · rw [if_neg hnew, if_neg hnew, List.map_map]
    refine List.map_congr_left fun old _ => ?_
    show (if old.1 = new.1 then (old.1, new.2) else old).1 = old.1
    split
    · rfl
    · rfl

/-- An entry that is put leaves the names distinct. -/
theorem nodup_names_put {entries : List (RawText × Node)} (new : RawText × Node)
    (h : (entries.map Prod.fst).Nodup) : ((put entries new).map Prod.fst).Nodup := by
  rw [names_put]
  by_cases hnew : entries.lookup new.1 = none
  · rw [if_pos hnew, List.nodup_append]
    refine ⟨h, List.nodup_singleton _, ?_⟩
    intro n hn m hm
    obtain ⟨e, he, rfl⟩ := List.mem_map.mp hn
    rw [List.mem_singleton.mp hm]
    exact lookup_eq_none_iff_names.mp hnew e he
  · rw [if_neg hnew]
    exact h

/-- Entries that are put leave the names distinct. -/
theorem nodup_names_putAll {entries : List (RawText × Node)} (news : List (RawText × Node))
    (h : (entries.map Prod.fst).Nodup) : ((putAll entries news).map Prod.fst).Nodup := by
  induction news generalizing entries with
  | nil => exact h
  | cons new rest ih => exact ih (nodup_names_put new h)

/-- Entries that are put take the places of those with their names. -/
theorem mem_putAll {entries news : List (RawText × Node)} {e : RawText × Node}
    (hnews : (news.map Prod.fst).Nodup) :
    e ∈ putAll entries news ↔ e ∈ news ∨ (e ∈ entries ∧ e.1 ∉ news.map Prod.fst) := by
  induction news generalizing entries with
  | nil => simp [putAll]
  | cons new rest ih =>
    obtain ⟨hnew, hrest⟩ := List.nodup_cons.mp hnews
    have hstep : putAll entries (new :: rest) = putAll (put entries new) rest := rfl
    rw [hstep, ih hrest, mem_put, List.mem_cons, List.map_cons, List.mem_cons, not_or]
    constructor
    · intro hmem
      rcases hmem with he | ⟨rfl | ⟨he, hn⟩, hn'⟩
      · exact .inl (.inr he)
      · exact .inl (.inl rfl)
      · exact .inr ⟨he, hn, hn'⟩
    · intro hmem
      rcases hmem with (rfl | he) | ⟨he, hn, hn'⟩
      · exact .inr ⟨.inl rfl, hnew⟩
      · exact .inl he
      · exact .inr ⟨.inr ⟨he, hn⟩, hn'⟩

/-- Entries with distinct names that are put over entries with no other names are all that is
there. -/
theorem perm_putAll {entries news : List (RawText × Node)} (hentries : (entries.map Prod.fst).Nodup)
    (hnews : (news.map Prod.fst).Nodup) (hnames : ∀ e ∈ entries, e.1 ∈ news.map Prod.fst) :
    (putAll entries news).Perm news := by
  refine (List.perm_ext_iff_of_nodup
    ((nodup_names_putAll news hentries).of_map _) (hnews.of_map _)).mpr ?_
  intro e
  rw [mem_putAll hnews]
  constructor
  · intro hmem
    rcases hmem with he | ⟨he, hn⟩
    · exact he
    · exact absurd (hnames e he) hn
  · exact Or.inl

/-! ## Writing into a directory -/

variable {fs fs' : FileSystem} {root : Path} {a : Address}

/-- What is at an entry of a directory is what bears the name. -/
theorem get?_entry {t : Node} {entries : List (RawText × Node)} {n : RawText}
    (h : t.get? a = some (.dir entries)) : t.get? (a ++ [n]) = entries.lookup n := by
  rw [Node.get?_append, h, Option.bind_some, Node.get?, Node.child?]
  cases entries.lookup n with
  | none => rfl
  | some c => rfl

theorem Node.isFile_iff_sight {n : Node} : n.isFile = true ↔ n.sight = .file := by
  cases n with
  | file bytes => exact iff_of_true rfl rfl
  | link target => simp [isFile, sight]
  | dir entries => simp [isFile, sight]

/-- What is seen at an entry of a directory. -/
theorem sight?_entry {entries : List (RawText × Node)} {e : RawText × Node}
    (h : fs.locate root = .ok (a, .dir entries)) (hnames : (entries.map Prod.fst).Nodup)
    (he : e ∈ entries) : fs.root.sight? (a ++ [e.1]) = some e.2.sight := by
  rw [Node.sight?, get?_entry (locate_eq_ok_iff.mp h).2, lookup_of_mem hnames he]
  rfl

/-- The path of an entry leads on from that of the directory by the name. -/
theorem entryOf_join {name : RawText} (hname : IsFileName name) (hne : root.text ≠ "") :
    EntryOf root (root.join name) name := by
  obtain ⟨hsegs, habsolute⟩ := join_spec hname hne
  refine ⟨hname.toIsName, habsolute, ?_⟩
  rw [hsegs, plain_append, ← plain_segments_eq_plain_named, plain_cons hname.not_stay]
  rfl

/-- What the path of an entry leads to is listed. -/
theorem mem_names_of_exists {entries : List (RawText × Node)} {name : RawText}
    (hroot : fs.locate root = .ok (a, .dir entries)) (hname : IsFileName name)
    (h : fs.exists? (root.join name) = true) : name ∈ entries.map Prod.fst := by
  have hne := (follow_eq_ok_iff.mp (locate_eq_ok_iff.mp hroot).1).1.ne_empty
  by_contra hno
  have hmissing : entries.lookup name = none := lookup_eq_none_iff_names.mpr fun e he heq =>
    hno (heq ▸ List.mem_map_of_mem he)
  rw [not_exists_of_no_entry hroot (entryOf_join hname hne) hmissing] at h
  exact nomatch h

/-- Where the path of an entry leads in a directory that has only files: to the file with
the name, or to the missing name. -/
theorem follow_join {entries : List (RawText × Node)} {name : RawText} {stop : Stop}
    (hroot : fs.locate root = .ok (a, .dir entries)) (hfiles : ∀ e ∈ entries, e.2.isFile = true)
    (hname : IsFileName name) (hne : root.text ≠ "")
    (hf : fs.follow (fun rest => !isMarked rest) (root.join name) = .ok stop) :
    (stop = .absent a name [] ∧ entries.lookup name = none) ∨
      (stop = .reached (a ++ [name]) ∧ entries.lookup name ≠ none) ∨ stop = .tooLong [] := by
  obtain ⟨hsegs, habsolute⟩ := join_spec hname hne
  have hwalk := (follow_eq_ok_iff.mp hf).2
  rw [hsegs, origin_eq fs.current habsolute] at hwalk
  -- The name comes last, so every link on the way to the directory is followed.
  have hfollow : ∀ rest, (!isMarked (rest ++ [name])) = true := by
    intro rest
    unfold isMarked
    rw [Bool.not_eq_true', decide_eq_false_iff_not]
    intro he
    have hlast := congrArg List.getLast? he
    rw [List.getLast?_concat] at hlast
    exact hname.ne_empty (Option.some.inj hlast)
  obtain ⟨m, hm⟩ := walks_entry hroot (fun rest => !isMarked rest) hfollow
    (plain_segments_eq_plain_named root.text)
  have hget : fs.root.get? (a ++ [name]) = entries.lookup name :=
    get?_entry (locate_eq_ok_iff.mp hroot).2
  by_cases hlength : name.size ≤ nameLimit
  · cases hlookup : entries.lookup name with
    | none =>
      rw [hlookup] at hget
      have hnone := Node.sight?_eq_none_iff.mpr hget
      left
      have hstop := hm _ _ (Node.Advances.walks (.absent hname.toIsName hlength hnone) rfl _ m)
      exact ⟨hwalk.symm.trans hstop, rfl⟩
    | some c =>
      rw [hlookup] at hget
      have hc : c.isFile = true := by
        obtain ⟨l₁, l₂, hsplit, -⟩ := List.lookup_eq_some_iff.mp hlookup
        exact hfiles (name, c) (by rw [hsplit]; simp)
      cases c with
      | dir entries => exact nomatch hc
      | link target => exact nomatch hc
      | file old =>
        have hfile := Node.sight?_eq_file_iff.mpr ⟨old, hget⟩
        right; left
        have hstop := hm _ _ (Node.Advances.walks (.file hname.toIsName hlength hfile) rfl _ m)
        exact ⟨hwalk.symm.trans hstop, Option.some_ne_none _⟩
  · right; right
    have hlong := Nat.not_le.mp hlength
    have hstop := hm _ _ (Node.Advances.walks (.tooLong hname.toIsName hlong) rfl _ m)
    exact hwalk.symm.trans hstop

/-- A write to an entry of a directory that has only files puts this entry. -/
theorem locate_of_writeBytes {entries : List (RawText × Node)} {name : RawText}
    {bytes : ByteArray} (h : fs.writeBytes (root.join name) bytes = .ok fs')
    (hroot : fs.locate root = .ok (a, .dir entries)) (hfiles : ∀ e ∈ entries, e.2.isFile = true)
    (hname : IsFileName name) (hne : root.text ≠ "") :
    fs'.locate root = .ok (a, .dir (put entries (name, .file bytes))) := by
  obtain ⟨hf, ha⟩ := locate_eq_ok_iff.mp hroot
  refine locate_eq_ok_iff.mpr ⟨(partOf_writeBytes h).follow_eq hf, ?_⟩
  rcases writeBytes_eq_ok h with ⟨b, hb, -, rfl⟩ | ⟨d, n, hd, hadd⟩
  · rcases follow_join hroot hfiles hname hne hb with ⟨hstop, -⟩ | ⟨hstop, hlookup⟩ | hstop
    · exact nomatch hstop
    · rw [Stop.reached.inj hstop, Node.get?_modify_of_append, ha]
      show some (Node.modify (fun _ => .file bytes) [name] (.dir entries)) = _
      rw [put, if_neg hlookup]
      rfl
    · exact nomatch hstop
  · rcases follow_join hroot hfiles hname hne hd with ⟨hstop, hlookup⟩ | ⟨hstop, -⟩ | hstop
    · obtain ⟨rfl, rfl, -⟩ := Stop.absent.inj hstop
      obtain ⟨-, rfl⟩ := addEntry_eq_ok hadd
      rw [Node.get?_modify_self, ha, put, if_pos hlookup]
      rfl
    · exact nomatch hstop
    · exact nomatch hstop

/-- Among files, a file that is put leaves only files. -/
theorem isFile_of_mem_put {entries : List (RawText × Node)} {new e : RawText × Node}
    (hfiles : ∀ e ∈ entries, e.2.isFile = true) (hnew : new.2.isFile = true)
    (he : e ∈ put entries new) : e.2.isFile = true := by
  rcases mem_put.mp he with rfl | ⟨he, -⟩
  · exact hnew
  · exact hfiles e he

/-! ## The files of a directory -/

/-- Whether a directory can be given an entry with this name. -/
structure Storable (n : RawText) : Prop where
  short : n.size ≤ nameLimit
  no_nul : 0 ∉ n.toList

/-- The path of an entry can lead somewhere if it is not too long. -/
theorem canLead_join_iff {n : RawText} (hroot : CanLead root) (hn : IsFileName n)
    (hstorable : Storable n) :
    CanLead (root.join n) ↔ (root.join n).text.size < pathLimit := by
  refine ⟨CanLead.short, fun hshort => ⟨?_, ?_, hshort⟩⟩
  · intro hnul
    rcases mem_text_join hn hnul with hmem | heq | hmem
    · exact hroot.no_nul hmem
    · exact absurd heq (by decide)
    · exact hstorable.no_nul hmem
  · intro hempty
    have hroom := size_le_join root hn
    rw [RawText.size_eq_zero_iff.mpr hempty] at hroom
    exact hn.ne_empty (RawText.size_eq_zero_iff.mp (by omega))

/-- **The path of a file in a directory leads to the file unless it is too long.** -/
theorem isFile_join_iff {entries : List (RawText × Node)} {n : RawText} {bytes : ByteArray}
    (hroot : fs.locate root = .ok (a, .dir entries)) (hnames : (entries.map Prod.fst).Nodup)
    (hfile : (n, .file bytes) ∈ entries) (hn : IsFileName n) (hstorable : Storable n) :
    fs.isFile (root.join n) = true ↔ (root.join n).text.size < pathLimit := by
  obtain ⟨hfollow, hdir⟩ := locate_eq_ok_iff.mp hroot
  have hlead := (follow_eq_ok_iff.mp hfollow).1
  rw [← canLead_join_iff hlead hn hstorable]
  constructor
  · intro h
    obtain ⟨b, node, hnode⟩ := exists?_iff.mp (exists?_of_isFile h)
    exact (follow_eq_ok_iff.mp (locate_eq_ok_iff.mp hnode).1).1
  · intro h
    obtain ⟨hsegs, habsolute⟩ := join_spec hn hlead.ne_empty
    have hget : fs.root.get? (a ++ [n]) = some (.file bytes) := by
      rw [get?_entry hdir]
      exact lookup_of_mem hnames hfile
    obtain ⟨m, hm⟩ := walks_entry hroot (fun _ => true) (fun _ => rfl)
      (plain_segments_eq_plain_named root.text)
    have hwalk := hm _ _ (Node.Advances.walks (.file hn.toIsName hstorable.short
      (Node.sight?_eq_file_iff.mpr ⟨bytes, hget⟩)) rfl _ m)
    have hlocate : fs.locate (root.join n) = .ok (a ++ [n], .file bytes) := by
      refine locate_eq_ok_iff.mpr ⟨follow_eq_ok_iff.mpr ⟨h, ?_⟩, hget⟩
      rw [hsegs, origin_eq fs.current habsolute]
      exact hwalk
    unfold isFile
    rw [hlocate]
    rfl

/-- A directory can be spelled with any number of separators behind that there is room for. -/
theorem locate_of_separators {entries : List (RawText × Node)} {p : Path} {k : Nat}
    (hroot : fs.locate root = .ok (a, .dir entries))
    (hp : p.text.toList = root.text.toList ++ List.replicate k slash)
    (hshort : root.text.size + k < pathLimit) : fs.locate p = .ok (a, .dir entries) := by
  obtain ⟨hfollow, hdir⟩ := locate_eq_ok_iff.mp hroot
  rw [← size_append_separators hp] at hshort
  have hlead := (follow_eq_ok_iff.mp hfollow).1
  have hplain : plain (segments root.text) = plain (segments p.text) := by
    rw [plain_segments_eq_plain_named, plain_segments_eq_plain_named, named_append_separators hp]
  refine locate_eq_ok_iff.mpr ⟨follow_eq_ok_iff.mpr ⟨⟨?_, ?_, hshort⟩, ?_⟩, hdir⟩
  · rw [hp, List.mem_append, not_or]
    exact ⟨hlead.no_nul, fun hmem => absurd (List.eq_of_mem_replicate hmem) (by decide)⟩
  · intro hempty
    rw [hempty] at hp
    exact hlead.ne_empty (RawText.toList_eq_nil_iff.mp (List.append_eq_nil_iff.mp hp.symm).1)
  · rw [origin_eq fs.current (isAbsolute_of_append hlead.ne_empty hp)]
    exact walk_eq_reached_of_locate hroot rfl hplain

/-! ## Filling -/

/-- What a file system goes through when files are written: what is new is a file, and the names
of a directory stay in front of new ones. -/
structure Fills (fs fs' : FileSystem) : Prop where
  current_eq : fs'.current = fs.current
  sight_eq : ∀ x, fs'.root.sight? x ≠ some .file → fs.root.sight? x = fs'.root.sight? x
  names : ∀ x old, fs.root.namesAt? x = some old →
    ∃ new, fs'.root.namesAt? x = some (old ++ new)

theorem Fills.refl (fs : FileSystem) : Fills fs fs :=
  ⟨rfl, fun _ _ => rfl, fun _ old h => ⟨[], by rw [List.append_nil]; exact h⟩⟩

theorem Fills.trans {fs'' : FileSystem} (h : Fills fs fs') (h' : Fills fs' fs'') :
    Fills fs fs'' := by
  refine ⟨h'.current_eq.trans h.current_eq, ?_, ?_⟩
  · intro x hx
    have hsight := h'.sight_eq x hx
    rw [← hsight] at hx ⊢
    exact h.sight_eq x hx
  · intro x old hold
    obtain ⟨new, hnew⟩ := h.names x old hold
    obtain ⟨new', hnew'⟩ := h'.names x _ hnew
    exact ⟨new ++ new', by rw [← List.append_assoc]; exact hnew'⟩

/-- A write fills a file system. -/
theorem fills_writeBytes {p : Path} {bytes : ByteArray} (h : fs.writeBytes p bytes = .ok fs') :
    Fills fs fs' := by
  rcases writeBytes_eq_ok h with ⟨b, -, hb, rfl⟩ | ⟨d, n, hf, hadd⟩
  · refine ⟨rfl, ?_, ?_⟩
    · intro x _
      exact (sight?_overwritten hb).symm
    · intro x old hold
      refine ⟨[], ?_⟩
      rw [List.append_nil]
      exact namesAt?_overwritten hb hold
  · have hnone := (follow_absent_look hf).2.2
    obtain ⟨hd, rfl⟩ := addEntry_eq_ok hadd
    have hget := Node.sight?_eq_none_iff.mp hnone
    refine ⟨rfl, ?_, ?_⟩
    · intro x hx
      rw [sight?_addChild hd hget (Node.isLeaf_file bytes)] at hx ⊢
      by_cases hnew : x = d ++ [n]
      · rw [if_pos hnew] at hx
        exact absurd rfl hx
      · rw [if_neg hnew]
    · intro x old hold
      exact namesAt?_addChild hd hget (Node.isLeaf_file bytes) hold

/-- A directory in the filled file system was there before, with the names in front. -/
theorem Fills.locate {entries : List (RawText × Node)} (h : Fills fs fs')
    (hroot : fs'.locate root = .ok (a, .dir entries)) :
    ∃ olds new, fs.locate root = .ok (a, .dir olds) ∧
      entries.map Prod.fst = olds.map Prod.fst ++ new := by
  obtain ⟨hf, ha⟩ := locate_eq_ok_iff.mp hroot
  have hdir : fs'.root.sight? a = some .dir := Node.sight?_eq_dir_iff.mpr ⟨entries, ha⟩
  have hnotFile : fs'.root.sight? a ≠ some .file := by
    rw [hdir]
    exact fun he => nomatch he
  obtain ⟨hp, hwalk⟩ := follow_eq_ok_iff.mp hf
  have hway := Node.walks_iff.mpr ⟨rfl, hwalk⟩
  -- The way ends at a directory and so passes no file; what it saw was there before.
  have hway' : fs.root.Walks _ _ _ _ _ _ := hway.congr fun x hx => by
    apply h.sight_eq x
    intro hfile
    rcases hway.file_of_mem hx hfile with hstop | ⟨rest, hstop⟩
    · rw [Stop.reached.inj hstop] at hnotFile
      exact hnotFile hfile
    · exact nomatch hstop
  rw [h.current_eq] at hway'
  have hbefore := h.sight_eq a hnotFile
  obtain ⟨olds, holds⟩ := Node.sight?_eq_dir_iff.mp (hbefore.trans hdir)
  obtain ⟨new, hnew⟩ := h.names a (olds.map Prod.fst) (by rw [Node.namesAt?, holds])
  rw [Node.namesAt?, ha] at hnew
  exact ⟨olds, new, locate_eq_ok_iff.mpr ⟨follow_eq_ok_iff.mpr ⟨hp, hway'.eq.2⟩, holds⟩,
    Option.some.inj hnew⟩

end JavaEntities.FileSystem
