import JavaEntities.Proofs.FileSystem.Trail

/-!
# Parts of a file system

A file system is a part of another when everything it shows is shown by the other
as well, and every file that was not written has kept its bytes. What a removal leaves is a
part of what was there, and what was there is a part of what making directories and
writing leads to.

Ways survive in the larger file system: a path that leads somewhere in the part leads to
the same address in the whole (`PartOf.follow_eq`). The converse needs the part to show
the whole trail (`PartOf.of_shown`).
-/

namespace JavaEntities.FileSystem

/-! ## Ways that paths describe -/

/-- Whether a path can lead anywhere. -/
structure CanLead (p : Path) : Prop where
  no_nul : 0 ∉ p.text.toList
  ne_empty : p.text ≠ ""
  short : p.text.size < pathLimit

/-- The addresses that are looked at on the way that a path describes. -/
def trail (fs : FileSystem) (p : Path) : List Address :=
  fs.root.trail (fun _ => true) linkLimit (origin fs.current p.text) (segments p.text)

/-- Whether the way that a path describes looks at an address or leads to it. -/
def OnWay (fs : FileSystem) (p : Path) (x : Address) : Prop :=
  x ∈ fs.trail p ∨ fs.canonical? p = some x

/-- The bytes of the file that a path leads to. -/
def bytes? (fs : FileSystem) (p : Path) : Option ByteArray :=
  (fs.canonical? p).bind fs.root.fileAt?

/-- A path can be followed if it can lead anywhere, and then its segments are. -/
theorem follow_eq_ok_iff {fs : FileSystem} {links : List RawText → Bool} {p : Path} {stop : Stop} :
    fs.follow links p = .ok stop ↔
      CanLead p ∧
        fs.root.walk links linkLimit (origin fs.current p.text) (segments p.text) = stop := by
  rw [follow]
  by_cases hnul : p.text.toList.contains 0 = true
  · rw [if_pos hnul]
    constructor
    · intro h; exact nomatch h
    · intro h; exact absurd (List.contains_iff_mem.mp hnul) h.1.no_nul
  · rw [if_neg hnul]
    by_cases hempty : p.text = ""
    · rw [if_pos hempty]
      constructor
      · intro h; exact nomatch h
      · intro h; exact absurd hempty h.1.ne_empty
    · rw [if_neg hempty]
      by_cases hlong : pathLimit ≤ p.text.size
      · rw [if_pos hlong]
        constructor
        · intro h; exact nomatch h
        · intro h; exact absurd hlong (Nat.not_le.mpr h.1.short)
      · rw [if_neg hlong]
        constructor
        · intro h
          refine ⟨⟨?_, hempty, Nat.not_le.mp hlong⟩, Except.ok.inj h⟩
          intro hmem
          exact hnul (List.contains_iff_mem.mpr hmem)
        · intro h
          rw [h.2]

/-- A path leads to what is at the address that its way reaches. -/
theorem locate_eq_ok_iff {fs : FileSystem} {p : Path} {a : Address} {n : Node} :
    fs.locate p = .ok (a, n) ↔
      fs.follow (fun _ => true) p = .ok (.reached a) ∧ fs.root.get? a = some n := by
  rw [locate]
  cases fs.follow (fun _ => true) p with
  | error c => simp
  | ok stop =>
    cases stop with
    | reached b =>
      dsimp only
      cases hb : fs.root.get? b with
      | none =>
        simp only [Except.ok.injEq, Stop.reached.injEq, reduceCtorEq, false_iff, not_and]
        intro heq
        subst heq
        simp [hb]
      | some m =>
        simp only [Except.ok.injEq, Stop.reached.injEq, Prod.mk.injEq]
        constructor
        · intro hboth
          obtain ⟨rfl, rfl⟩ := hboth
          exact ⟨rfl, hb⟩
        · intro hboth
          obtain ⟨rfl, hn⟩ := hboth
          exact ⟨rfl, Option.some.inj (hb.symm.trans hn)⟩
    | absent d n rest => simp
    | blocked f rest => simp
    | link d n target rest => simp
    | tooLong rest => simp
    | endless => simp

/-- The address of a path is what its way reaches, if something is there. -/
theorem canonical?_eq_some_iff {fs : FileSystem} {p : Path} {a : Address} :
    fs.canonical? p = some a ↔
      fs.follow (fun _ => true) p = .ok (.reached a) ∧ fs.root.sight? a ≠ none := by
  rw [ne_eq, Node.sight?_eq_none_iff, canonical?]
  cases h : fs.locate p with
  | error c =>
    constructor
    · intro hc
      exact nomatch hc
    · intro hboth
      obtain ⟨hf, ha⟩ := hboth
      obtain ⟨n, hn⟩ := Option.ne_none_iff_exists'.mp ha
      rw [locate_eq_ok_iff.mpr ⟨hf, hn⟩] at h
      exact nomatch h
  | ok r =>
    obtain ⟨b, n⟩ := r
    obtain ⟨hf, hb⟩ := locate_eq_ok_iff.mp h
    simp only [Option.some.injEq]
    constructor
    · intro heq
      subst heq
      exact ⟨hf, by simp [hb]⟩
    · intro ha
      rw [hf] at ha
      exact Stop.reached.inj (Except.ok.inj ha.1)

/-- The bytes of a path are those of the file at its address. -/
theorem bytes?_eq_some_iff {fs : FileSystem} {p : Path} {bytes : ByteArray} :
    fs.bytes? p = some bytes ↔ ∃ a, fs.canonical? p = some a ∧ fs.root.fileAt? a = some bytes :=
  Option.bind_eq_some_iff

/-! ## Files that paths lead to -/

/-- A path leads to a file if and only if it has bytes. -/
theorem locate_eq_file_iff {fs : FileSystem} {p : Path} {bytes : ByteArray} :
    (∃ a, fs.locate p = .ok (a, .file bytes)) ↔ fs.bytes? p = some bytes := by
  rw [bytes?_eq_some_iff]
  refine exists_congr fun a => ?_
  rw [locate_eq_ok_iff, canonical?_eq_some_iff, Node.fileAt?_eq_some_iff]
  constructor
  · intro h
    refine ⟨⟨h.1, ?_⟩, h.2⟩
    rw [ne_eq, Node.sight?_eq_none_iff, h.2]
    exact Option.some_ne_none _
  · intro h
    exact ⟨h.1.1, h.2⟩

/-- A path is that of a file if and only if it has bytes. -/
theorem isFile_iff {fs : FileSystem} {p : Path} :
    fs.isFile p = true ↔ ∃ bytes, fs.bytes? p = some bytes := by
  simp only [← locate_eq_file_iff]
  unfold isFile
  cases fs.locate p with
  | error c => simp
  | ok r =>
    obtain ⟨a, n⟩ := r
    cases n with
    | file bytes => simp [Node.isFile]
    | link target => simp [Node.isFile]
    | dir entries => simp [Node.isFile]

/-- What is listed are the names of a directory. -/
theorem list_eq_ok {fs : FileSystem} {p : Path} {names : List RawText}
    (h : fs.list p = .ok names) :
    ∃ a entries, fs.locate p = .ok (a, .dir entries) ∧ names = entries.map Prod.fst := by
  unfold list at h
  split at h
  · exact nomatch h
  · next a entries hlocate => exact ⟨a, entries, hlocate, (Except.ok.inj h).symm⟩
  · exact nomatch h

/-- A directory lists the names of its entries. -/
theorem list_of_locate {fs : FileSystem} {p : Path} {a : Address} {entries : List (RawText × Node)}
    (h : fs.locate p = .ok (a, .dir entries)) : fs.list p = .ok (entries.map Prod.fst) := by
  unfold list
  rw [h]

/-- The text of a file is what its bytes are read as. -/
theorem readText_of_bytes? {fs : FileSystem} {p : Path} {bytes : ByteArray}
    (h : fs.bytes? p = some bytes) :
    fs.readText p = match String.fromUTF8? bytes with
      | some s => .ok s
      | none => .error .notText := by
  obtain ⟨a, ha⟩ := locate_eq_file_iff.mpr h
  cases htext : String.fromUTF8? bytes with
  | none => simp only [readText, ha, htext]
  | some s => simp only [readText, ha, htext]

/-! ## Parts -/

/-- Everything that a file system shows is shown by another one, and its files have kept
their bytes but for those that were written. -/
structure PartOf (written : Address → Prop) (fs fs' : FileSystem) : Prop where
  current_eq : fs'.current = fs.current
  sight_eq : ∀ x, fs.root.sight? x ≠ none → fs'.root.sight? x = fs.root.sight? x
  file_eq : ∀ x, fs.root.sight? x ≠ none → ¬ written x →
    fs'.root.fileAt? x = fs.root.fileAt? x

namespace PartOf

variable {written written' : Address → Prop} {fs fs' fs'' : FileSystem} {p : Path} {a : Address}

theorem refl (written : Address → Prop) (fs : FileSystem) : PartOf written fs fs :=
  ⟨rfl, fun _ _ => rfl, fun _ _ _ => rfl⟩

theorem mono (h : PartOf written fs fs') (hw : ∀ x, written x → written' x) :
    PartOf written' fs fs' :=
  ⟨h.current_eq, h.sight_eq, fun x hx hx' => h.file_eq x hx fun hxw => hx' (hw x hxw)⟩

theorem trans (h : PartOf written fs fs') (h' : PartOf written fs' fs'') :
    PartOf written fs fs'' := by
  have hshown : ∀ x, fs.root.sight? x ≠ none → fs'.root.sight? x ≠ none := by
    intro x hx
    rw [h.sight_eq x hx]
    exact hx
  refine ⟨h'.current_eq.trans h.current_eq, ?_, ?_⟩
  · intro x hx
    rw [h'.sight_eq x (hshown x hx), h.sight_eq x hx]
  · intro x hx hw
    rw [h'.file_eq x (hshown x hx) hw, h.file_eq x hx hw]

/-- What a part shows is shown by the whole. -/
theorem shown (h : PartOf written fs fs') {x : Address} (hx : fs.root.sight? x ≠ none) :
    fs'.root.sight? x ≠ none := by
  rw [h.sight_eq x hx]
  exact hx

/-- A path that leads somewhere in the part leads there in the whole. -/
theorem follow_eq (h : PartOf written fs fs') {links : List RawText → Bool}
    (hf : fs.follow links p = .ok (.reached a)) : fs'.follow links p = .ok (.reached a) := by
  obtain ⟨hp, hwalk⟩ := follow_eq_ok_iff.mp hf
  -- A way that reaches its end was shown all of its trail, and that is shown by the whole too.
  have hway := Node.walks_iff.mpr ⟨rfl, hwalk⟩
  have hway' : fs'.root.Walks _ _ _ _ _ _ :=
    hway.congr fun x hx => h.sight_eq x (hway.shown hx)
  refine follow_eq_ok_iff.mpr ⟨hp, ?_⟩
  rw [h.current_eq]
  exact hway'.eq.2

/-- A path that leads somewhere in a part looks at the same addresses in the whole. -/
theorem trail_eq (h : PartOf written fs fs')
    (hf : fs.follow (fun _ => true) p = .ok (.reached a)) : fs'.trail p = fs.trail p := by
  have hway := Node.walks_iff.mpr ⟨rfl, (follow_eq_ok_iff.mp hf).2⟩
  have hway' : fs'.root.Walks _ _ _ _ _ _ :=
    hway.congr fun x hx => h.sight_eq x (hway.shown hx)
  rw [trail, h.current_eq]
  exact hway'.eq.1

/-- A path that leads somewhere in a part leads there in the whole. -/
theorem canonical?_eq (h : PartOf written fs fs') (hc : fs.canonical? p = some a) :
    fs'.canonical? p = some a := by
  obtain ⟨hf, ha⟩ := canonical?_eq_some_iff.mp hc
  exact canonical?_eq_some_iff.mpr ⟨h.follow_eq hf, h.shown ha⟩

/-- The file that a path leads to keeps its bytes if it was not written. -/
theorem bytes?_eq (h : PartOf written fs fs') {bytes : ByteArray} (hb : fs.bytes? p = some bytes)
    (hw : ∀ a, fs.canonical? p = some a → ¬ written a) : fs'.bytes? p = some bytes := by
  obtain ⟨a, ha, hfile⟩ := bytes?_eq_some_iff.mp hb
  refine bytes?_eq_some_iff.mpr ⟨a, h.canonical?_eq ha, ?_⟩
  rw [h.file_eq a (canonical?_eq_some_iff.mp ha).2 (hw a ha)]
  exact hfile

/-- What is on the way of a path in a part is so in the whole. -/
theorem onWay_iff (h : PartOf written fs fs') (hc : fs.canonical? p = some a) (x : Address) :
    fs'.OnWay p x ↔ fs.OnWay p x := by
  rw [OnWay, OnWay, h.trail_eq (canonical?_eq_some_iff.mp hc).1, h.canonical?_eq hc, hc]

/-- A path leads in the part where it leads in the whole if the part shows what is on
the way. -/
theorem of_shown (h : PartOf written fs fs') (hc : fs'.canonical? p = some a)
    (hl : ∀ x, fs'.OnWay p x → fs.root.sight? x ≠ none) :
    fs.canonical? p = some a ∧ fs.trail p = fs'.trail p := by
  obtain ⟨hf, -⟩ := canonical?_eq_some_iff.mp hc
  obtain ⟨hp, hwalk⟩ := follow_eq_ok_iff.mp hf
  have hway := Node.walks_iff.mpr ⟨rfl, hwalk⟩
  have hway' : fs.root.Walks _ _ _ _ _ _ :=
    hway.congr fun x hx => (h.sight_eq x (hl x (Or.inl hx))).symm
  rw [h.current_eq] at hway'
  have hf' := follow_eq_ok_iff.mpr ⟨hp, hway'.eq.2⟩
  refine ⟨canonical?_eq_some_iff.mpr ⟨hf', hl a (Or.inr hc)⟩, ?_⟩
  rw [trail, trail, h.current_eq]
  exact hway'.eq.1

end PartOf

end JavaEntities.FileSystem
