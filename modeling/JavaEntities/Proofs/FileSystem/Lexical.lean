import JavaEntities.Proofs.FileSystem.Everywhere
import JavaEntities.Proofs.Path.Order

/-!
# Ways without links

In a tree without links a path leads where its spelling says, if it leads anywhere: to its
lexical address, `lexical`, which is that of its components with each step up taking back
the step before it (`lexical_of_reached`). A way that ends at a missing name would have
gone on to that address (`lexical_of_absent`).

A path without `..` only looks at addresses above its lexical one and at that address
itself (`Advances.prefix_of_mem`). So where it leads depends on nothing else
(`follow_eq_of_above`).
-/

namespace JavaEntities.FileSystem

/-! ## Addresses by spelling -/

/-- The address that a segment leads to from another one if no name is a link. -/
def stepTo (a : Address) (s : RawText) : Address :=
  if s = "" ∨ s = "." then a
  else if s = ".." then a.dropLast
  else a ++ [s]

/-- The address that segments lead to if no name is a link. -/
def along (a : Address) (segs : List RawText) : Address :=
  segs.foldl stepTo a

/-- The address that a path would lead to by its spelling: that of its components made
absolute. -/
def lexical (fs : FileSystem) (p : Path) : Address :=
  fold (if p.isAbsolute then p.components
    else .root :: fs.current.map Component.name ++ p.components)

section Along

variable {a : Address} {s : RawText} {segs : List RawText}

theorem stepTo_of_stay (hs : s = "" ∨ s = ".") : stepTo a s = a :=
  if_pos hs

/-- A name leads to the entry that bears it. -/
theorem stepTo_of_isName (hs : IsName s) : stepTo a s = a ++ [s] := by
  rw [stepTo, if_neg hs.not_stay, if_neg hs.ne_up]

/-- Segments lead on from where those before them lead. -/
theorem along_append (a : Address) (segs segs' : List RawText) :
    along a (segs ++ segs') = along (along a segs) segs' :=
  List.foldl_append

theorem along_cons (a : Address) (s : RawText) (segs : List RawText) :
    along a (s :: segs) = along (stepTo a s) segs :=
  rfl

/-- Noise leads nowhere. -/
theorem along_plain (a : Address) (segs : List RawText) : along a (plain segs) = along a segs := by
  induction segs generalizing a with
  | nil => rfl
  | cons s rest ih =>
    by_cases hs : s = "" ∨ s = "."
    · rw [plain_cons_of_noise hs, along_cons, stepTo_of_stay hs]
      exact ih a
    · rw [plain_cons hs, along_cons, along_cons]
      exact ih (stepTo a s)

/-- Without steps up, an address goes on with the names one after the other. -/
theorem along_of_no_up (h : (".." : RawText) ∉ segs) : along a segs = a ++ plain segs := by
  induction segs generalizing a with
  | nil => exact (List.append_nil a).symm
  | cons s rest ih =>
    have hrest : (".." : RawText) ∉ rest := fun hmem => h (List.mem_cons_of_mem s hmem)
    by_cases hs : s = "" ∨ s = "."
    · rw [plain_cons_of_noise hs, along_cons, stepTo_of_stay hs]
      exact ih hrest
    · have hup : s ≠ ".." := by
        rintro rfl
        exact h (List.mem_cons_self ..)
      rw [plain_cons hs, along_cons, stepTo, if_neg hs, if_neg hup, ih hrest, List.append_assoc]
      rfl

/-- Without a step up, segments lead downwards. -/
theorem prefix_along (a : Address) (h : (".." : RawText) ∉ segs) : a <+: along a segs := by
  rw [along_of_no_up h]
  exact List.prefix_append a _

/-- A separator at the end leads nowhere. -/
theorem along_of_atEnd {rest : List RawText} (h : atEnd rest = true) : along a rest = a := by
  have hcases : rest = [] ∨ rest = [("" : RawText)] := by simpa [atEnd] using h
  rcases hcases with rfl | rfl
  · rfl
  · rfl

/-- The names of an address that segments lead to can stand in a path. -/
theorem isFileName_of_mem_along (ha : ∀ n ∈ a, IsFileName n) (hsegs : ∀ s ∈ segs, slash ∉ s.toList)
    {n : RawText} (h : n ∈ along a segs) : IsFileName n := by
  induction segs generalizing a with
  | nil => exact ha n h
  | cons s rest ih =>
    refine ih ?_ (fun s hs => hsegs s (List.mem_cons_of_mem _ hs)) h
    intro m hm
    unfold stepTo at hm
    split at hm
    · exact ha m hm
    · next hstay =>
      split at hm
      · exact ha m (List.dropLast_subset _ hm)
      · next hup =>
        rcases List.mem_append.mp hm with hm | hm
        · exact ha m hm
        · rw [List.mem_singleton.mp hm]
          exact ⟨⟨fun he => hstay (.inl he), fun he => hstay (.inr he), hup⟩,
            hsegs s (List.mem_cons_self ..)⟩

end Along

variable {fs fs' : FileSystem} {p q : Path}

/-! ## Components and segments -/

/-- The step of a component. -/
theorem fold_append_steps (components : List Component) {steps : List Component}
    (h : ∀ c ∈ steps, c.IsStep) :
    fold (components ++ steps) = along (fold components) (steps.map Component.segment) := by
  induction steps generalizing components with
  | nil => rw [List.append_nil]; rfl
  | cons c rest ih =>
    have hrest := ih (components ++ [c]) fun c hc => h c (List.mem_cons_of_mem _ hc)
    have hc := h c (List.mem_cons_self ..)
    have hstep : fold (components ++ [c]) = stepTo (fold components) c.segment := by
      unfold fold
      rw [List.foldl_append]
      cases c with
      | root => exact hc.elim
      | here => exact hc.elim
      | up => rfl
      | name n => exact (stepTo_of_isName (IsFileName.toIsName hc)).symm
    rw [List.append_assoc] at hrest
    rw [List.map_cons, along_cons, ← hstep]
    exact hrest

/-- The names of an address lead to it from the root. -/
theorem fold_names (a : Address) : fold (.root :: a.map Component.name) = a := by
  induction a using List.reverseRecOn with
  | nil => rfl
  | append_singleton front n ih =>
    unfold fold at ih ⊢
    rw [List.map_append, ← List.cons_append, List.foldl_append, ih]
    rfl

/-- The lexical address of a path is the one that its segments lead to. -/
theorem lexical_eq_along (fs : FileSystem) (p : Path) :
    fs.lexical p = along (origin fs.current p.text) (segments p.text) := by
  obtain ⟨lead, steps, htakes⟩ := p.takes
  have hfold := fun components => fold_append_steps components htakes.isStep
  rw [← along_plain, htakes.plain_segments, lexical, htakes.components_eq]
  by_cases habs : p.isAbsolute = true
  · have horigin : origin fs.current p.text = [] := if_pos (of_decide_eq_true habs)
    rw [if_pos habs, hfold, htakes.root_iff.mpr habs, horigin]
    rfl
  · have horigin : origin fs.current p.text = fs.current :=
      if_neg fun h => habs (decide_eq_true h)
    have hlead : fold (.root :: fs.current.map Component.name ++ lead) = fs.current := by
      rcases htakes.lead_cases with rfl | rfl | rfl
      · rw [List.append_nil]
        exact fold_names fs.current
      · exact absurd (htakes.root_iff.mp rfl) habs
      · show fold ((.root :: fs.current.map Component.name) ++ [.here]) = _
        rw [fold, List.foldl_append]
        exact fold_names fs.current
    rw [if_neg habs, ← List.append_assoc, hfold, hlead, horigin]

/-- Only the empty path cannot be made absolute. -/
theorem absolute_eq_error {cause : IoCause} (h : fs.absolute p = .error cause) :
    p.text = "" ∧ cause = .emptyPath := by
  unfold absolute at h
  split at h
  · next hempty => exact ⟨hempty, (Except.error.inj h).symm⟩
  · split at h
    · exact nomatch h
    · exact nomatch h

theorem ne_empty_of_absolute {components : List Component} (h : fs.absolute p = .ok components) :
    p.text ≠ "" := by
  unfold absolute at h
  split at h
  · exact nomatch h
  · next hempty => exact hempty

/-- The components of an absolute path lead to the address that the path spells. -/
theorem fold_absolute {components : List Component} (h : fs.absolute p = .ok components) :
    fold components = fs.lexical p := by
  unfold absolute at h
  split at h
  · exact nomatch h
  · split at h
    · next habs => rw [lexical, if_pos habs, Except.ok.inj h]
    · next habs => rw [lexical, if_neg habs, Except.ok.inj h]

/-- What a path spells depends on the current directory and nothing else of the tree. -/
theorem lexical_congr (h : fs'.current = fs.current) (p : Path) : fs'.lexical p = fs.lexical p := by
  rw [lexical, lexical, h]

/-- The lexical address of an entry is that of the directory and the name. -/
theorem lexical_join {n : RawText} (hn : IsFileName n) (hp : p.text ≠ "") :
    fs.lexical (p.join n) = fs.lexical p ++ [n] := by
  obtain ⟨hsegs, habs⟩ := join_spec hn hp
  have hnamed : along (origin fs.current p.text) (named p.text) = fs.lexical p := by
    rw [lexical_eq_along, ← along_plain, ← along_plain _ (segments p.text),
      plain_segments_eq_plain_named]
  rw [lexical_eq_along, hsegs, origin_eq fs.current habs, along_append, hnamed]
  exact stepTo_of_isName hn.toIsName

/-- A path that is not empty and does not stand for the root is one that can be made. -/
theorem chain_ne_nil (hne : p.text ≠ "") (hroot : fs.lexical p ≠ []) : chain p ≠ [] := by
  obtain ⟨lead, steps, htakes⟩ := p.takes
  suffices h : ¬ p.components.length < leastComponents p by
    show (if p.components.length < leastComponents p then [] else _) ≠ []
    rw [if_neg h]
    exact List.cons_ne_nil _ _
  have hcomponents := List.length_pos_iff.mpr (Path.components_ne_nil hne)
  unfold leastComponents
  by_cases habs : p.isAbsolute = true
  · have hlead := htakes.root_iff.mpr habs
    have hsteps : steps ≠ [] := by
      rintro rfl
      rw [lexical, if_pos habs, htakes.components_eq, hlead] at hroot
      exact hroot rfl
    have hlength := List.length_pos_iff.mpr hsteps
    rw [if_pos habs, htakes.components_eq, hlead, List.length_append, List.length_singleton]
    omega
  · rw [if_neg habs]
    omega

/-- The names of a lexical address can stand in a path if those of the current directory can. -/
theorem isFileName_of_mem_lexical (hcurrent : ∀ n ∈ fs.current, IsFileName n) {n : RawText}
    (h : n ∈ fs.lexical p) : IsFileName n := by
  have hstart : ∀ n ∈ origin fs.current p.text, IsFileName n := by
    unfold origin
    split
    · exact fun _ hn => absurd hn List.not_mem_nil
    · exact hcurrent
  rw [lexical_eq_along] at h
  exact isFileName_of_mem_along hstart (fun s hs => no_separator_of_mem_segments hs) h

/-- The absolute path of an address has it as its lexical one. -/
theorem lexical_pathOf {a : Address} (ha : ∀ n ∈ a, IsFileName n) : fs.lexical (pathOf a) = a := by
  have hsteps : ∀ c ∈ a.map Component.name, c.IsStep := by
    intro c hc
    obtain ⟨n, hn, rfl⟩ := List.mem_map.mp hc
    exact ha n hn
  have hpath : pathOf a = Path.respell ([.root] ++ a.map Component.name) := rfl
  obtain ⟨hplain, habs⟩ := respell_spec (.inr (.inl rfl)) hsteps
  rw [← hpath] at hplain habs
  have horigin : origin fs.current (pathOf a).text = [] :=
    if_pos (of_decide_eq_true (habs.mpr rfl))
  calc fs.lexical (pathOf a)
    _ = along [] (plain (segments (pathOf a).text)) := by
      rw [lexical_eq_along, horigin, along_plain]
    _ = fold ([.root] ++ a.map Component.name) := by
      rw [hplain, fold_append_steps [.root] hsteps]
      rfl
    _ = a := fold_names a

/-- A path has a step up among its segments only if it has one among its components. -/
theorem up_not_mem_segments (h : Component.up ∉ p.components) :
    (".." : RawText) ∉ segments p.text := by
  obtain ⟨lead, steps, htakes⟩ := p.takes
  intro hmem
  have hplain : (".." : RawText) ∈ plain (segments p.text) := List.mem_filter.mpr ⟨hmem, by decide⟩
  rw [htakes.plain_segments] at hplain
  obtain ⟨c, hc, hsegment⟩ := List.mem_map.mp hplain
  have hstep := htakes.isStep c hc
  cases c with
  | root => exact hstep.elim
  | here => exact hstep.elim
  | up =>
    rw [htakes.components_eq] at h
    exact h (List.mem_append_right lead hc)
  | name n => exact (IsFileName.toIsName hstep).ne_up hsegment

/-! ## Ways -/

namespace Node

variable {t t' : Node} {a b d x : Address} {segs rest : List RawText} {n : RawText}
  {l : List Address} {stop : Stop}

/-- A way that meets no link ends at the address that its segments lead to. -/
theorem Advances.reached_along (h : t.Advances a segs l (.reached b)) : b = along a segs := by
  generalize hstop : Stop.reached b = stop at h
  induction h with
  | done a => exact Stop.reached.inj hstop
  | stay hs h ih => rw [along_cons, stepTo_of_stay hs]; exact ih hstop
  | up h ih => exact ih hstop
  | tooLong hs hn => exact nomatch hstop
  | absent hs hn hx => exact nomatch hstop
  | enter hs hn hx h ih => rw [along_cons, stepTo_of_isName hs]; exact ih hstop
  | file hs hn hx => rw [along_cons, stepTo_of_isName hs]; exact Stop.reached.inj hstop
  | blocked hs hn hx hr => exact nomatch hstop
  | link hs hn hx => exact nomatch hstop

/-- A way that ends at a missing name would have gone on from there. -/
theorem Advances.absent_along (h : t.Advances a segs l (.absent d n rest)) :
    along a segs = along (d ++ [n]) rest := by
  generalize hstop : Stop.absent d n rest = stop at h
  induction h with
  | done a => exact nomatch hstop
  | stay hs h ih => rw [along_cons, stepTo_of_stay hs]; exact ih hstop
  | up h ih => exact ih hstop
  | tooLong hs hn => exact nomatch hstop
  | absent hs hn hx =>
    obtain ⟨rfl, rfl, rfl⟩ := Stop.absent.inj hstop
    rw [along_cons, stepTo_of_isName hs]
  | enter hs hn hx h ih => rw [along_cons, stepTo_of_isName hs]; exact ih hstop
  | file hs hn hx => exact nomatch hstop
  | blocked hs hn hx hr => exact nomatch hstop
  | link hs hn hx => exact nomatch hstop

/-- Without steps up, a way looks at nothing but what is above the address that its segments lead
to, and at that. -/
theorem Advances.prefix_of_mem (h : t.Advances a segs l stop) (hup : (".." : RawText) ∉ segs)
    (hx : x ∈ l) : x <+: along a segs := by
  have htail : ∀ {s : RawText} {rest : List RawText},
      (".." : RawText) ∉ s :: rest → (".." : RawText) ∉ rest :=
    fun hmem hrest => hmem (List.mem_cons_of_mem _ hrest)
  induction h with
  | done a => exact absurd hx List.not_mem_nil
  | stay hs h ih => rw [along_cons, stepTo_of_stay hs]; exact ih (htail hup) hx
  | up h ih => exact absurd (List.mem_cons_self ..) hup
  | tooLong hs hn => exact absurd hx List.not_mem_nil
  | absent hs hn hnone =>
    rw [List.mem_singleton.mp hx, along_cons, stepTo_of_isName hs]
    exact prefix_along _ (htail hup)
  | enter hs hn hdir h ih =>
    rw [along_cons, stepTo_of_isName hs]
    rcases List.mem_cons.mp hx with rfl | hx
    · exact prefix_along _ (htail hup)
    · exact ih (htail hup) hx
  | file hs hn hfile =>
    rw [List.mem_singleton.mp hx, along_cons, stepTo_of_isName hs]
    exact prefix_along _ (htail hup)
  | blocked hs hn hfile hr =>
    rw [List.mem_singleton.mp hx, along_cons, stepTo_of_isName hs]
    exact prefix_along _ (htail hup)
  | link hs hn hlink =>
    rw [List.mem_singleton.mp hx, along_cons, stepTo_of_isName hs]
    exact prefix_along _ (htail hup)

/-- No link is seen in a tree without links. -/
theorem LinkFree.sight?_ne_link (h : t.LinkFree) (x : Address) (target : RawText) :
    t.sight? x ≠ some (.link target) := by
  intro hlink
  obtain ⟨n, hn, hsight⟩ := Option.map_eq_some_iff.mp hlink
  cases n with
  | file bytes => exact nomatch hsight
  | link target' => exact h x _ hn target' rfl
  | dir entries => exact nomatch hsight

/-- In a tree without links the first way is all there is to go. -/
theorem LinkFree.walk_eq (h : t.LinkFree) (follow : List RawText → Bool) (links : Nat) (a : Address)
    (segs : List RawText) : t.walk follow links a segs = t.advance a segs := by
  refine walk_of_not_link ?_ links
  intro d n target rest hstop
  have hway := t.advances a segs
  rw [hstop] at hway
  exact h.sight?_ne_link (d ++ [n]) target hway.link_look.1

end Node

/-! ## Paths -/

section LinkFree

variable (hlinks : fs.root.LinkFree) {links : List RawText → Bool}

include hlinks

/-- The way that a path describes in a tree without links. -/
theorem advances_of_follow {stop : Stop} (hf : fs.follow links p = .ok stop) :
    fs.root.Advances (origin fs.current p.text) (segments p.text)
      (fs.root.looks (origin fs.current p.text) (segments p.text)) stop := by
  obtain ⟨-, hwalk⟩ := follow_eq_ok_iff.mp hf
  rw [hlinks.walk_eq] at hwalk
  rw [← hwalk]
  exact fs.root.advances _ _

/-- It makes no difference which links are followed where there are none. -/
theorem follow_eq_of_linkFree (links links' : List RawText → Bool) (p : Path) :
    fs.follow links p = fs.follow links' p := by
  unfold follow
  rw [hlinks.walk_eq, hlinks.walk_eq]

/-- What a path leads to has its lexical address. -/
theorem lexical_of_reached {a : Address} (hf : fs.follow links p = .ok (.reached a)) :
    a = fs.lexical p := by
  rw [lexical_eq_along]
  exact (advances_of_follow hlinks hf).reached_along

/-- Without links, a path leads to the address that it spells. -/
theorem lexical_of_canonical? {a : Address} (hc : fs.canonical? p = some a) : a = fs.lexical p :=
  lexical_of_reached hlinks (canonical?_eq_some_iff.mp hc).1

/-- Without links, a way ends at a missing name on what it spells. -/
theorem lexical_of_absent {d : Address} {n : RawText} {rest : List RawText}
    (hf : fs.follow links p = .ok (.absent d n rest)) :
    fs.lexical p = along (d ++ [n]) rest := by
  rw [lexical_eq_along]
  exact (advances_of_follow hlinks hf).absent_along

/-- Where a path without steps up leads to depends on nothing but what is at its lexical address
and above it. -/
theorem follow_eq_of_above (hup : Component.up ∉ p.components) (hcurrent : fs'.current = fs.current)
    (habove : ∀ x, x <+: fs.lexical p → fs'.root.sight? x = fs.root.sight? x) {a : Address}
    (hf : fs.follow links p = .ok (.reached a)) : fs'.follow links p = .ok (.reached a) := by
  have hway := advances_of_follow hlinks hf
  rw [lexical_eq_along] at habove
  have hway' := hway.congr fun x hx =>
    habove x (hway.prefix_of_mem (up_not_mem_segments hup) hx)
  refine follow_eq_ok_iff.mpr ⟨(follow_eq_ok_iff.mp hf).1, ?_⟩
  rw [hcurrent, Node.walk_of_not_link]
  · exact hway'.eq.2
  · intro d n target rest hstop
    rw [hway'.eq.2] at hstop
    exact nomatch hstop

/-- A file is found again by a path without steps up if it is still there, below the same
directories. -/
theorem bytes?_of_above (hup : Component.up ∉ p.components) (hcurrent : fs'.current = fs.current)
    (habove : ∀ x, x <+: fs.lexical p → x ≠ fs.lexical p →
      fs'.root.sight? x = fs.root.sight? x)
    (hfile : fs'.root.fileAt? (fs.lexical p) = fs.root.fileAt? (fs.lexical p))
    {bytes : ByteArray} (hb : fs.bytes? p = some bytes) : fs'.bytes? p = some bytes := by
  obtain ⟨b, hb, hbytes⟩ := bytes?_eq_some_iff.mp hb
  obtain rfl := lexical_of_canonical? hlinks hb
  rw [← hfile] at hbytes
  have hsight := Node.sight?_of_fileAt? hbytes
  have hsame : ∀ x, x <+: fs.lexical p → fs'.root.sight? x = fs.root.sight? x := by
    intro x hx
    by_cases hend : x = fs.lexical p
    · rw [hend, hsight]
      rw [hfile] at hbytes
      exact (Node.sight?_of_fileAt? hbytes).symm
    · exact habove x hx hend
  have hf := follow_eq_of_above hlinks hup hcurrent hsame (canonical?_eq_some_iff.mp hb).1
  refine bytes?_eq_some_iff.mpr ⟨_, canonical?_eq_some_iff.mpr ⟨hf, ?_⟩, hbytes⟩
  rw [hsight]
  exact Option.some_ne_none _

end LinkFree

/-- A path without steps up leads to the same file in two trees without links if the same bytes are
at its lexical address, below the same directories. -/
theorem bytes?_eq_of_above (hlinks : fs.root.LinkFree) (hlinks' : fs'.root.LinkFree)
    (hup : Component.up ∉ p.components) (hcurrent : fs'.current = fs.current)
    (habove : ∀ x, x <+: fs.lexical p → x ≠ fs.lexical p →
      fs'.root.sight? x = fs.root.sight? x)
    (hfile : fs'.root.fileAt? (fs.lexical p) = fs.root.fileAt? (fs.lexical p)) :
    fs'.bytes? p = fs.bytes? p := by
  refine Option.ext fun bytes => ⟨?_, bytes?_of_above hlinks hup hcurrent habove hfile⟩
  rw [← lexical_congr hcurrent p] at habove hfile
  exact bytes?_of_above hlinks' hup hcurrent.symm (fun x hx hne => (habove x hx hne).symm)
    hfile.symm

end JavaEntities.FileSystem
