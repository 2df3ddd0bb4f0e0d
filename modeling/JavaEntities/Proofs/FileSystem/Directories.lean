import Mathlib.Data.List.Chain
import Mathlib.Data.List.Range
import JavaEntities.Proofs.FileSystem.Contents
import JavaEntities.Proofs.Path.Steps

/-!
# Making and removing directories

A directory that was made is empty and its path leads to it (`locate_of_makeDir`). A
removal that succeeds leaves a path that leads nowhere (`not_exists_of_removeAll`).

Making a directory with those above it succeeds also when there is a directory already.
So after it succeeded for a path that led nowhere, the path may lead to a directory that
was there before, by a `..` that climbs out of a directory which had to be made first.
Where no `..` does, the path leads to an empty directory (`locate_of_makeDirs`).
-/

namespace JavaEntities.FileSystem

variable {fs fs' : FileSystem} {p q : Path}

/-! ## One directory -/

/-- A name leads to a directory that bears it, also with a separator behind it. -/
theorem walks_of_atEnd {t : Node} {follow : List RawText → Bool} {a : Address} {n : RawText}
    {rest : List RawText} (links : Nat) (hn : IsName n) (hlength : n.size ≤ nameLimit)
    (hrest : atEnd rest = true) (hx : t.sight? (a ++ [n]) = some .dir) :
    ∃ l, t.Walks follow links a (n :: rest) l (.reached (a ++ [n])) := by
  have hcases : rest = [] ∨ rest = [("" : RawText)] := by simpa [atEnd] using hrest
  rcases hcases with rfl | rfl
  · have hway := Node.Advances.enter hn hlength hx (.done _)
    exact ⟨_, hway.walks rfl follow links⟩
  · have hway := Node.Advances.enter hn hlength hx (.stay (.inl rfl) (.done _))
    exact ⟨_, hway.walks rfl follow links⟩

/-- A directory that was made is empty, and its path leads to it. -/
theorem locate_of_makeDir (h : fs.makeDir p = .ok fs') : ∃ a, fs'.locate p = .ok (a, .dir []) := by
  obtain ⟨d, n, rest, hf, hrest, hadd⟩ := makeDir_eq_ok h
  obtain ⟨hname, hlength, -⟩ := follow_absent_look hf
  obtain ⟨hnew, m, hm⟩ := follow_of_addEntry hf hadd Node.isLeaf_emptyDir
  have hsight := Node.sight?_eq_dir_iff.mpr ⟨[], hnew⟩
  obtain ⟨l, hl⟩ := walks_of_atEnd m hname hlength hrest hsight
  exact ⟨d ++ [n], locate_eq_ok_iff.mpr ⟨follow_all_of_reached (hm l _ hl), hnew⟩⟩

/-- A path leads to something if and only if it can be located. -/
theorem exists?_iff : fs.exists? p = true ↔ ∃ a n, fs.locate p = .ok (a, n) := by
  unfold exists?
  cases fs.locate p with
  | error c => simp [Except.isOk, Except.toBool]
  | ok r =>
    obtain ⟨a, n⟩ := r
    simp [Except.isOk, Except.toBool]

theorem exists?_of_isDir (h : fs.isDir p = true) : fs.exists? p = true := by
  unfold isDir at h
  split at h
  · next a n hlocate => exact exists?_iff.mpr ⟨a, n, hlocate⟩
  · exact nomatch h

theorem exists?_of_isFile (h : fs.isFile p = true) : fs.exists? p = true := by
  obtain ⟨bytes, hbytes⟩ := isFile_iff.mp h
  obtain ⟨a, hlocate⟩ := locate_eq_file_iff.mpr hbytes
  exact exists?_iff.mpr ⟨a, _, hlocate⟩

/-- What a path leads to, it reaches in any case, or it ends at a link. -/
theorem follow_of_exists (h : fs.exists? p = true) (links : List RawText → Bool) :
    (∃ a, fs.follow links p = .ok (.reached a)) ∨
      ∃ d n target rest, fs.follow links p = .ok (.link d n target rest) := by
  obtain ⟨a, node, hlocate⟩ := exists?_iff.mp h
  obtain ⟨hp, hwalk⟩ := follow_eq_ok_iff.mp (locate_eq_ok_iff.mp hlocate).1
  have hway := fs.root.walks links linkLimit (origin fs.current p.text) (segments p.text)
  by_cases hlink : ∃ d n target rest,
      fs.root.walk links linkLimit (origin fs.current p.text) (segments p.text)
        = .link d n target rest
  · obtain ⟨d, n, target, rest, hstop⟩ := hlink
    exact .inr ⟨d, n, target, rest, follow_eq_ok_iff.mpr ⟨hp, hstop⟩⟩
  · have hall := hway.follow_all fun d n target rest hstop => hlink ⟨d, n, target, rest, hstop⟩
    exact .inl ⟨a, follow_eq_ok_iff.mpr ⟨hp, hall.eq.2.symm.trans hwalk⟩⟩

/-- No directory is made where there is something. -/
theorem makeDir_of_exists (h : fs.exists? p = true) :
    fs.makeDir p = .error (.os .alreadyExists) := by
  unfold makeDir
  rcases follow_of_exists h (fun rest => !atEnd rest) with ⟨a, hf⟩ | ⟨d, n, target, rest, hf⟩
  · rw [hf]
  · rw [hf]

/-! ## Directories one above the other -/

/-- Whether a path leads on from another one by a name. -/
structure EntryOf (q p : Path) (n : RawText) : Prop where
  isName : IsName n
  isAbsolute_eq : p.isAbsolute = q.isAbsolute
  plain_eq : plain (segments p.text) = plain (segments q.text) ++ [n]

/-- Where a path starts is a matter of its first separator. -/
theorem origin_eq (a : Address) (h : p.isAbsolute = q.isAbsolute) :
    origin a p.text = origin a q.text := by
  unfold origin
  unfold Path.isAbsolute at h
  by_cases hp : p.text.toList.head? = some slash
  · rw [if_pos hp, if_pos (by simpa [hp] using h.symm)]
  · rw [if_neg hp, if_neg (by simpa [hp] using h.symm)]

theorem plain_plain (segs : List RawText) : plain (plain segs) = plain segs := by
  unfold plain
  rw [List.filter_filter]
  simp

/-- Spellings that differ by noise lead to the same directory. -/
theorem walk_eq_reached_of_locate {a : Address} {n : Node} (h : fs.locate p = .ok (a, n))
    (hn : n.isFile = false) {segs : List RawText} (hplain : plain (segments p.text) = plain segs) :
    fs.root.walk (fun _ => true) linkLimit (origin fs.current p.text) segs = .reached a := by
  obtain ⟨hf, ha⟩ := locate_eq_ok_iff.mp h
  refine Node.walk_eq_reached_of_plain_eq hplain (follow_eq_ok_iff.mp hf).2 ?_
  intro hfile
  obtain ⟨bytes, hbytes⟩ := Node.sight?_eq_file_iff.mp hfile
  rw [ha] at hbytes
  rw [Option.some.inj hbytes] at hn
  exact nomatch hn

/-- The way to a directory goes on to its entries. -/
theorem walks_entry {a : Address} {entries : List (RawText × Node)}
    (hq : fs.locate q = .ok (a, .dir entries)) (follow : List RawText → Bool) {n : RawText}
    (hfollow : ∀ rest, follow (rest ++ [n]) = true) {segs : List RawText}
    (hplain : plain (segments q.text) = plain segs) :
    ∃ m, ∀ l' stop, fs.root.Walks follow m a [n] l' stop →
      fs.root.walk follow linkLimit (origin fs.current q.text) (segs ++ [n]) = stop := by
  have hdir : fs.root.sight? a ≠ some .file := by
    rw [Node.sight?_eq_dir_iff.mpr ⟨entries, (locate_eq_ok_iff.mp hq).2⟩]
    exact fun he => nomatch he
  have hway := Node.walks_iff.mpr ⟨rfl, walk_eq_reached_of_locate hq rfl hplain⟩
  obtain ⟨m, hm⟩ := hway.append hdir fun rest _ => hfollow rest
  exact ⟨m, fun l' stop h => (hm l' stop h).eq.2⟩

/-- A path leads nowhere by the name of an entry that the directory does not have. -/
theorem not_exists_of_no_entry {a : Address} {n : RawText} {entries : List (RawText × Node)}
    (hq : fs.locate q = .ok (a, .dir entries)) (h : EntryOf q p n)
    (hmissing : entries.lookup n = none) : fs.exists? p = false := by
  rw [Bool.eq_false_iff]
  intro hexists
  obtain ⟨b, node, hp⟩ := exists?_iff.mp hexists
  have hb := (follow_eq_ok_iff.mp (locate_eq_ok_iff.mp hp).1).2
  rw [origin_eq fs.current h.isAbsolute_eq] at hb
  have hnone : fs.root.sight? (a ++ [n]) = none := by
    rw [Node.sight?_append, (locate_eq_ok_iff.mp hq).2, Option.bind_some, Node.sight?, Node.get?,
      Node.child?, hmissing]
    rfl
  have hsegs : plain (segments p.text) = plain (plain (segments q.text) ++ [n]) := by
    rw [h.plain_eq, plain_append, plain_plain, plain_cons h.isName.not_stay]
    rfl
  have hsame := fs.root.walk_plainRest_eq linkLimit (origin fs.current q.text) hsegs
  obtain ⟨m, hm⟩ := walks_entry hq (fun _ => true) (fun _ => rfl)
    (plain_plain (segments q.text)).symm
  -- The way by the entry ends at the missing name, or before it if the name is too long.
  by_cases hlength : n.size ≤ nameLimit
  · have hstop := hm _ _ (Node.Advances.walks (.absent h.isName hlength hnone) rfl _ m)
    rw [hb, hstop] at hsame
    cases hsame
  · have hlong := Nat.not_le.mp hlength
    have hstop := hm _ _ (Node.Advances.walks (.tooLong h.isName hlong) rfl _ m)
    rw [hb, hstop] at hsame
    cases hsame

/-! ## Directories that have to be made -/

/-- Whether the path before another one leads somewhere, or the other leads on from it by
a name. -/
def Climbs (fs : FileSystem) (p q : Path) : Prop :=
  fs.exists? q = true ∨ ∃ n, EntryOf q p n

/-- What has happened when a directory has been made with those above it. -/
theorem makeChain_eq_ok {above : List Path} (h : makeChain (p :: above) fs = (.ok (), fs')) :
    fs.makeDir p = .ok fs' ∨
      (fs.isDir p = true ∧ fs' = fs) ∨
      (fs.makeDir p = .error (.os .notFound) ∧ ∃ fs₁, makeChain above fs = (.ok (), fs₁) ∧
        (fs₁.makeDir p = .ok fs' ∨
          (fs₁.makeDir p = .error (.os .alreadyExists) ∧ fs₁.isDir p = true ∧ fs' = fs₁))) := by
  unfold makeChain at h
  split at h
  · next fs'' hmake =>
    left
    rw [hmake, (Prod.mk.inj h).2]
  · next hmake =>
    right; right
    refine ⟨hmake, ?_⟩
    split at h
    · cases h
    · next fs₁ habove =>
      refine ⟨fs₁, habove, ?_⟩
      split at h
      · next fs'' hmake' =>
        left
        rw [hmake', (Prod.mk.inj h).2]
      · next c hmake' =>
        by_cases hc : c = .os .alreadyExists ∧ fs₁.isDir p = true
        · rw [if_pos hc] at h
          right
          rw [hmake', hc.1]
          exact ⟨rfl, hc.2, (Prod.mk.inj h).2.symm⟩
        · rw [if_neg hc] at h
          cases h
  · next c hother hmake =>
    by_cases hc : c = .os .alreadyExists ∧ fs.isDir p = true
    · rw [if_pos hc] at h
      right; left
      exact ⟨hc.2, (Prod.mk.inj h).2.symm⟩
    · rw [if_neg hc] at h
      cases h

/-- Where a path and those above it lead on by names from the first that leads anywhere, the
path itself is made last, after some of those above it. -/
theorem makeDir_of_makeChain {above : List Path} (h : makeChain (p :: above) fs = (.ok (), fs'))
    (hchain : (p :: above).IsChain fs.Climbs) (hmissing : fs.exists? p = false) :
    ∃ fs₁, Relation.ReflTransGen (Makes above) fs fs₁ ∧ fs₁.makeDir p = .ok fs' := by
  -- The induction is on the paths above, up to the first that leads anywhere.
  induction above generalizing p fs' with
  | nil =>
    rcases makeChain_eq_ok h with hmake | ⟨hdir, -⟩ | ⟨hmake, fs₁, habove, hagain⟩
    · exact ⟨fs, .refl, hmake⟩
    · rw [exists?_of_isDir hdir] at hmissing
      exact nomatch hmissing
    · obtain rfl := (Prod.mk.inj habove).2
      rcases hagain with hmake' | ⟨hmake', -, -⟩
      · exact ⟨fs, .refl, hmake'⟩
      · rw [hmake] at hmake'
        exact nomatch hmake'
  | cons q rest ih =>
    obtain ⟨hclimbs, hrest⟩ := List.isChain_cons_cons.mp hchain
    rcases makeChain_eq_ok h with hmake | ⟨hdir, -⟩ | ⟨hmake, fs₁, habove, hagain⟩
    · exact ⟨fs, .refl, hmake⟩
    · rw [exists?_of_isDir hdir] at hmissing
      exact nomatch hmissing
    · have hmakes := makes_makeChain (q :: rest) fs
      rw [habove] at hmakes
      rcases hagain with hmake' | ⟨hmake', hdir', rfl⟩
      · exact ⟨fs₁, hmakes, hmake'⟩
      · by_cases hq : fs.exists? q = true
        · -- Nothing had to be made above, so the path cannot be there now.
          rcases makeChain_eq_ok habove with hmakeq | ⟨-, rfl⟩ | ⟨hmakeq, -⟩
          · rw [makeDir_of_exists hq] at hmakeq
            exact nomatch hmakeq
          · rw [hmake] at hmake'
            exact nomatch hmake'
          · rw [makeDir_of_exists hq] at hmakeq
            exact nomatch hmakeq
        · -- The directory above was made, so it is empty and has no entry under any name.
          obtain ⟨fs₂, -, hmakeq⟩ := ih habove hrest (by simpa using hq)
          obtain ⟨a, ha⟩ := locate_of_makeDir hmakeq
          obtain ⟨n, hentry⟩ := hclimbs.resolve_left hq
          have hnone := not_exists_of_no_entry ha hentry rfl
          rw [exists?_of_isDir hdir'] at hnone
          exact nomatch hnone

/-! ## Removing -/

/-- A path leads nowhere any more when something on its way is gone. -/
theorem not_exists_of_missing {written : Address → Prop} {x : Address}
    (h : PartOf written fs' fs) (hx : fs.OnWay p x) (hgone : fs'.root.sight? x = none) :
    fs'.exists? p = false := by
  rw [Bool.eq_false_iff]
  intro hexists
  obtain ⟨a, node, hlocate⟩ := exists?_iff.mp hexists
  obtain ⟨hf, ha⟩ := locate_eq_ok_iff.mp hlocate
  have hshown : fs'.root.sight? a ≠ none := by
    rw [ne_eq, Node.sight?_eq_none_iff, ha]
    exact Option.some_ne_none _
  have hc := canonical?_eq_some_iff.mpr ⟨hf, hshown⟩
  rcases (h.onWay_iff hc x).mp hx with htrail | hend
  · have hway := Node.walks_iff.mpr ⟨rfl, (follow_eq_ok_iff.mp hf).2⟩
    exact hway.shown htrail hgone
  · rw [hc] at hend
    rw [Option.some.inj hend] at hshown
    exact hshown hgone

/-- A directory that a path leads to is found when it is to be removed. -/
theorem removeDir_ne_notFound (h : fs.exists? p = true) :
    fs.removeDir p ≠ .error (.os .notFound) := by
  unfold removeDir
  rcases follow_of_exists h (fun rest => !atEnd rest) with ⟨a, hf⟩ | ⟨d, n, target, rest, hf⟩
  · rw [hf]
    dsimp only
    split
    · exact fun he => nomatch he
    · split
      · exact fun he => nomatch he
      · split
        · exact fun he => nomatch he
        · split
          · exact fun he => nomatch he
          · exact fun he => nomatch he
          · exact fun he => nomatch he
  · rw [hf]
    exact fun he => nomatch he

/-- A removal that succeeds leaves a path that leads nowhere. -/
theorem not_exists_of_removeAll (h : fs.removeAll p = (.ok (), fs')) : fs'.exists? p = false := by
  have hremoves := removes fs p
  rw [h] at hremoves
  cases hremoves with
  | @unlinked d n target rest hf =>
    have hway := Node.walks_iff.mpr ⟨rfl, (follow_eq_ok_iff.mp hf).2⟩
    refine not_exists_of_missing (partOf_dropEntry fs d n) (.inl hway.link_mem_trail.2) ?_
    rw [sight?_dropEntry, if_pos (List.prefix_refl _)]
  | @removed a _ hf ha hdrop =>
    obtain ⟨d, n, hf', hget, rfl⟩ := removeDir_eq_dropEntry hdrop
    have hshown : (fs.emptied a).root.sight? (d ++ [n]) ≠ none := by
      rw [ne_eq, Node.sight?_eq_none_iff, hget]
      exact Option.some_ne_none _
    refine not_exists_of_missing (partOf_dropEntry _ d n)
      (.inr (canonical?_eq_some_iff.mpr ⟨hf', hshown⟩)) ?_
    rw [sight?_dropEntry, if_pos (List.prefix_refl _)]
  | @cutOff a hf ha hcut =>
    -- The way went through the directory, and was not found any more once that was empty.
    rw [Bool.eq_false_iff]
    exact fun hexists => removeDir_ne_notFound hexists hcut

/-! ## A directory with those above it -/

/-- Whether every `..` of a path, but one at the start, climbs out of a directory that is
there. -/
def ClimbsOut (fs : FileSystem) (p : Path) : Prop :=
  ∀ above, above ≠ [] → above ++ [Component.up] <+: p.components →
    fs.exists? (Path.respell above) = true

/-- A path without `..` does not climb. -/
theorem climbsOut_of_no_up (h : Component.up ∉ p.components) : fs.ClimbsOut p := by
  intro above _ hbelow
  exact absurd (hbelow.subset (List.mem_append_right _ (List.mem_singleton_self _))) h

/-- The least number of components of a path that can be made. -/
def leastComponents (p : Path) : Nat :=
  if p.isAbsolute then 2 else 1

/-- The paths above a path, if there is a directory to be made at it. -/
theorem chain_eq (hnames : chain p ≠ []) :
    leastComponents p ≤ p.components.length ∧
      chain p = p :: (List.range (p.components.length - leastComponents p)).map fun i =>
        Path.respell (p.components.take (p.components.length - 1 - i)) := by
  have hchain : chain p = if p.components.length < leastComponents p then [] else
      p :: (List.range (p.components.length - leastComponents p)).map fun i =>
        Path.respell (p.components.take (p.components.length - 1 - i)) := rfl
  rw [hchain] at hnames ⊢
  by_cases hlong : p.components.length < leastComponents p
  · rw [if_pos hlong] at hnames
    exact absurd rfl hnames
  · rw [if_neg hlong]
    exact ⟨Nat.not_lt.mp hlong, rfl⟩

section Chain

variable {lead steps : List Component}

theorem leastComponents_pos (p : Path) : 1 ≤ leastComponents p := by
  unfold leastComponents
  split
  · exact Nat.le_succ 1
  · exact Nat.le_refl 1

/-- The components of a path above another one always cover the start and are not all of its
steps. -/
theorem take_components (h : p.Takes lead steps) {i : Nat}
    (hi : i < p.components.length - leastComponents p) :
    p.components.take (p.components.length - 1 - i) = lead ++ steps.take (steps.length - 1 - i) ∧
      lead ++ steps.take (steps.length - 1 - i) ≠ [] ∧ i < steps.length := by
  have hlead := h.length_lead
  have hleast := leastComponents_pos p
  have hlength : p.components.length = lead.length + steps.length := by
    rw [h.components_eq, List.length_append]
  have htake : p.components.take (p.components.length - 1 - i)
      = lead ++ steps.take (steps.length - 1 - i) := by
    rw [hlength] at hi ⊢
    rw [h.components_eq, List.take_append, List.take_of_length_le (by omega)]
    congr 2
    omega
  refine ⟨htake, ?_, by omega⟩
  intro he
  rw [← htake] at he
  have hzero := congrArg List.length he
  rw [List.length_take, List.length_nil] at hzero
  omega

/-- A path over the first steps of another one climbs from the path with one step less, or leads
on from it by a name. -/
theorem climbs_take (h : p.Takes lead steps) (hclimbs : fs.ClimbsOut p) {k : Nat}
    (hk : k < steps.length)
    (hplain : plain (segments q.text) = (steps.take (k + 1)).map Component.segment)
    (hq : q.isAbsolute = p.isAbsolute) (hne : lead ++ steps.take k ≠ []) :
    fs.Climbs q (Path.respell (lead ++ steps.take k)) := by
  have htaken : ∀ c ∈ steps.take k, c.IsStep := fun c hc => h.isStep c (List.mem_of_mem_take hc)
  obtain ⟨hplain', habsolute'⟩ := respell_spec h.lead_cases htaken
  have hlast : steps.take (k + 1) = steps.take k ++ [steps[k]] :=
    List.take_succ_eq_append_getElem hk
  have hstep := h.isStep _ (List.getElem_mem hk)
  cases hc : steps[k] with
  | root => rw [hc] at hstep; exact hstep.elim
  | here => rw [hc] at hstep; exact hstep.elim
  | up =>
    -- The step up climbs out of what the path with one step less leads to.
    left
    apply hclimbs _ hne
    rw [h.components_eq, List.append_assoc, List.prefix_append_right_inj, ← hc, ← hlast]
    exact List.take_prefix ..
  | name n =>
    right
    rw [hc] at hstep
    refine ⟨n, IsFileName.toIsName hstep, ?_, ?_⟩
    · rw [hq, Bool.eq_iff_iff, ← h.root_iff, habsolute']
    · rw [hplain, hlast, hc, List.map_append, hplain']
      rfl

/-- The paths of a chain climb or lead on by names. -/
theorem isChain_chain (hnames : chain p ≠ []) (hclimbs : fs.ClimbsOut p) :
    (chain p).IsChain fs.Climbs := by
  obtain ⟨-, hchain⟩ := chain_eq hnames
  obtain ⟨lead, steps, htakes⟩ := p.takes
  rw [hchain, List.isChain_cons]
  constructor
  · -- The path itself is over all of its steps, as it is spelled.
    intro y hy
    cases hcount : p.components.length - leastComponents p with
    | zero => rw [hcount] at hy; exact nomatch hy
    | succ m =>
      rw [hcount, List.range_succ_eq_map] at hy
      have h₀ : 0 < p.components.length - leastComponents p := by omega
      have hfirst : y = Path.respell (p.components.take (p.components.length - 1 - 0)) := by
        simpa using hy.symm
      obtain ⟨htake, hne, hi⟩ := take_components htakes h₀
      have hk : steps.length - 1 - 0 < steps.length := by omega
      rw [hfirst, htake]
      refine climbs_take htakes hclimbs hk ?_ rfl hne
      rw [htakes.plain_segments, List.take_of_length_le (by omega)]
  · -- Each path after it is the plain spelling of one step less than the one before.
    rw [List.isChain_map, List.isChain_range]
    intro i hi
    have hi₀ : i < p.components.length - leastComponents p := by omega
    have hi₁ : i.succ < p.components.length - leastComponents p := by omega
    obtain ⟨htake, -, -⟩ := take_components htakes hi₀
    obtain ⟨htake', hne', hlast⟩ := take_components htakes hi₁
    have hk : steps.length - 1 - i.succ < steps.length := by omega
    rw [htake, htake']
    have htaken : ∀ c ∈ steps.take (steps.length - 1 - i), c.IsStep :=
      fun c hc => htakes.isStep c (List.mem_of_mem_take hc)
    obtain ⟨hplain, habsolute⟩ := respell_spec htakes.lead_cases htaken
    refine climbs_take htakes hclimbs hk ?_ ?_ hne'
    · rw [hplain]
      congr 2
      omega
    · rw [Bool.eq_iff_iff, habsolute, htakes.root_iff]

end Chain

/-- Making a directory with those above it comes to making the directory itself last, at a path
that led nowhere, if no step up of the path climbs out of a directory that has to be made. -/
theorem makeDir_of_makeDirs (h : fs.makeDirs p = (.ok (), fs')) (hmissing : fs.exists? p = false)
    (hnames : chain p ≠ []) (hclimbs : fs.ClimbsOut p) :
    ∃ fs₁, Relation.ReflTransGen (Makes (chain p)) fs fs₁ ∧ fs₁.makeDir p = .ok fs' := by
  have hchain := isChain_chain hnames hclimbs
  unfold makeDirs at h
  rw [(chain_eq hnames).2] at h hchain ⊢
  obtain ⟨fs₁, hmakes, hmake⟩ := makeDir_of_makeChain h hchain hmissing
  exact ⟨fs₁, Relation.ReflTransGen.mono (Makes.cons p) _ _ hmakes, hmake⟩

/-- **Making a directory with those above it makes an empty directory** at a path that led
nowhere, if no step up of the path climbs out of a directory that has to be made. -/
theorem locate_of_makeDirs (h : fs.makeDirs p = (.ok (), fs')) (hmissing : fs.exists? p = false)
    (hnames : chain p ≠ []) (hclimbs : fs.ClimbsOut p) : ∃ a, fs'.locate p = .ok (a, .dir []) := by
  obtain ⟨fs₁, -, hmake⟩ := makeDir_of_makeDirs h hmissing hnames hclimbs
  exact locate_of_makeDir hmake

end JavaEntities.FileSystem
