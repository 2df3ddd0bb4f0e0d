import JavaEntities.Path
import JavaEntities.Proofs.FileSystem.Onward
import JavaEntities.Proofs.FileSystem.Segments

/-!
# Steps of a path

A path is walked by its segments and taken apart by its components. But for noise the
segments are the steps of the components: the names, and `..` for a step up
(`plain_segments`). The plain spelling of components that come first in a path keeps
their steps and where they start (`respell_spec`), and the path of an entry of a directory
has one step more (`join_spec`).
-/

namespace JavaEntities

open Text FileSystem

/-- Whether a text can be the name of an entry in a path. -/
structure IsFileName (s : RawText) : Prop extends IsName s where
  no_separator : slash ∉ s.toList

instance (s : RawText) : Decidable (IsFileName s) :=
  decidable_of_iff (s ≠ "" ∧ s ≠ "." ∧ s ≠ ".." ∧ slash ∉ s.toList)
    ⟨fun h => ⟨⟨h.1, h.2.1, h.2.2.1⟩, h.2.2.2⟩,
      fun h => ⟨h.ne_empty, h.ne_here, h.ne_up, h.no_separator⟩⟩

namespace Component

/-- The segment of a component that takes a step. -/
def step? : Component → Option RawText
  | up => some ".."
  | name n => some n
  | _ => none

/-- Whether a component takes a step, by a name that can stand in a path. -/
def IsStep : Component → Prop
  | up => True
  | name n => IsFileName n
  | _ => False

theorem bind_step?_ofSegment (s : List UInt8) :
    (ofSegment s).bind step? = if s = [] ∨ s = [dot] then none else some (RawText.ofList s) := by
  unfold ofSegment
  by_cases hnoise : s = [] ∨ s = [dot]
  · rw [if_pos hnoise, if_pos hnoise]
    rfl
  · rw [if_neg hnoise, if_neg hnoise]
    by_cases hup : s = [dot, dot]
    · rw [if_pos hup, hup]
      rfl
    · rw [if_neg hup]
      rfl

/-- A segment without separators stands for a step. -/
theorem isStep_of_ofSegment {s : List UInt8} {c : Component} (hs : slash ∉ s)
    (h : ofSegment s = some c) : c.IsStep := by
  unfold ofSegment at h
  split at h
  · exact nomatch h
  · next hnoise =>
    rw [not_or] at hnoise
    split at h
    · rw [← Option.some.inj h]
      trivial
    · next hup =>
      rw [← Option.some.inj h]
      have hback : ∀ text, RawText.ofList s = text → s = text.toList := by
        intro text he
        rw [← he, RawText.toList_ofList]
      refine ⟨⟨?_, ?_, ?_⟩, ?_⟩
      · exact fun he => hnoise.1 (hback _ he)
      · exact fun he => hnoise.2 (hback _ he)
      · exact fun he => hup (hback _ he)
      · rwa [RawText.toList_ofList]

theorem IsStep.segment_eq {c : Component} (h : c.IsStep) : c.step? = some c.segment := by
  cases c with
  | up => rfl
  | name n => rfl
  | root => exact h.elim
  | here => exact h.elim

theorem IsStep.segment_ne_empty {c : Component} (h : c.IsStep) : c.segment ≠ "" := by
  cases c with
  | up => decide
  | name n => exact h.ne_empty
  | root => exact h.elim
  | here => exact h.elim

theorem IsStep.no_separator {c : Component} (h : c.IsStep) : slash ∉ c.segment.toList := by
  cases c with
  | up => decide
  | name n => exact IsFileName.no_separator h
  | root => exact h.elim
  | here => exact h.elim

theorem IsStep.segment_plain {c : Component} (h : c.IsStep) :
    ¬ (c.segment = "" ∨ c.segment = ".") := by
  cases c with
  | up => decide
  | name n => exact IsName.not_stay (IsFileName.toIsName h)
  | root => exact h.elim
  | here => exact h.elim

end Component

/-! ## Steps are segments without noise -/

/-- The pieces of a path that are no noise are the steps of its components. -/
theorem plain_ofPieces (pieces : List (List UInt8)) :
    plain ((pieces.filter (· ≠ [])).map RawText.ofList)
      = (pieces.filterMap Component.ofSegment).filterMap Component.step? := by
  induction pieces with
  | nil => rfl
  | cons s rest ih =>
    rw [List.filterMap_filterMap] at ih ⊢
    have hstep := Component.bind_step?_ofSegment s
    by_cases hne : s = []
    · rw [List.filter_cons_of_neg (by simpa using hne), ih, List.filterMap_cons_none]
      rw [hstep, if_pos (Or.inl hne)]
    · rw [List.filter_cons_of_pos (by simpa using hne), List.map_cons]
      by_cases hdot : s = [dot]
      · rw [plain_cons_of_noise (Or.inr (by rw [hdot]; rfl)), ih, List.filterMap_cons_none]
        rw [hstep, if_pos (Or.inr hdot)]
      · have hplain : ¬ (RawText.ofList s = "" ∨ RawText.ofList s = ".") := by
          intro hcases
          rcases hcases with he | he
          · exact hne (congrArg RawText.toList he)
          · exact hdot (congrArg RawText.toList he)
        rw [plain_cons hplain, ih, List.filterMap_cons_some]
        rw [hstep, if_neg (by simp [hne, hdot])]

theorem plain_mark (text : RawText) : plain (mark text) = [] := by
  unfold mark
  split
  · rfl
  · rfl

theorem plain_segments_eq_plain_named (text : RawText) :
    plain (segments text) = plain (named text) := by
  rw [segments_eq, plain_append, plain_mark, List.append_nil]

/-- What the first segment gives is nothing, the root or the directory itself. -/
theorem leading_cases (pieces : List (List UInt8)) :
    Path.leading pieces = [] ∨ Path.leading pieces = [.root] ∨ Path.leading pieces = [.here] := by
  unfold Path.leading
  split
  · exact .inl rfl
  · split
    · exact .inr (.inr rfl)
    · split
      · exact .inr (.inl rfl)
      · exact .inl rfl

theorem filterMap_step?_leading (pieces : List (List UInt8)) :
    (Path.leading pieces).filterMap Component.step? = [] := by
  rcases leading_cases pieces with hlead | hlead | hlead <;> rw [hlead] <;> rfl

/-- **But for noise, the segments of a path are the steps of its components.** -/
theorem plain_segments (p : Path) :
    plain (segments p.text) = p.components.filterMap Component.step? := by
  rw [plain_segments_eq_plain_named, Path.components, List.filterMap_append,
    filterMap_step?_leading, List.nil_append]
  exact plain_ofPieces _

/-! ## The plain spelling -/

/-- A path leads from the root if it starts with a separator. -/
theorem leading_eq_root_iff (p : Path) :
    Path.leading (split slash p.text.toList) = [.root] ↔ p.isAbsolute = true := by
  unfold Path.isAbsolute
  cases p.text.toList with
  | nil => simp [split, Path.leading]
  | cons c cs =>
    rw [split]
    cases h : split slash cs with
    | nil => exact absurd h (split_ne_nil _ _)
    | cons q qs =>
      -- A separator at the start is what makes the first of several pieces empty.
      by_cases hc : c = slash
      · subst hc
        rw [if_pos rfl]
        simp [Path.leading]
      · rw [if_neg hc, consFirst]
        have hlead : Path.leading ((c :: q) :: qs) ≠ [.root] := by
          have hempty : ¬ (c :: q = [] ∧ qs ≠ []) := fun h => List.cons_ne_nil c q h.1
          unfold Path.leading
          dsimp only
          rw [if_neg hempty]
          split <;> simp
        simp [hlead, hc]

/-- A path as the component that only says where it starts, if there is one, and its steps. -/
structure Path.Takes (p : Path) (lead steps : List Component) : Prop where
  components_eq : p.components = lead ++ steps
  lead_cases : lead = [] ∨ lead = [.root] ∨ lead = [.here]
  root_iff : lead = [.root] ↔ p.isAbsolute = true
  isStep : ∀ c ∈ steps, c.IsStep

/-- Every path takes some steps, after what leads it. -/
theorem Path.takes (p : Path) : ∃ lead steps, p.Takes lead steps := by
  refine ⟨Path.leading (split slash p.text.toList),
    (split slash p.text.toList).filterMap Component.ofSegment, rfl, leading_cases _,
    leading_eq_root_iff p, ?_⟩
  · intro c hc
    obtain ⟨s, hs, hc⟩ := List.mem_filterMap.mp hc
    exact Component.isStep_of_ofSegment (not_mem_of_mem_split hs) hc

/-- The pieces that a text is put together from are its named segments. -/
theorem named_of_pieces {text : RawText} {pieces : List (List UInt8)}
    (h : text.toList = [slash].intercalate pieces)
    (hpieces : ∀ s ∈ pieces, slash ∉ s ∧ s ≠ []) : named text = pieces.map RawText.ofList := by
  unfold named
  rw [h]
  by_cases hne : pieces = []
  · rw [hne]
    rfl
  · rw [split_eq_splitOn, List.splitOn_intercalate slash (fun s hs => (hpieces s hs).1) hne,
      List.filter_eq_self.mpr]
    intro s hs
    simpa using (hpieces s hs).2

/-- A separator in front adds no named segment. -/
theorem named_of_separator {text text' : RawText} (h : text.toList = slash :: text'.toList) :
    named text = named text' := by
  unfold named
  rw [h, split, if_pos rfl]
  rfl

theorem plain_map_segment {steps : List Component} (h : ∀ c ∈ steps, c.IsStep) :
    plain (steps.map Component.segment) = steps.map Component.segment := by
  refine List.filter_eq_self.mpr fun s hs => ?_
  obtain ⟨c, hc, rfl⟩ := List.mem_map.mp hs
  simpa [not_or] using (h c hc).segment_plain

theorem filterMap_step?_eq {steps : List Component} (h : ∀ c ∈ steps, c.IsStep) :
    steps.filterMap Component.step? = steps.map Component.segment := by
  induction steps with
  | nil => rfl
  | cons c rest ih =>
    rw [List.filterMap_cons_some (h c (List.mem_cons_self ..)).segment_eq,
      ih fun c hc => h c (List.mem_cons_of_mem _ hc)]
    rfl

theorem Path.Takes.plain_segments {p : Path} {lead steps : List Component}
    (h : p.Takes lead steps) : plain (segments p.text) = steps.map Component.segment := by
  rw [JavaEntities.plain_segments, h.components_eq, List.filterMap_append,
    filterMap_step?_eq h.isStep]
  rcases h.lead_cases with rfl | rfl | rfl
  · rfl
  · rfl
  · rfl

theorem Path.Takes.length_lead {p : Path} {lead steps : List Component} (h : p.Takes lead steps) :
    lead.length ≤ 1 := by
  rcases h.lead_cases with rfl | rfl | rfl
  · exact Nat.zero_le 1
  · exact Nat.le_refl 1
  · exact Nat.le_refl 1

/-- Names with separators between them are taken apart again. -/
theorem named_intercalate {segs : List RawText} (h : ∀ s ∈ segs, s ≠ "" ∧ slash ∉ s.toList) :
    named (RawText.intercalate "/" segs) = segs := by
  have htext : (RawText.intercalate "/" segs).toList
      = [slash].intercalate (segs.map RawText.toList) :=
    RawText.toList_intercalate
  rw [named_of_pieces htext, List.map_map]
  · exact List.map_id segs
  · intro cs hcs
    obtain ⟨s, hs, rfl⟩ := List.mem_map.mp hcs
    refine ⟨(h s hs).2, ?_⟩
    intro he
    exact (h s hs).1 (RawText.toList_eq_nil_iff.mp he)

/-- Segments with a separator between each two do not lead from the root. -/
theorem not_isAbsolute_intercalate {segs : List RawText}
    (h : ∀ s ∈ segs, s ≠ "" ∧ slash ∉ s.toList) :
    ¬ Path.isAbsolute ⟨RawText.intercalate "/" segs⟩ = true := by
  unfold Path.isAbsolute
  rw [decide_eq_true_iff]
  cases segs with
  | nil => exact fun he => nomatch he
  | cons s rest =>
    obtain ⟨hne, hs⟩ := h s (List.mem_cons_self ..)
    have hhead : (RawText.intercalate "/" (s :: rest)).toList.head? = s.toList.head? := by
      cases hc : s.toList with
      | nil => exact absurd (RawText.toList_eq_nil_iff.mp hc) hne
      | cons d ds =>
        rw [RawText.toList_intercalate, List.map_cons, hc]
        cases rest with
        | nil => rfl
        | cons r rest => rw [List.map_cons, List.intercalate_cons_cons]; rfl
    show (RawText.intercalate "/" (s :: rest)).toList.head? ≠ some slash
    rw [hhead]
    intro he
    exact hs (List.mem_of_head? he)

/-- Steps without a start are spelled as they are. -/
theorem respell_steps {steps : List Component} (h : ∀ c ∈ steps, c.IsStep) :
    Path.respell steps = ⟨RawText.intercalate "/" (steps.map Component.segment)⟩ := by
  cases steps with
  | nil => rfl
  | cons c rest =>
    cases c with
    | root => exact (h _ (List.mem_cons_self ..)).elim
    | here => rfl
    | up => rfl
    | name n => rfl

/-- The plain spelling of a start and steps leads over the same steps from the same start. -/
theorem respell_spec {lead steps : List Component}
    (hlead : lead = [] ∨ lead = [.root] ∨ lead = [.here]) (hsteps : ∀ c ∈ steps, c.IsStep) :
    plain (segments (Path.respell (lead ++ steps)).text) = steps.map Component.segment ∧
      ((Path.respell (lead ++ steps)).isAbsolute = true ↔ lead = [.root]) := by
  have hsegs : ∀ s ∈ steps.map Component.segment, s ≠ "" ∧ slash ∉ s.toList := by
    intro s hs
    obtain ⟨c, hc, rfl⟩ := List.mem_map.mp hs
    exact ⟨(hsteps c hc).segment_ne_empty, (hsteps c hc).no_separator⟩
  rw [plain_segments_eq_plain_named]
  rcases hlead with rfl | rfl | rfl
  · rw [List.nil_append, respell_steps hsteps, named_intercalate hsegs, plain_map_segment hsteps]
    exact ⟨rfl, iff_of_false (not_isAbsolute_intercalate hsegs) (by simp)⟩
  · -- The root is spelled by a separator in front, which leaves the named segments as they are.
    have htext : (Path.respell ([.root] ++ steps)).text.toList
        = slash :: (RawText.intercalate "/" (steps.map Component.segment)).toList := by
      show ("/" ++ RawText.intercalate "/" (steps.map Component.segment)).toList = _
      rw [RawText.toList_append]
      rfl
    rw [named_of_separator htext, named_intercalate hsegs, plain_map_segment hsteps]
    refine ⟨rfl, iff_of_true ?_ rfl⟩
    unfold Path.isAbsolute
    rw [htext]
    rfl
  · -- The single dot is one more named segment, and noise.
    have hdotted : ∀ s ∈ ("." : RawText) :: steps.map Component.segment,
        s ≠ "" ∧ slash ∉ s.toList := by
      intro s hs
      rcases List.mem_cons.mp hs with rfl | hs
      · exact ⟨by decide, by decide⟩
      · exact hsegs s hs
    have htext : Path.respell ([.here] ++ steps)
        = ⟨RawText.intercalate "/" (("." : RawText) :: steps.map Component.segment)⟩ := rfl
    rw [htext, named_intercalate hdotted, plain_cons_of_noise (Or.inr rfl),
      plain_map_segment hsteps]
    exact ⟨rfl, iff_of_false (not_isAbsolute_intercalate hdotted) (by simp)⟩

/-! ## The path of an entry -/

/-- A separator divides the names of a path. -/
theorem named_append_separator {text text₁ text₂ : RawText}
    (h : text.toList = text₁.toList ++ slash :: text₂.toList) :
    named text = named text₁ ++ named text₂ := by
  unfold named
  rw [h, split_eq_splitOn, split_eq_splitOn, split_eq_splitOn, List.splitOn_append_cons_self,
    List.filter_append, List.map_append]

/-- Separators at the end name nothing. -/
theorem named_append_separators {text text' : RawText} {k : Nat}
    (h : text'.toList = text.toList ++ List.replicate k slash) : named text' = named text := by
  induction k generalizing text' with
  | zero => rw [RawText.toList_inj.mp (h.trans (List.append_nil _))]
  | succ k ih =>
    have hlast : text'.toList
        = (RawText.ofList (text.toList ++ List.replicate k slash)).toList
          ++ slash :: ("" : RawText).toList := by
      rw [h, RawText.toList_ofList, List.replicate_succ', List.append_assoc]
      rfl
    rw [named_append_separator hlast, ih RawText.toList_ofList]
    exact List.append_nil _

theorem size_append_separators {text text' : RawText} {k : Nat}
    (h : text'.toList = text.toList ++ List.replicate k slash) :
    text'.size = text.size + k := by
  rw [RawText.size, h, List.length_append, List.length_replicate]
  rfl

/-- A name of a file is the only name in it. -/
theorem named_of_isFileName {name : RawText} (h : IsFileName name) : named name = [name] := by
  have htext : name.toList = [slash].intercalate [name.toList] := by simp
  rw [named_of_pieces htext]
  · simp
  · intro s hs
    rw [List.mem_singleton.mp hs]
    refine ⟨h.no_separator, ?_⟩
    intro he
    exact h.ne_empty (RawText.toList_eq_nil_iff.mp he)

theorem mark_append_name {text name : RawText} {cs : List UInt8} (h : IsFileName name)
    (htext : text.toList = cs ++ name.toList) : mark text = [] := by
  unfold mark
  rw [if_neg]
  rw [htext, List.getLast?_append]
  cases hlast : name.toList.getLast? with
  | none =>
    have hempty := RawText.toList_eq_nil_iff.mp (List.getLast?_eq_none_iff.mp hlast)
    exact absurd hempty h.ne_empty
  | some c =>
    intro he
    have hc : c = slash := by simpa using he
    rw [hc] at hlast
    exact h.no_separator (List.mem_of_getLast? hlast)

theorem isAbsolute_of_append {p q : Path} {cs : List UInt8} (hq : q.text ≠ "")
    (h : p.text.toList = q.text.toList ++ cs) : p.isAbsolute = q.isAbsolute := by
  unfold Path.isAbsolute
  cases hc : q.text.toList with
  | nil => exact absurd (RawText.toList_eq_nil_iff.mp hc) hq
  | cons c rest =>
    rw [h, hc]
    rfl

theorem text_of_endsInSeparator {dir : Path} (h : dir.endsInSeparator = true) :
    ∃ cs, dir.text.toList = cs ++ [slash] := by
  unfold Path.endsInSeparator at h
  exact List.getLast?_eq_some_iff.mp (of_decide_eq_true h)

theorem not_isAbsolute_of_isFileName {name : RawText} (h : IsFileName name) :
    ¬ Path.isAbsolute ⟨name⟩ = true := by
  unfold Path.isAbsolute
  rw [decide_eq_true_iff]
  exact fun hhead => h.no_separator (List.mem_of_head? hhead)

theorem toList_separated (s n : RawText) :
    (s ++ "/" ++ n).toList = s.toList ++ slash :: n.toList := by
  rw [RawText.toList_append, RawText.toList_append, List.append_assoc]
  rfl

/-- **The path of an entry leads on from the directory by the name of the entry.** -/
theorem join_spec {dir : Path} {name : RawText} (hname : IsFileName name) (hdir : dir.text ≠ "") :
    segments (dir.join name).text = named dir.text ++ [name] ∧
      (dir.join name).isAbsolute = dir.isAbsolute := by
  rw [segments_eq]
  unfold Path.join
  rw [if_neg (not_isAbsolute_of_isFileName hname)]
  -- A directory that a separator ends gets no other one; the text is cut at the one it has.
  by_cases hends : dir.endsInSeparator = true
  · rw [if_pos (by simp [hends])]
    obtain ⟨cs, hcs⟩ := text_of_endsInSeparator hends
    have htext : (dir.text ++ name).toList
        = (RawText.ofList cs).toList ++ slash :: name.toList := by
      rw [RawText.toList_append, RawText.toList_ofList, hcs, List.append_assoc]
      rfl
    have hnamed : named dir.text = named (RawText.ofList cs) := by
      have hempty : dir.text.toList
          = (RawText.ofList cs).toList ++ slash :: ("" : RawText).toList := by
        rw [RawText.toList_ofList, hcs]
        rfl
      rw [named_append_separator hempty]
      exact List.append_nil _
    rw [mark_append_name hname (RawText.toList_append), List.append_nil,
      named_append_separator htext, named_of_isFileName hname, hnamed]
    exact ⟨rfl, isAbsolute_of_append hdir RawText.toList_append⟩
  · rw [if_neg (by simp [hends, hdir])]
    have htext := toList_separated dir.text name
    rw [mark_append_name hname RawText.toList_append, List.append_nil,
      named_append_separator htext, named_of_isFileName hname]
    exact ⟨rfl, isAbsolute_of_append hdir htext⟩

/-- What is in the spelling of an entry is in one of its parts. -/
theorem mem_text_join {dir : Path} {name : RawText} {c : UInt8} (hname : IsFileName name)
    (h : c ∈ (dir.join name).text.toList) :
    c ∈ dir.text.toList ∨ c = slash ∨ c ∈ name.toList := by
  unfold Path.join at h
  rw [if_neg (not_isAbsolute_of_isFileName hname)] at h
  split at h
  · rw [RawText.toList_append, List.mem_append] at h
    exact h.imp_right .inr
  · rw [toList_separated, List.mem_append, List.mem_cons] at h
    exact h

/-- The path of an entry is at least as long as the directory and the name. -/
theorem size_le_join (dir : Path) {name : RawText} (hname : IsFileName name) :
    dir.text.size + name.size ≤ (dir.join name).text.size := by
  unfold Path.join
  rw [if_neg (not_isAbsolute_of_isFileName hname)]
  split
  · exact Nat.le_of_eq RawText.size_append.symm
  · rw [RawText.size_append, RawText.size_append]
    omega

end JavaEntities
