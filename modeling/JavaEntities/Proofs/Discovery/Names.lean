import Mathlib.Data.List.TakeWhile
import JavaEntities.Discovery
import JavaEntities.Proofs.Path.Order
import JavaEntities.Proofs.Text.Raw

/-!
# Names of inputs

The name of an input is a stem, a dot and the extension (`isInputName_iff`). Three questions are
asked about a name, and each looks at other dots: the extension follows the last one, a hidden
name begins with one, and the identifier comes before the first. For the name of an input they
agree: the identifier is what the stem has before its own first dot, and is not empty
(`HasStem.identifier_eq`). All this is said of names
that are texts: others may be names of inputs too, but give no identifier.
-/

namespace JavaEntities

open Text

/-! ## Dots in a text -/

/-- What a text has before its first dot, or all of it. -/
def beforeDot (s : String) : String :=
  String.ofList (s.toList.takeWhile (· ≠ '.'))

variable {s e n extension : String}

theorem toList_dotted (s e : String) : (s ++ "." ++ e).toList = s.toList ++ '.' :: e.toList := by
  rw [String.toList_append, String.toList_append, List.append_assoc]
  rfl

/-- The part before the first dot has no dot. -/
theorem dot_not_mem_beforeDot (s : String) : '.' ∉ (beforeDot s).toList := by
  unfold beforeDot
  rw [String.toList_ofList]
  intro hmem
  exact absurd (List.mem_takeWhile_imp hmem) (by decide)

/-- The part before the first dot is of the characters of the text. -/
theorem mem_of_mem_beforeDot {c : Char} (h : c ∈ (beforeDot s).toList) : c ∈ s.toList := by
  unfold beforeDot at h
  rw [String.toList_ofList] at h
  exact (List.takeWhile_sublist _).subset h

/-- Nothing is before the first dot if the text is empty or begins with one. -/
theorem beforeDot_eq_empty_iff : beforeDot s = "" ↔ s = "" ∨ s.toList.head? = some '.' := by
  have hempty : ∀ cs : List Char, String.ofList cs = "" ↔ cs = [] := by
    intro cs
    rw [← String.toList_eq_nil_iff, String.toList_ofList]
  rw [beforeDot, hempty, ← String.toList_eq_nil_iff]
  cases s.toList with
  | nil => simp
  | cons c cs =>
    rw [List.takeWhile_cons]
    by_cases hc : c = '.'
    · simp [hc]
    · simp [hc]

/-- What follows a dot does not count. -/
theorem beforeDot_dotted (s e : String) : beforeDot (s ++ "." ++ e) = beforeDot s := by
  unfold beforeDot
  rw [toList_dotted, takeWhile_append_cons_self]

/-- A text with a dot is divided at the last one. -/
theorem exists_dotted (h : '.' ∈ n.toList) : ∃ s e, n = s ++ "." ++ e ∧ '.' ∉ e.toList := by
  obtain ⟨back, front, hsplit, hback⟩ := List.eq_append_cons_of_mem (List.mem_reverse.mpr h)
  refine ⟨String.ofList front.reverse, String.ofList back.reverse, ?_, ?_⟩
  · rw [← String.toList_inj, toList_dotted, String.toList_ofList, String.toList_ofList,
      List.reverse_eq_iff.mp hsplit]
    simp
  · rwa [String.toList_ofList, List.mem_reverse]

/-! ## The three questions -/

/-- The identifier is the part before the first dot, unless that is empty. -/
theorem identifierOfText_eq (n : String) :
    identifierOfText n = if beforeDot n = "" then none else some (beforeDot n) := by
  obtain ⟨rest, hrest⟩ := split_eq_takeWhile_cons '.' n.toList
  unfold identifierOfText beforeDot
  rw [hrest]
  cases n.toList.takeWhile (· ≠ '.') with
  | nil => rfl
  | cons c cs =>
    rw [if_neg]
    intro he
    exact nomatch String.ofList_inj.mp he

section Extension

variable {name stem ending : RawText}

/-- A name without a dot has no extension. -/
theorem extensionOf_of_no_dot (h : dot ∉ name.toList) : extensionOf name = none := by
  unfold extensionOf
  rw [split_of_not_mem h]

/-- The extension follows the last dot, unless that is the first byte. -/
theorem extensionOf_dotted (he : dot ∉ ending.toList) :
    extensionOf (stem ++ "." ++ ending) = if stem = "" then none else some ending := by
  have hbytes : (stem ++ "." ++ ending).toList = stem.toList ++ dot :: ending.toList := by
    rw [RawText.toList_append, RawText.toList_append, List.append_assoc]
    rfl
  have hlast : ((split dot stem.toList ++ [ending.toList]).getLast?.map RawText.ofList)
      = some ending := by
    rw [List.getLast?_concat, Option.map_some, RawText.ofList_toList]
  obtain ⟨p, ps, hpieces⟩ := List.exists_cons_of_ne_nil (split_ne_nil dot stem.toList)
  unfold extensionOf
  rw [hbytes, split_append_cons_self, split_of_not_mem he]
  by_cases hs : stem = ""
  · rw [hs]
    rfl
  · rw [if_neg hs]
    rw [hpieces] at hlast ⊢
    cases p with
    | cons c cs =>
      cases ps with
      | nil => exact hlast
      | cons q qs =>
        cases qs with
        | nil => exact hlast
        | cons r rs => exact hlast
    | nil =>
      cases ps with
      | nil =>
        -- The stem would be its own only piece, and empty.
        have hjoin := join_split dot stem.toList
        rw [hpieces] at hjoin
        exact absurd (RawText.toList_eq_nil_iff.mp hjoin.symm) hs
      | cons q qs =>
        cases qs with
        | nil => exact hlast
        | cons r rs => exact hlast

end Extension

/-- A text has an extension if it is a stem that is not empty, a dot and the extension, which has
no dot. -/
theorem extensionOf_eq_some_iff :
    (extensionOf (n : RawText)).bind RawText.toString? = some e ↔
      '.' ∉ e.toList ∧ ∃ s, s ≠ "" ∧ n = s ++ "." ++ e := by
  have hcut : ∀ s e : String, '.' ∉ e.toList →
      (extensionOf ((s ++ "." ++ e : String) : RawText)).bind RawText.toString?
        = if s = "" then none else some e := by
    intro s e he
    rw [RawText.ofString_append, RawText.ofString_append,
      extensionOf_dotted fun hmem => he (RawText.dot_mem_ofString.mp hmem)]
    by_cases hs : s = ""
    · rw [if_pos hs, if_pos (congrArg RawText.ofString hs)]
      rfl
    · rw [if_neg hs, if_neg fun h => hs (RawText.ofString_inj.mp h)]
      exact RawText.toString?_ofString e
  constructor
  · intro h
    by_cases hdot : '.' ∈ n.toList
    · obtain ⟨s, e', rfl, he'⟩ := exists_dotted hdot
      rw [hcut s e' he'] at h
      split at h
      · exact nomatch h
      · next hs =>
        obtain rfl := Option.some.inj h
        exact ⟨he', s, hs, rfl⟩
    · rw [extensionOf_of_no_dot fun hmem => hdot (RawText.dot_mem_ofString.mp hmem)] at h
      exact nomatch h
  · rintro ⟨he, s, hs, rfl⟩
    rw [hcut s e he, if_neg hs]

/-- A name with an extension is hidden if the part before it begins with a dot. -/
theorem isHidden_dotted (hs : s ≠ "") (e : String) :
    isHidden ((s ++ "." ++ e : String) : RawText) = true ↔ s.toList.head? = some '.' := by
  unfold isHidden
  rw [RawText.toString?_ofString, Option.any_some, toList_dotted, decide_eq_true_iff]
  cases hcs : s.toList with
  | nil => exact absurd (String.toList_eq_nil_iff.mp hcs) hs
  | cons c cs => simp

/-! ## Stems -/

/-- Whether a name is a stem that does not begin with a dot, a dot and an extension. -/
structure HasStem (extension : String) (name : RawText) (s : String) : Prop where
  eq_dotted : name = (s ++ "." ++ extension : String)
  ne_empty : s ≠ ""
  shown : s.toList.head? ≠ some '.'

variable {name : RawText}

/-- The name of an input has a part before the extension. -/
theorem exists_hasStem (htext : name.IsText) (h : isInputName extension name = true) :
    ∃ s, HasStem extension name s := by
  obtain ⟨n, rfl⟩ := RawText.isText_iff.mp htext
  obtain ⟨hextension, hshown⟩ := Bool.and_eq_true_iff.mp h
  obtain ⟨-, s, hs, rfl⟩ := extensionOf_eq_some_iff.mp (of_decide_eq_true hextension)
  refine ⟨s, rfl, hs, ?_⟩
  intro hhead
  rw [(isHidden_dotted hs extension).mpr hhead] at hshown
  exact nomatch hshown

/-- **The names of inputs are those with a stem**, for an extension without dots. -/
theorem isInputName_iff (htext : name.IsText) (hextension : '.' ∉ extension.toList) :
    isInputName extension name = true ↔ ∃ s, HasStem extension name s := by
  refine ⟨exists_hasStem htext, ?_⟩
  rintro ⟨s, rfl, hs, hshown⟩
  have hvisible : isHidden ((s ++ "." ++ extension : String) : RawText) = false := by
    rw [Bool.eq_false_iff, ne_eq, isHidden_dotted hs]
    exact hshown
  unfold isInputName
  rw [extensionOf_eq_some_iff.mpr ⟨hextension, s, hs, rfl⟩, hvisible]
  simp

/-- **The name of an input gives the identifier that its stem has before its first dot.** -/
theorem HasStem.identifier_eq (h : HasStem extension name s) :
    name.toString?.bind identifierOfText = some (beforeDot s) ∧ beforeDot s ≠ "" := by
  have hne : beforeDot s ≠ "" := by
    rw [ne_eq, beforeDot_eq_empty_iff, not_or]
    exact ⟨h.ne_empty, h.shown⟩
  rw [h.eq_dotted, RawText.toString?_ofString, Option.bind_some, identifierOfText_eq,
    beforeDot_dotted, if_neg hne]
  exact ⟨rfl, hne⟩

/-! ## Paths of inputs -/

variable {fs : FileSystem} {dir p : Path} {names : List RawText}

/-- The identifier of an entry of a directory comes from its name alone. -/
theorem identifierOf_join (dir : Path) (hn : IsFileName name) :
    identifierOf (dir.join name) = name.toString?.bind identifierOfText := by
  have hname : (dir.join name).fileName = some name := by
    unfold Path.fileName
    rw [Path.components_join dir hn, List.getLast?_concat]
  rw [identifierOf, hname]
  rfl

/-- The inputs are the files among the names that have the form of an input. -/
theorem mem_inputsAmong :
    p ∈ inputsAmong fs dir extension names ↔
      ∃ n ∈ names, fs.isFile (dir.join n) = true ∧ isInputName extension n = true ∧
        p = dir.join n := by
  unfold inputsAmong
  simp only [List.mem_mergeSort, List.mem_map, List.mem_filter, Bool.and_eq_true]
  constructor
  · rintro ⟨n, ⟨hn, hfile, hname⟩, rfl⟩
    exact ⟨n, hn, hfile, hname, rfl⟩
  · rintro ⟨n, hn, hfile, hname, rfl⟩
    exact ⟨n, ⟨hn, hfile, hname⟩, rfl⟩

/-- An entry of the directory is an input by its own file and its own name. -/
theorem join_mem_inputsAmong (hnames : ∀ n ∈ names, IsFileName n) (hn : name ∈ names) :
    dir.join name ∈ inputsAmong fs dir extension names ↔
      fs.isFile (dir.join name) = true ∧ isInputName extension name = true := by
  rw [mem_inputsAmong]
  constructor
  · rintro ⟨m, hm, hfile, hname, heq⟩
    obtain rfl := (Path.components_join_eq_iff dir (hnames name hn) (hnames m hm)).mp
      (congrArg Path.components heq)
    exact ⟨hfile, hname⟩
  · rintro ⟨hfile, hname⟩
    exact ⟨name, hn, hfile, hname, rfl⟩

/-- **Every input whose name is a text has a stem, and its path gives the identifier that the stem
has before its first dot.** -/
theorem identifierOf_of_mem_inputsAmong (hnames : ∀ n ∈ names, IsFileName n)
    (hp : p ∈ inputsAmong fs dir extension names) :
    ∃ n ∈ names, p = dir.join n ∧ (n.IsText → ∃ s, HasStem extension n s ∧
      identifierOf p = some (beforeDot s) ∧ beforeDot s ≠ "" ∧ '.' ∉ (beforeDot s).toList ∧
      '/' ∉ (beforeDot s).toList) := by
  obtain ⟨n, hn, -, hname, rfl⟩ := mem_inputsAmong.mp hp
  refine ⟨n, hn, rfl, fun htext => ?_⟩
  obtain ⟨s, hstem⟩ := exists_hasStem htext hname
  obtain ⟨hidentifier, hne⟩ := hstem.identifier_eq
  refine ⟨s, hstem, ?_, hne, dot_not_mem_beforeDot s, ?_⟩
  · rw [identifierOf_join dir (hnames n hn), hidentifier]
  · intro hmem
    refine (hnames n hn).no_separator ?_
    rw [hstem.eq_dotted, RawText.slash_mem_ofString, toList_dotted]
    exact List.mem_append_left _ (mem_of_mem_beforeDot hmem)

end JavaEntities
