import JavaEntities.Text.Split

/-!
# Pieces and what they are put together from

`split` is the library's `List.splitOn` and `join` its `List.intercalate`, so the
two undo each other on pieces without the separator (`split_join`), and no piece
of a split holds the separator (`not_mem_of_mem_split`).

`splitAtText` cuts a text at a separator of more than one character. The pieces give
the text back (`intercalate_splitAtText`), and where no piece holds the first character
of the separator, the pieces that were put together are found again (`splitAtText_join`).
To replace a text by another is to put the other between the pieces (`replaceAll`).
-/

namespace JavaEntities.Text

variable {α : Type} [DecidableEq α]

/-! ## One separating element -/

/-- To cut at a character is to split the list there. -/
theorem split_eq_splitOn (sep : α) (s : List α) : split sep s = s.splitOn sep := by
  induction s with
  | nil => rfl
  | cons c s ih =>
    rw [List.splitOn_cons_eq_if_modifyHead, split, ih]
    by_cases hc : c = sep
    · rw [if_pos hc, if_pos (beq_iff_eq.mpr hc)]
    · rw [if_neg hc, if_neg (by simpa using hc)]
      cases hs : s.splitOn sep with
      | nil => exact absurd hs (List.splitOn_ne_nil sep s)
      | cons p ps => rfl

omit [DecidableEq α] in
theorem join_eq_intercalate (sep : α) (ps : List (List α)) :
    join sep ps = [sep].intercalate ps := by
  induction ps with
  | nil => rfl
  | cons p ps ih =>
    cases ps with
    | nil => simp [join]
    | cons q ps => rw [join, ih, List.intercalate_cons_cons]; simp

/-- Pieces without the separator are found again. -/
theorem split_join {sep : α} {ps : List (List α)} (hps : ∀ p ∈ ps, sep ∉ p) (hne : ps ≠ []) :
    split sep (join sep ps) = ps := by
  rw [split_eq_splitOn, join_eq_intercalate]
  exact List.splitOn_intercalate sep hps hne

/-- The pieces of a text are what it is put together from. -/
theorem join_split (sep : α) (s : List α) : join sep (split sep s) = s := by
  rw [join_eq_intercalate, split_eq_splitOn]
  exact List.intercalate_splitOn sep

/-- No piece of a split holds the separator. -/
theorem not_mem_of_mem_split {sep : α} : ∀ {s p : List α}, p ∈ split sep s → sep ∉ p := by
  intro s
  induction s with
  | nil =>
    intro p hp
    rw [split, List.mem_singleton] at hp
    simp [hp]
  | cons c s ih =>
    intro p hp
    rw [split] at hp
    by_cases hc : c = sep
    · rw [if_pos hc] at hp
      rcases List.mem_cons.mp hp with rfl | hp
      · simp
      · exact ih hp
    · rw [if_neg hc] at hp
      cases hs : split sep s with
      | nil => exact absurd hs (split_ne_nil sep s)
      | cons q qs =>
        rw [hs, consFirst] at hp
        rcases List.mem_cons.mp hp with rfl | hp
        · rw [List.mem_cons, not_or]
          exact ⟨fun h => hc h.symm, ih (hs ▸ List.mem_cons_self ..)⟩
        · exact ih (hs ▸ List.mem_cons_of_mem _ hp)

/-- A text without the separator is its own only piece. -/
theorem split_of_not_mem {sep : α} {s : List α} (h : sep ∉ s) : split sep s = [s] := by
  have hpieces : ∀ p ∈ [s], sep ∉ p := by simpa using h
  exact split_join hpieces (List.cons_ne_nil s [])

/-- A separator divides the pieces before it from those behind it. -/
theorem split_append_cons_self (sep : α) (s t : List α) :
    split sep (s ++ sep :: t) = split sep s ++ split sep t := by
  rw [split_eq_splitOn, List.splitOn_append_cons_self, ← split_eq_splitOn, ← split_eq_splitOn]

/-- What follows without a separator makes the last piece longer. -/
theorem exists_split_append {sep : α} (s : List α) {t : List α} (h : sep ∉ t) :
    ∃ ps last, split sep s = ps ++ [last] ∧ split sep (s ++ t) = ps ++ [last ++ t] := by
  induction s with
  | nil => exact ⟨[], [], rfl, split_of_not_mem h⟩
  | cons c s ih =>
    obtain ⟨ps, last, hs, hst⟩ := ih
    rw [List.cons_append, split, split, hs, hst]
    by_cases hc : c = sep
    · rw [if_pos hc, if_pos hc]
      exact ⟨[] :: ps, last, rfl, rfl⟩
    · rw [if_neg hc, if_neg hc]
      cases ps with
      | nil => exact ⟨[], c :: last, rfl, rfl⟩
      | cons p ps => exact ⟨(c :: p) :: ps, last, rfl, rfl⟩

/-- The first piece is what comes before the first separator. -/
theorem split_eq_takeWhile_cons (sep : α) (s : List α) :
    ∃ rest, split sep s = s.takeWhile (· ≠ sep) :: rest := by
  induction s with
  | nil => exact ⟨[], rfl⟩
  | cons c s ih =>
    obtain ⟨rest, hrest⟩ := ih
    rw [split, List.takeWhile_cons]
    by_cases hc : c = sep
    · rw [if_pos hc, if_neg (by simpa using hc)]
      exact ⟨split sep s, rfl⟩
    · rw [if_neg hc, if_pos (by simpa using hc), hrest]
      exact ⟨rest, rfl⟩

theorem takeWhile_append_cons_self (sep : α) (s t : List α) :
    (s ++ sep :: t).takeWhile (· ≠ sep) = s.takeWhile (· ≠ sep) := by
  induction s with
  | nil => rw [List.nil_append, List.takeWhile_cons, if_neg (by simp)]; rfl
  | cons c s ih => rw [List.cons_append, List.takeWhile_cons, List.takeWhile_cons, ih]

/-- Every element of a piece is one of the text. -/
theorem mem_of_mem_split {sep : α} : ∀ {s p : List α}, p ∈ split sep s → ∀ c ∈ p, c ∈ s := by
  intro s
  induction s with
  | nil =>
    intro p hp c hc
    rw [split, List.mem_singleton] at hp
    rwa [hp] at hc
  | cons d s ih =>
    intro p hp c hc
    rw [split] at hp
    by_cases hd : d = sep
    · rw [if_pos hd] at hp
      rcases List.mem_cons.mp hp with rfl | hp
      · exact absurd hc List.not_mem_nil
      · exact List.mem_cons_of_mem _ (ih hp c hc)
    · rw [if_neg hd] at hp
      cases hs : split sep s with
      | nil => exact absurd hs (split_ne_nil sep s)
      | cons q qs =>
        rw [hs, consFirst] at hp
        rcases List.mem_cons.mp hp with rfl | hp
        · rcases List.mem_cons.mp hc with rfl | hc
          · exact List.mem_cons_self ..
          · exact List.mem_cons_of_mem _ (ih (hs ▸ List.mem_cons_self ..) c hc)
        · exact List.mem_cons_of_mem _ (ih (hs ▸ List.mem_cons_of_mem _ hp) c hc)

/-! ## A separating text -/

/-- The pieces of a text between the occurrences of a separating text, which are
looked for from the left and do not overlap. The number says how many elements
of the occurrence that was found last are still to be passed over. -/
def splitAtText (sep : List α) : Nat → List α → List (List α)
  | _, [] => [[]]
  | 0, c :: s =>
    if sep.isPrefixOf (c :: s) then [] :: splitAtText sep (sep.length - 1) s
    else consFirst c (splitAtText sep 0 s)
  | k + 1, _ :: s => splitAtText sep k s

theorem splitAtText_passOver (sep : List α) : ∀ (t s : List α),
    splitAtText sep t.length (t ++ s) = splitAtText sep 0 s := by
  intro t
  induction t with
  | nil => intro s; rfl
  | cons c t ih => intro s; exact ih s

omit [DecidableEq α] in
theorem consFirst_ne_nil (c : α) (ps : List (List α)) : consFirst c ps ≠ [] := by
  cases ps with
  | nil => exact List.cons_ne_nil [c] []
  | cons p ps => exact List.cons_ne_nil (c :: p) ps

theorem splitAtText_ne_nil (sep : List α) (k : Nat) (s : List α) :
    splitAtText sep k s ≠ [] := by
  fun_induction splitAtText sep k s with
  | case1 => exact List.cons_ne_nil _ _
  | case2 => exact List.cons_ne_nil _ _
  | case3 c s _ _ => exact consFirst_ne_nil c _
  | case4 _ _ _ ih => exact ih

omit [DecidableEq α] in
theorem intercalate_consFirst (sep : List α) (c : α) {ps : List (List α)} (hne : ps ≠ []) :
    sep.intercalate (consFirst c ps) = c :: sep.intercalate ps := by
  cases ps with
  | nil => exact absurd rfl hne
  | cons p ps =>
    cases ps with
    | nil => rw [consFirst, List.intercalate_singleton, List.intercalate_singleton]
    | cons q qs => rw [consFirst, List.intercalate_cons_cons, List.intercalate_cons_cons]; rfl

/-- The pieces give back what is left of a text behind the elements that are passed over. -/
theorem intercalate_splitAtText {sep : List α} (hsep : sep ≠ []) (k : Nat) (s : List α) :
    sep.intercalate (splitAtText sep k s) = s.drop k := by
  fun_induction splitAtText sep k s with
  | case1 => rw [List.intercalate_singleton, List.drop_nil]
  | case2 c s hpre ih =>
    -- An occurrence begins here, and the rest of it is passed over.
    obtain ⟨rest, hrest⟩ := List.isPrefixOf_iff_prefix.mp hpre
    have hdrop : s.drop (sep.length - 1) = rest := by
      have hlength : 0 < sep.length := List.length_pos_iff.mpr hsep
      have hcons := congrArg (List.drop sep.length) hrest
      rw [List.drop_left, ← Nat.sub_add_cancel hlength, List.drop_succ_cons] at hcons
      exact hcons.symm
    rw [List.intercalate_cons_of_ne_nil (splitAtText_ne_nil sep _ s), ih, hdrop, List.nil_append,
      hrest]
    rfl
  | case3 c s _ ih => rw [intercalate_consFirst sep c (splitAtText_ne_nil sep 0 s), ih]; rfl
  | case4 k _ s ih => rw [ih, List.drop_succ_cons]

/-- A piece without the first element of the separator ends where the next
separator begins. -/
theorem splitAtText_append {c : α} {sep p s : List α} (hp : c ∉ p) :
    splitAtText (c :: sep) 0 (p ++ (c :: sep) ++ s) = p :: splitAtText (c :: sep) 0 s := by
  induction p with
  | nil =>
    have hpre : (c :: sep).isPrefixOf (c :: (sep ++ s)) = true :=
      List.isPrefixOf_iff_prefix.mpr ⟨s, rfl⟩
    rw [List.nil_append, List.cons_append, splitAtText, if_pos hpre]
    exact congrArg _ (splitAtText_passOver (c :: sep) sep s)
  | cons d p ih =>
    rw [List.mem_cons, not_or] at hp
    have hpre : ¬ (c :: sep).isPrefixOf (d :: (p ++ (c :: sep) ++ s)) = true := by
      intro h
      exact hp.1 (List.cons_prefix_cons.mp (List.isPrefixOf_iff_prefix.mp h)).1
    rw [List.cons_append, List.cons_append, splitAtText, if_neg hpre, ih hp.2, consFirst]

/-- A text without the first element of the separator is its own only piece. -/
theorem splitAtText_eq_singleton {c : α} {sep p : List α} (hp : c ∉ p) :
    splitAtText (c :: sep) 0 p = [p] := by
  induction p with
  | nil => rfl
  | cons d p ih =>
    rw [List.mem_cons, not_or] at hp
    have hpre : ¬ (c :: sep).isPrefixOf (d :: p) = true := by
      intro h
      exact hp.1 (List.cons_prefix_cons.mp (List.isPrefixOf_iff_prefix.mp h)).1
    rw [splitAtText, if_neg hpre, ih hp.2, consFirst]

/-- Pieces that do not hold the first element of the separator are found again. -/
theorem splitAtText_join {c : α} {sep : List α} {ps : List (List α)} (hps : ∀ p ∈ ps, c ∉ p)
    (hne : ps ≠ []) : splitAtText (c :: sep) 0 ((c :: sep).intercalate ps) = ps := by
  induction ps with
  | nil => exact absurd rfl hne
  | cons p ps ih =>
    have hp := hps p (List.mem_cons_self ..)
    cases ps with
    | nil => rw [List.intercalate_singleton, splitAtText_eq_singleton hp]
    | cons q qs =>
      rw [List.intercalate_cons_cons, splitAtText_append hp,
        ih (fun r hr => hps r (List.mem_cons_of_mem _ hr)) (by simp)]

/-! ## Replacing -/

/-- The text with another text in place of each occurrence of one; occurrences are looked for
from the left and do not overlap. -/
def replaceAll (old new text : String) : String :=
  String.ofList (new.toList.intercalate (splitAtText old.toList 0 text.toList))

end JavaEntities.Text
