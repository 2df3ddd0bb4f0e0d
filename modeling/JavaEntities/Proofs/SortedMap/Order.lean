import JavaEntities.SortedMap

/-!
# The order of a sorted map

The keys of a map increase from each entry to those after it, so no two of them are
equal (`nodup_keys`). Where an insertion puts its entry is told by the first one whose key
is not before its own, and what it makes of the keys of one kind does not depend on the
others (`filter_insertEntry`).
-/

namespace JavaEntities.SortedMap

variable {κ υ : Type} [Ord κ]

/-- A key before all others goes in front. -/
theorem insertEntry_of_lt {k : κ} {v : υ} {entries : List (κ × υ)}
    (h : ∀ e ∈ entries, compare k e.1 = .lt) : insertEntry k v entries = (k, v) :: entries := by
  cases entries with
  | nil => rfl
  | cons e rest =>
    unfold insertEntry
    rw [h e (List.mem_cons_self ..)]

/-- A key that is there keeps its spelling. -/
theorem insertEntry_cons_of_eq {k : κ} {v : υ} {e : κ × υ} {rest : List (κ × υ)}
    (h : compare k e.1 = .eq) : insertEntry k v (e :: rest) = (e.1, v) :: rest := by
  unfold insertEntry
  rw [h]

/-- A key after the first one goes among those behind it. -/
theorem insertEntry_cons_of_gt {k : κ} {v : υ} {e : κ × υ} {rest : List (κ × υ)}
    (h : compare k e.1 = .gt) : insertEntry k v (e :: rest) = e :: insertEntry k v rest := by
  rw [insertEntry, h]

variable [Std.TransOrd κ]

/-- Of the entries with keys of a kind, an insertion makes what it makes of them alone, or nothing
if its own key is of another kind. -/
theorem filter_insertEntry [Std.LawfulEqOrd κ] (P : κ → Bool) (k : κ) (v : υ)
    {entries : List (κ × υ)} (h : Increasing entries) :
    (insertEntry k v entries).filter (fun e => P e.1)
      = if P k then insertEntry k v (entries.filter fun e => P e.1)
        else entries.filter fun e => P e.1 := by
  induction entries with
  | nil => exact List.filter_cons
  | cons old rest ih =>
    obtain ⟨k', v'⟩ := old
    obtain ⟨hold, hrest⟩ := List.pairwise_cons.mp h
    cases hcompare : compare k k' with
    | lt =>
      have hfirst : ∀ e ∈ (k', v') :: rest, compare k e.1 = .lt := by
        intro e he
        rcases List.mem_cons.mp he with rfl | he
        · exact hcompare
        · exact Std.TransCmp.lt_trans hcompare (hold e he)
      rw [insertEntry_of_lt hfirst,
        insertEntry_of_lt fun e he => hfirst e (List.mem_filter.mp he).1]
      exact List.filter_cons
    | eq =>
      obtain rfl : k = k' := Std.LawfulEqCmp.eq_of_compare hcompare
      rw [insertEntry_cons_of_eq hcompare, List.filter_cons, List.filter_cons]
      by_cases hk : P k = true
      · rw [if_pos hk, if_pos hk, if_pos hk, insertEntry_cons_of_eq hcompare]
      · rw [if_neg hk, if_neg hk, if_neg hk]
    | gt =>
      rw [insertEntry_cons_of_gt hcompare, List.filter_cons, List.filter_cons, ih hrest]
      by_cases hk' : P k' = true
      · rw [if_pos hk', if_pos hk', insertEntry_cons_of_gt hcompare]
        split
        · rfl
        · rfl
      · rw [if_neg hk', if_neg hk']

/-- No two keys are equal. -/
theorem nodup_keys (m : SortedMap κ υ) : m.keys.Nodup := by
  refine List.pairwise_map.mpr (m.increasing.imp ?_)
  intro e e' hlt he
  have hself : compare e'.1 e'.1 = .eq := Std.ReflCmp.compare_self
  rw [he, hself] at hlt
  exact nomatch hlt

end JavaEntities.SortedMap
