import Mathlib.Data.List.Dedup
import JavaEntities.Proofs.List.First
import JavaEntities.Proofs.SortedMap.Lookup

/-!
# What insertions into a sorted map leave

A map that was made by insertions is told by them. Each gives back what was under its key
(`replaceEntry_fst`). Under a key is the value of the last of them that is under it
(`get?_insertAll_eq_some_iff`), the key is spelled as in the first (`mem_keys_insertAll`), and
there are as many keys as there are different ones among the insertions
(`size_insertAll_eq_dedup`).

Where keys that compare as equal are the same, a map is its values under all keys (`ext_get?`),
so only the order of insertions under one key matters (`insertAll_eq_of_filter`).
-/

namespace JavaEntities

namespace SortedMap

variable {κ υ : Type} [Ord κ]

/-! ## What an insertion takes the place of -/

variable [Std.TransOrd κ]

/-- An insertion gives back what was under its key. -/
theorem replaceEntry_fst {k : κ} {v : υ} {entries : List (κ × υ)} (h : Increasing entries) :
    (replaceEntry k v entries).1 = findEntry k entries := by
  induction entries with
  | nil => rfl
  | cons old rest ih =>
    obtain ⟨hold, hrest⟩ := List.pairwise_cons.mp h
    rw [findEntry_cons]
    unfold replaceEntry
    split
    · next hlt =>
      -- The search of the insertion ends here, and no entry behind has the key.
      have hbefore : ∀ e ∈ rest, compare k e.1 = .lt :=
        fun e he => Std.TransCmp.lt_trans hlt (hold e he)
      rw [hlt, if_neg (by decide), findEntry_eq_none_of_lt hbefore]
    · next heq => rw [if_pos heq]
    · next hgt =>
      rw [hgt, if_neg (by decide)]
      exact ih hrest

/-! ## Entries -/

/-- Equal keys have the same value. -/
theorem get?_congr {m : SortedMap κ υ} {k k' : κ} (h : compare k k' = .eq) :
    m.get? k = m.get? k' := by
  unfold get? findEntry
  simp only [Std.TransCmp.congr_left h]

theorem findEntry_of_mem {entries : List (κ × υ)} {e : κ × υ} (h : Increasing entries)
    (he : e ∈ entries) : findEntry e.1 entries = some e.2 := by
  induction entries with
  | nil => exact absurd he List.not_mem_nil
  | cons old rest ih =>
    obtain ⟨hold, hrest⟩ := List.pairwise_cons.mp h
    rw [findEntry_cons]
    rcases List.mem_cons.mp he with rfl | he
    · rw [if_pos Std.ReflCmp.compare_self]
    · have hgt : compare e.1 old.1 = .gt := Std.OrientedCmp.gt_of_lt (hold e he)
      rw [hgt, if_neg (by decide)]
      exact ih hrest he

/-- An entry is what is found under its key. -/
theorem get?_of_mem {m : SortedMap κ υ} {e : κ × υ} (he : e ∈ m.entries) :
    m.get? e.1 = some e.2 :=
  findEntry_of_mem m.increasing he

omit [Std.TransOrd κ] in
/-- What is found under a key is an entry under an equal one. -/
theorem exists_mem_of_get? {m : SortedMap κ υ} {k : κ} {v : υ} (h : m.get? k = some v) :
    ∃ k', compare k k' = .eq ∧ (k', v) ∈ m.entries := by
  obtain ⟨e, he, rfl⟩ := Option.map_eq_some_iff.mp h
  have heq : compare k e.1 = .eq := by simpa using List.find?_some he
  exact ⟨e.1, heq, List.mem_of_find?_eq_some he⟩

/-- An entry is a key as it is spelled in the map and the value that is found under it. -/
theorem mem_entries_iff {m : SortedMap κ υ} {k : κ} {v : υ} :
    (k, v) ∈ m.entries ↔ k ∈ m.keys ∧ m.get? k = some v := by
  constructor
  · exact fun he => ⟨List.mem_map_of_mem he, get?_of_mem he⟩
  · rintro ⟨hk, hv⟩
    obtain ⟨e, he, rfl⟩ := List.mem_map.mp hk
    obtain rfl := Option.some.inj ((get?_of_mem he).symm.trans hv)
    exact he

/-! ## The last insertion under a key -/

/-- The value under a key is that of the last insertion under it. -/
theorem get?_insertAll_eq_some_iff {es : List (κ × υ)} {k : κ} {v : υ} :
    (insertAll empty es).get? k = some v ↔
      ∃ k', IsLast (fun e => compare k e.1 = .eq) es (k', v) := by
  have hempty : (empty : SortedMap κ υ).get? k = none := rfl
  rw [get?_insertAll, hempty, Option.or_none, Option.map_eq_some_iff]
  simp only [find?_reverse_eq_some_iff, beq_iff_eq]
  constructor
  · rintro ⟨e, he, rfl⟩
    exact ⟨e.1, he⟩
  · rintro ⟨k', he⟩
    exact ⟨(k', v), he, rfl⟩

/-- There is nothing under a key that no insertion is under. -/
theorem get?_insertAll_eq_none_iff {es : List (κ × υ)} {k : κ} :
    (insertAll empty es).get? k = none ↔ ∀ e ∈ es, compare k e.1 ≠ .eq := by
  have hempty : (empty : SortedMap κ υ).get? k = none := rfl
  rw [get?_insertAll, hempty, Option.or_none, Option.map_eq_none_iff, List.find?_eq_none]
  simp only [List.mem_reverse, beq_iff_eq, ne_eq]

/-! ## The first insertion under a key -/

theorem mem_keys_insertEntry {k k' : κ} {v : υ} {entries : List (κ × υ)}
    (h : Increasing entries) :
    k' ∈ (insertEntry k v entries).map Prod.fst ↔
      k' ∈ entries.map Prod.fst ∨ (k' = k ∧ findEntry k entries = none) := by
  induction entries with
  | nil => simp [insertEntry, findEntry]
  | cons old rest ih =>
    obtain ⟨hold, hrest⟩ := List.pairwise_cons.mp h
    rw [findEntry_cons]
    cases hcompare : compare k old.1 with
    | lt =>
      have hbefore : ∀ e ∈ rest, compare k e.1 = .lt :=
        fun e he => Std.TransCmp.lt_trans hcompare (hold e he)
      have hfirst : ∀ e ∈ old :: rest, compare k e.1 = .lt :=
        List.forall_mem_cons.mpr ⟨hcompare, hbefore⟩
      rw [insertEntry_of_lt hfirst, if_neg (by decide), findEntry_eq_none_of_lt hbefore]
      simp [or_comm]
    | eq =>
      rw [insertEntry_cons_of_eq hcompare, if_pos rfl]
      simp
    | gt =>
      rw [insertEntry_cons_of_gt hcompare, if_neg (by decide), List.map_cons, List.mem_cons,
        ih hrest, List.map_cons, List.mem_cons, or_assoc]

/-- An insertion spells its key only if there is nothing under it yet. -/
theorem mem_keys_insert {m : SortedMap κ υ} {k k' : κ} {v : υ} :
    k' ∈ (m.insert k v).keys ↔ k' ∈ m.keys ∨ (k' = k ∧ m.get? k = none) :=
  mem_keys_insertEntry m.increasing

/-- A key of the map was there, or is spelled as in the first insertion under it. -/
theorem mem_keys_insertAll {m : SortedMap κ υ} {es : List (κ × υ)} {k : κ} :
    k ∈ (m.insertAll es).keys ↔
      k ∈ m.keys ∨ (m.get? k = none ∧ ∃ v, IsFirst (fun e => compare k e.1 = .eq) es (k, v)) := by
  induction es generalizing m with
  | nil =>
    have hnone : ∀ v, ¬ IsFirst (fun e : κ × υ => compare k e.1 = .eq) [] (k, v) := by
      rintro v ⟨before, after, hsplit, -⟩
      simp at hsplit
    show k ∈ m.keys ↔ _
    simp [hnone]
  | cons e rest ih =>
    show k ∈ ((m.insert e.1 e.2).insertAll rest).keys ↔ _
    rw [ih, mem_keys_insert, get?_insert]
    simp only [isFirst_cons]
    by_cases heq : compare k e.1 = .eq
    · -- The key is taken from now on, and it is spelled so if and only if this insertion spells it.
      have hspelled : (∃ v, (k, v) = e) ↔ k = e.1 :=
        ⟨fun ⟨v, hv⟩ => congrArg Prod.fst hv, fun hk => ⟨e.2, by rw [hk]⟩⟩
      simp [heq, hspelled, get?_congr heq, and_comm]
    · have hne : k ≠ e.1 := by
        rintro rfl
        exact heq Std.ReflCmp.compare_self
      have hother : ∀ v, (k, v) ≠ e := fun v hv => hne (congrArg Prod.fst hv)
      simp [heq, hne, hother]

/-- A key of a map of insertions is spelled as in the first under it. -/
theorem mem_keys_insertAll_empty {es : List (κ × υ)} {k : κ} :
    k ∈ (insertAll empty es).keys ↔ ∃ v, IsFirst (fun e => compare k e.1 = .eq) es (k, v) := by
  have hempty : (empty : SortedMap κ υ).get? k = none := rfl
  have hkeys : k ∉ (empty : SortedMap κ υ).keys := List.not_mem_nil
  rw [mem_keys_insertAll]
  simp [hempty, hkeys]

/-! ## The number of keys -/

/-- There are as many keys as there are different ones among the insertions. -/
theorem size_insertAll_eq_dedup {γ : Type} [DecidableEq γ] {f : κ → γ}
    (hf : ∀ k k', compare k k' = .eq ↔ f k = f k') (es : List (κ × υ)) :
    (insertAll empty es).size = (es.map fun e => f e.1).dedup.length := by
  have hdistinct : ((insertAll empty es).entries.map fun e => f e.1).Nodup := by
    refine List.pairwise_map.mpr ((insertAll empty es).increasing.imp ?_)
    intro e e' hlt heq
    rw [(hf _ _).mpr heq] at hlt
    exact nomatch hlt
  have hmem : ∀ c, c ∈ (insertAll empty es).entries.map (fun e => f e.1) ↔
      c ∈ (es.map fun e => f e.1).dedup := by
    intro c
    rw [List.mem_dedup, List.mem_map, List.mem_map]
    constructor
    · rintro ⟨e, he, rfl⟩
      obtain ⟨v, before, after, rfl, -⟩ := mem_keys_insertAll_empty.mp (List.mem_map_of_mem he)
      exact ⟨(e.1, v), by simp, rfl⟩
    · rintro ⟨e, he, rfl⟩
      -- There is something under the key of an insertion.
      obtain ⟨v, hv⟩ := Option.ne_none_iff_exists'.mp fun hnone =>
        get?_insertAll_eq_none_iff.mp hnone e he Std.ReflCmp.compare_self
      obtain ⟨k', heq, hk'⟩ := exists_mem_of_get? hv
      exact ⟨(k', v), hk', ((hf _ _).mp heq).symm⟩
  have hperm := (List.perm_ext_iff_of_nodup hdistinct (List.nodup_dedup _)).mpr hmem
  rw [← hperm.length_eq, List.length_map]
  rfl

/-! ## Equal maps -/

variable [Std.LawfulEqOrd κ]

/-- Maps with the same values under all keys are the same. -/
theorem ext_get? {m m' : SortedMap κ υ} (hget : ∀ k, m.get? k = m'.get? k) : m = m' := by
  have hdistinct : ∀ m : SortedMap κ υ, m.entries.Nodup :=
    fun m => List.Nodup.of_map Prod.fst (nodup_keys m)
  have hmem : ∀ e, e ∈ m.entries ↔ e ∈ m'.entries := by
    rintro ⟨k, v⟩
    rw [mem_entries_iff, mem_entries_iff, mem_keys_iff, mem_keys_iff, hget]
  have hperm := (List.perm_ext_iff_of_nodup (hdistinct m) (hdistinct m')).mpr hmem
  refine ext_entries (hperm.eq_of_pairwise ?_ m.increasing m'.increasing)
  intro e e' _ _ hlt hgt
  rw [Std.OrientedCmp.gt_of_lt hlt] at hgt
  exact nomatch hgt

/-- Insertions that are the same for each key leave the same map. -/
theorem insertAll_eq_of_filter {es es' : List (κ × υ)}
    (h : ∀ k,
      es'.filter (fun e => compare k e.1 == .eq) = es.filter fun e => compare k e.1 == .eq) :
    insertAll empty es' = insertAll empty es := by
  refine ext_get? fun k => ?_
  -- The last insertion under a key is the last of those that are under it.
  have hlast : ∀ l : List (κ × υ), (l.reverse.find? fun e => compare k e.1 == .eq)
      = (l.filter fun e => compare k e.1 == .eq).getLast? := by
    intro l
    rw [← List.head?_filter, List.filter_reverse, List.head?_reverse]
  rw [get?_insertAll, get?_insertAll, hlast, hlast, h k]

end SortedMap

end JavaEntities
