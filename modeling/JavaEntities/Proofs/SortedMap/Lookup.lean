import JavaEntities.Proofs.SortedMap.Order

/-!
# Looking up in a sorted map

An insertion changes what is under its own key and nothing else (`get?_insert`). So after
several insertions the last one under a key decides what is there (`get?_insertAll`). Each
insertion adds an entry or takes the place of one (`size_insertAll_add_displaced`), and those
under keys that all differ only add (`size_insertAll`).
-/

namespace JavaEntities.SortedMap

variable {κ υ : Type} [Ord κ]

/-! ## Entries -/

/-- The first entry is found under its key, and the others behind it. -/
theorem findEntry_cons (k : κ) (e : κ × υ) (rest : List (κ × υ)) :
    findEntry k (e :: rest) = if compare k e.1 = .eq then some e.2 else findEntry k rest := by
  unfold findEntry
  rw [List.find?_cons]
  by_cases hk : compare k e.1 = .eq
  · rw [if_pos hk, beq_iff_eq.mpr hk]
    rfl
  · rw [if_neg hk, beq_eq_false_iff_ne.mpr hk]

/-- Nothing is found under a key before all others. -/
theorem findEntry_eq_none_of_lt {k : κ} {entries : List (κ × υ)}
    (h : ∀ e ∈ entries, compare k e.1 = .lt) : findEntry k entries = none := by
  unfold findEntry
  rw [Option.map_eq_none_iff, List.find?_eq_none]
  intro e he heq
  rw [h e he] at heq
  exact nomatch heq

/-- The keys are those under which there is a value. -/
theorem mem_keys_iff [Std.LawfulEqOrd κ] {m : SortedMap κ υ} {k : κ} :
    k ∈ m.keys ↔ ∃ v, m.get? k = some v := by
  unfold keys get? findEntry
  simp only [List.mem_map, Option.map_eq_some_iff]
  constructor
  · rintro ⟨e, he, rfl⟩
    have hfound : (m.entries.find? fun e' => compare e.1 e'.1 == .eq).isSome = true :=
      List.find?_isSome.mpr ⟨e, he, beq_iff_eq.mpr Std.ReflCmp.compare_self⟩
    obtain ⟨e', he'⟩ := Option.isSome_iff_exists.mp hfound
    exact ⟨e'.2, e', he', rfl⟩
  · rintro ⟨v, e, he, -⟩
    have heq : compare k e.1 = .eq := by simpa using List.find?_some he
    exact ⟨e, List.mem_of_find?_eq_some he, (Std.LawfulEqCmp.eq_of_compare heq).symm⟩

variable [Std.TransOrd κ]

/-- The map after insertions, one after the other. -/
def insertAll (m : SortedMap κ υ) (es : List (κ × υ)) : SortedMap κ υ :=
  es.foldl (fun m e => m.insert e.1 e.2) m

/-- The values that insertions, one after the other, take the place of. -/
def displaced (m : SortedMap κ υ) : List (κ × υ) → List υ
  | [] => []
  | e :: rest => (m.get? e.1).toList ++ (m.insert e.1 e.2).displaced rest

/-! ## One insertion -/

/-- An insertion adds an entry, or takes the place of one. -/
theorem length_insertEntry_add {k : κ} {v : υ} {entries : List (κ × υ)} (h : Increasing entries) :
    (insertEntry k v entries).length + (findEntry k entries).toList.length
      = entries.length + 1 := by
  induction entries with
  | nil => rfl
  | cons old rest ih =>
    obtain ⟨hold, hrest⟩ := List.pairwise_cons.mp h
    rw [findEntry_cons]
    cases hcompare : compare k old.1 with
    | lt =>
      have hbefore : ∀ e ∈ rest, compare k e.1 = .lt :=
        fun e he => Std.TransCmp.lt_trans hcompare (hold e he)
      have hfirst : ∀ e ∈ old :: rest, compare k e.1 = .lt :=
        List.forall_mem_cons.mpr ⟨hcompare, hbefore⟩
      rw [insertEntry_of_lt hfirst, if_neg (by decide), findEntry_eq_none_of_lt hbefore]
      rfl
    | eq =>
      rw [insertEntry_cons_of_eq hcompare, if_pos rfl]
      rfl
    | gt =>
      have hlength := ih hrest
      rw [insertEntry_cons_of_gt hcompare, if_neg (by decide), List.length_cons, List.length_cons]
      omega

/-- An insertion adds an entry or takes the place of one. -/
theorem size_insert_add (m : SortedMap κ υ) (k : κ) (v : υ) :
    (m.insert k v).size + (m.get? k).toList.length = m.size + 1 :=
  length_insertEntry_add m.increasing

/-- What is found under a key behind an insertion, be the entries in order or not. -/
theorem findEntry_insertEntry (k : κ) (v : υ) (k' : κ) (entries : List (κ × υ)) :
    findEntry k' (insertEntry k v entries)
      = if compare k' k = .eq then some v else findEntry k' entries := by
  induction entries with
  | nil => rw [insertEntry, findEntry_cons]
  | cons old rest ih =>
    obtain ⟨k₀, v₀⟩ := old
    unfold insertEntry
    split
    · rw [findEntry_cons]
    · next heq =>
      -- The key that is looked for is equal to both keys or to neither.
      have hboth : compare k' k₀ = compare k' k := (Std.TransCmp.congr_right heq).symm
      rw [findEntry_cons, findEntry_cons, hboth]
      by_cases hk : compare k' k = .eq
      · rw [if_pos hk, if_pos hk]
      · rw [if_neg hk, if_neg hk, if_neg hk]
    · next hgt =>
      rw [findEntry_cons, findEntry_cons, ih]
      by_cases hk₀ : compare k' k₀ = .eq
      · -- The key in front is not the one that is inserted.
        have hk : compare k' k ≠ .eq := by
          intro hk
          rw [Std.TransCmp.congr_left (Std.OrientedCmp.eq_symm hk), hk₀] at hgt
          exact absurd hgt (by decide)
        rw [if_pos hk₀, if_neg hk, if_pos hk₀]
      · rw [if_neg hk₀, if_neg hk₀]

/-- What is under a key after an insertion. -/
theorem get?_insert (m : SortedMap κ υ) (k : κ) (v : υ) (k' : κ) :
    (m.insert k v).get? k' = if compare k' k = .eq then some v else m.get? k' :=
  findEntry_insertEntry k v k' m.entries

/-! ## Several insertions -/

/-- **Each insertion adds an entry or takes the place of one.** -/
theorem size_insertAll_add_displaced (m : SortedMap κ υ) (es : List (κ × υ)) :
    (m.insertAll es).size + (m.displaced es).length = m.size + es.length := by
  induction es generalizing m with
  | nil => rfl
  | cons e rest ih =>
    have hstep := size_insert_add m e.1 e.2
    have hrest := ih (m.insert e.1 e.2)
    rw [displaced, List.length_append, List.length_cons]
    show ((m.insert e.1 e.2).insertAll rest).size + _ = _
    omega

/-- The last insertion under a key decides what is there. -/
theorem get?_insertAll (m : SortedMap κ υ) (es : List (κ × υ)) (k : κ) :
    (m.insertAll es).get? k
      = ((es.reverse.find? fun e => compare k e.1 == .eq).map Prod.snd).or (m.get? k) := by
  induction es generalizing m with
  | nil => rfl
  | cons e rest ih =>
    rw [List.reverse_cons, List.find?_append, List.find?_singleton]
    show ((m.insert e.1 e.2).insertAll rest).get? k = _
    rw [ih, get?_insert]
    cases rest.reverse.find? fun e => compare k e.1 == .eq with
    | some e' => rfl
    | none =>
      by_cases hk : compare k e.1 = .eq
      · simp [hk]
      · simp [hk]

/-- Insertions under keys that differ from each other and from those that are there take the place
of nothing. -/
theorem displaced_eq_nil {m : SortedMap κ υ} {es : List (κ × υ)}
    (hdistinct : es.Pairwise fun e e' => compare e.1 e'.1 ≠ .eq)
    (hnew : ∀ e ∈ es, m.get? e.1 = none) : m.displaced es = [] := by
  induction es generalizing m with
  | nil => rfl
  | cons e rest ih =>
    obtain ⟨hfirst, hrest⟩ := List.pairwise_cons.mp hdistinct
    have hstep : ∀ e' ∈ rest, (m.insert e.1 e.2).get? e'.1 = none := by
      intro e' he'
      rw [get?_insert, if_neg]
      · exact hnew e' (List.mem_cons_of_mem _ he')
      · intro heq
        exact hfirst e' he' (Std.OrientedCmp.eq_symm heq)
    rw [displaced, hnew e (List.mem_cons_self ..), ih hrest hstep]
    rfl

/-- Such insertions add one entry each. -/
theorem size_insertAll {m : SortedMap κ υ} {es : List (κ × υ)}
    (hdistinct : es.Pairwise fun e e' => compare e.1 e'.1 ≠ .eq)
    (hnew : ∀ e ∈ es, m.get? e.1 = none) : (m.insertAll es).size = m.size + es.length := by
  have hsize := size_insertAll_add_displaced m es
  rwa [displaced_eq_nil hdistinct hnew, List.length_nil, Nat.add_zero] at hsize

/-- Insertions under other keys change nothing under a key. -/
theorem get?_insertAll_of_ne {m : SortedMap κ υ} {es : List (κ × υ)} {k : κ}
    (h : ∀ e ∈ es, compare k e.1 ≠ .eq) : (m.insertAll es).get? k = m.get? k := by
  have hnone : (es.reverse.find? fun e => compare k e.1 == .eq) = none := by
    rw [List.find?_eq_none]
    intro e he heq
    exact h e (List.mem_reverse.mp he) (beq_iff_eq.mp heq)
  rw [get?_insertAll, hnone]
  rfl

/-- Where the keys all differ, each insertion is found again. -/
theorem get?_insertAll_of_mem {m : SortedMap κ υ} {es : List (κ × υ)} {e : κ × υ}
    (hdistinct : es.Pairwise fun e e' => compare e.1 e'.1 ≠ .eq) (he : e ∈ es) :
    (m.insertAll es).get? e.1 = some e.2 := by
  induction es generalizing m with
  | nil => exact absurd he List.not_mem_nil
  | cons first rest ih =>
    obtain ⟨hfirst, hrest⟩ := List.pairwise_cons.mp hdistinct
    show ((m.insert first.1 first.2).insertAll rest).get? e.1 = _
    rcases List.mem_cons.mp he with rfl | he
    · rw [get?_insertAll_of_ne hfirst, get?_insert, if_pos Std.ReflCmp.compare_self]
    · exact ih hrest he

/-! ## Keys of one kind -/

/-- The map with the keys of a kind alone. -/
def filterKeys (P : κ → Bool) (m : SortedMap κ υ) : SortedMap κ υ :=
  ⟨m.entries.filter fun e => P e.1, m.increasing.filter _⟩

/-- Of the keys of a kind, an insertion under one of them makes what it makes of them alone. -/
theorem filterKeys_insert [Std.LawfulEqOrd κ] {P : κ → Bool} (m : SortedMap κ υ) (k : κ) (v : υ) :
    (m.insert k v).filterKeys P
      = if P k then (m.filterKeys P).insert k v else m.filterKeys P := by
  refine ext_entries ?_
  show (insertEntry k v m.entries).filter (fun e => P e.1) = _
  rw [filter_insertEntry P k v m.increasing]
  by_cases hkey : P k = true
  · rw [if_pos hkey, if_pos hkey]
    rfl
  · rw [if_neg hkey, if_neg hkey]
    rfl

/-- Of the keys of a kind, insertions make what those under such keys make of them alone. -/
theorem filterKeys_insertAll [Std.LawfulEqOrd κ] (P : κ → Bool) (m : SortedMap κ υ)
    (es : List (κ × υ)) :
    (m.insertAll es).filterKeys P = (m.filterKeys P).insertAll (es.filter fun e => P e.1) := by
  induction es generalizing m with
  | nil => rfl
  | cons e rest ih =>
    show ((m.insert e.1 e.2).insertAll rest).filterKeys P = _
    rw [ih, filterKeys_insert, List.filter_cons]
    by_cases hkey : P e.1 = true
    · rw [if_pos hkey, if_pos hkey]
      rfl
    · rw [if_neg hkey, if_neg hkey]

end JavaEntities.SortedMap
