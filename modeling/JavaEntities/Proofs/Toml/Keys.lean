import Mathlib.Data.List.TakeWhile
import JavaEntities.Text.Blank
import JavaEntities.Toml.Document

/-!
# The keys of a document

The table that a document describes has distinct keys (`nodup_keys_of_parse?`): a line changes
what is under a key or adds a key that was not there. A blank text describes the empty table if it
is a document at all (`eq_nil_of_parse?_of_allBlank`).

Values that differ only in the order of keys are alike (`Value.Alike`); tables, if and only if their
entries can be put side by side with the same keys and alike values (`Value.alike_table_iff`).
-/

namespace JavaEntities.Toml

/-! ## Distinct keys -/

namespace Draft

/-- Whether the keys of entries are distinct. -/
def Distinct (es : Entries) : Prop :=
  (es.map Prod.fst).Nodup

/-- A change under a key leaves the keys, or adds this one. -/
theorem keys_alter {k : String} {f : Option Draft → Option Draft} {es es' : Entries}
    (h : alter k f es = some es') :
    es'.map Prod.fst = es.map Prod.fst ∨
      k ∉ es.map Prod.fst ∧ es'.map Prod.fst = es.map Prod.fst ++ [k] := by
  induction es generalizing es' with
  | nil =>
    obtain ⟨d, -, rfl⟩ := Option.map_eq_some_iff.mp h
    exact .inr ⟨List.not_mem_nil, rfl⟩
  | cons e rest ih =>
    obtain ⟨k', d⟩ := e
    unfold alter at h
    split at h
    · obtain ⟨d', -, rfl⟩ := Option.map_eq_some_iff.mp h
      exact .inl rfl
    · next hne =>
      obtain ⟨rest', hrest, rfl⟩ := Option.map_eq_some_iff.mp h
      rcases ih hrest with hkeys | ⟨hnew, hkeys⟩
      · exact .inl (congrArg (k' :: ·) hkeys)
      · refine .inr ⟨?_, congrArg (k' :: ·) hkeys⟩
        rw [List.map_cons, List.mem_cons, not_or]
        exact ⟨fun heq => hne heq.symm, hnew⟩

/-- Changing the entry under a key keeps keys distinct. -/
theorem distinct_alter {k : String} {f : Option Draft → Option Draft} {es es' : Entries}
    (h : alter k f es = some es') (hes : Distinct es) : Distinct es' := by
  unfold Distinct at hes ⊢
  rcases keys_alter h with hkeys | ⟨hnew, hkeys⟩
  · rwa [hkeys]
  · rw [hkeys, List.nodup_append]
    refine ⟨hes, by simp, fun a ha b hb heq => ?_⟩
    rw [List.mem_singleton.mp hb] at heq
    exact hnew (heq ▸ ha)

theorem distinct_within {f : Entries → Option Entries} {path : List String} {es es' : Entries}
    (hf : ∀ es es', f es = some es' → Distinct es → Distinct es')
    (h : within f path es = some es') (hes : Distinct es) : Distinct es' := by
  cases path with
  | nil => exact hf es es' h hes
  | cons k ks => exact distinct_alter h hes

theorem distinct_openTable {path : List String} {es es' : Entries}
    (h : openTable path es = some es') (hes : Distinct es) : Distinct es' := by
  unfold openTable at h
  split at h
  · exact nomatch h
  · exact distinct_within (fun _ _ => distinct_alter) h hes

theorem distinct_openTables {path : List String} {es es' : Entries}
    (h : openTables path es = some es') (hes : Distinct es) : Distinct es' := by
  unfold openTables at h
  split at h
  · exact nomatch h
  · exact distinct_within (fun _ _ => distinct_alter) h hes

/-- An assignment keeps keys distinct. -/
theorem distinct_assign {v : Value} {path : List String} {es es' : Entries}
    (h : assign v path es = some es') (hes : Distinct es) : Distinct es' := by
  cases path with
  | nil => exact nomatch h
  | cons k ks =>
    cases ks with
    | nil => exact distinct_alter h hes
    | cons k' ks => exact distinct_alter h hes

/-- Finished entries have the same keys. -/
theorem keys_finishEntries (es : Entries) :
    (finishEntries es).map Prod.fst = es.map Prod.fst := by
  induction es with
  | nil => rw [finishEntries]; rfl
  | cons e rest ih => rw [finishEntries, List.map_cons, List.map_cons, ih]

end Draft

namespace Document

/-- A line keeps the keys distinct. -/
theorem distinct_add {d d' : Document} {l : Line} (h : d.add l = some d')
    (hd : Draft.Distinct d.entries) : Draft.Distinct d'.entries := by
  cases l with
  | assign k v =>
    obtain ⟨es, hes, rfl⟩ := Option.map_eq_some_iff.mp h
    exact Draft.distinct_within (fun _ _ => Draft.distinct_assign) hes hd
  | header k =>
    obtain ⟨es, hes, rfl⟩ := Option.map_eq_some_iff.mp h
    exact Draft.distinct_openTable hes hd
  | arrayHeader k =>
    obtain ⟨es, hes, rfl⟩ := Option.map_eq_some_iff.mp h
    exact Draft.distinct_openTables hes hd

/-- Keys are distinct after any number of lines. -/
theorem distinct_foldlM_add {lines : List Line} {d d' : Document}
    (h : lines.foldlM add d = some d') (hd : Draft.Distinct d.entries) :
    Draft.Distinct d'.entries := by
  induction lines generalizing d with
  | nil =>
    rw [← Option.some.inj h]
    exact hd
  | cons l rest ih =>
    obtain ⟨d₁, hadd, hrest⟩ := Option.bind_eq_some_iff.mp h
    exact ih hrest (distinct_add hadd hd)

end Document

/-- **The keys of a document are distinct.** -/
theorem nodup_keys_of_parse? {text : String} {entries : List (String × Value)}
    (h : parse? text = some entries) : (entries.map Prod.fst).Nodup := by
  obtain ⟨lines, -, hlines⟩ := Option.bind_eq_some_iff.mp h
  obtain ⟨d, hd, rfl⟩ := Option.map_eq_some_iff.mp hlines
  rw [Draft.keys_finishEntries]
  exact Document.distinct_foldlM_add hd List.nodup_nil

/-! ## Blank texts -/

theorem skipComment_suffix (s : List Char) : skipComment s <:+ s := by
  unfold skipComment
  split
  · exact (List.dropWhile_suffix _).trans (List.suffix_cons _ _)
  · exact List.suffix_rfl

theorem suffix_of_lineEnd? {s rest : List Char} (h : lineEnd? s = some rest) : rest <:+ s := by
  unfold lineEnd? at h
  split at h
  · obtain rfl := Option.some.inj h
    exact List.suffix_cons _ _
  · obtain rfl := Option.some.inj h
    exact (List.suffix_cons _ _).trans (List.suffix_cons _ _)
  · exact nomatch h

theorem skipLines_suffix (n : Nat) (s : List Char) : skipLines n s <:+ s := by
  induction n generalizing s with
  | zero => exact List.suffix_rfl
  | succ n ih =>
    have hstep : skipComment (skipSpaces s) <:+ s :=
      (skipComment_suffix _).trans (List.dropWhile_suffix _)
    unfold skipLines
    dsimp only
    split
    · next rest h => exact (ih rest).trans ((suffix_of_lineEnd? h).trans hstep)
    · exact hstep

theorem skipByteOrderMark_suffix (s : List Char) : skipByteOrderMark s <:+ s := by
  unfold skipByteOrderMark
  split
  · split
    · exact List.suffix_cons _ _
    · exact List.suffix_rfl
  · exact List.suffix_rfl

/-- A blank character stands in no key without quotes. -/
theorem isBare_of_isBlank {c : Char} (h : Text.isBlank c = true) : isBare c = false := by
  have hle : ∀ a b : Char, a ≤ b ↔ a.toNat ≤ b.toNat := fun _ _ => Iff.rfl
  -- No code point from the hyphen to the last letter is blank.
  have hrange : c.toNat < 45 ∨ 122 < c.toNat := by
    simp [Text.isBlank, Text.blankRanges] at h
    omega
  have hhyphen : c ≠ '-' := by
    rintro rfl
    exact absurd hrange (by decide)
  have hunderscore : c ≠ '_' := by
    rintro rfl
    exact absurd hrange (by decide)
  simp [isBare, hle, hhyphen, hunderscore]
  omega

theorem keyPart_eq_none_of_isBlank {c : Char} {s : List Char} (h : Text.isBlank c = true) :
    keyPart (c :: s) = none := by
  have hquoted : singleLine (c :: s) = none := by
    unfold singleLine
    split
    · next hs =>
      obtain ⟨rfl, -⟩ := List.cons.inj hs
      exact absurd h (by decide)
    · next hs =>
      obtain ⟨rfl, -⟩ := List.cons.inj hs
      exact absurd h (by decide)
    · rfl
  unfold keyPart
  rw [hquoted, List.takeWhile_cons, isBare_of_isBlank h]
  rfl

/-- No line begins with a blank character. -/
theorem line_eq_none_of_isBlank {c : Char} {s : List Char} (h : Text.isBlank c = true) :
    line (c :: s) = none := by
  unfold line
  split
  · next hs =>
    obtain ⟨rfl, -⟩ := List.cons.inj hs
    exact absurd h (by decide)
  · next hs =>
    obtain ⟨rfl, -⟩ := List.cons.inj hs
    exact absurd h (by decide)
  · rw [assignment, key, keyParts, keyPart_eq_none_of_isBlank h]
    rfl

/-- A blank document has no lines. -/
theorem eq_nil_of_linesTo {n : Nat} {s : List Char} {lines : List Line}
    (h : linesTo n s = some lines) (hs : ∀ c ∈ s, Text.isBlank c = true) : lines = [] := by
  cases n with
  | zero => exact nomatch h
  | succ n =>
    unfold linesTo at h
    have hrest : skipBetween s <:+ s := skipLines_suffix _ s
    cases hbetween : skipBetween s with
    | nil =>
      rw [hbetween] at h
      exact (Option.some.inj h).symm
    | cons c rest =>
      -- What is left would begin with a blank character.
      have hc : Text.isBlank c = true :=
        hs c (hrest.subset (hbetween ▸ List.mem_cons_self ..))
      rw [hbetween] at h
      dsimp only at h
      rw [line_eq_none_of_isBlank hc] at h
      exact nomatch h

/-- A blank text that is a document describes the empty table. -/
theorem eq_nil_of_parse?_of_allBlank {text : String} {entries : List (String × Value)}
    (h : parse? text = some entries) (hblank : Text.allBlank text.toList = true) :
    entries = [] := by
  obtain ⟨lines, hlines, hentries⟩ := Option.bind_eq_some_iff.mp h
  have hs : ∀ c ∈ skipByteOrderMark text.toList, Text.isBlank c = true :=
    fun c hc => List.all_eq_true.mp hblank c ((skipByteOrderMark_suffix _).subset hc)
  obtain ⟨d, hd, rfl⟩ := Option.map_eq_some_iff.mp hentries
  rw [eq_nil_of_linesTo hlines hs] at hd
  rw [← Option.some.inj hd, Draft.finishEntries]

/-! ## Readers of documents -/

/-- What is relied on of a reader of documents: a table has distinct keys, and a blank text
that is read as a document describes the empty table. -/
structure TableReader.Lawful (read : TableReader) : Prop where
  nodup_keys {text : String} {entries : List (String × Value)} (h : read text = some entries) :
    (entries.map Prod.fst).Nodup
  eq_nil_of_allBlank {text : String} {entries : List (String × Value)}
    (h : read text = some entries) (hblank : Text.allBlank text.toList = true) : entries = []

/-- The reader of documents is lawful. -/
theorem lawful_parse? : TableReader.Lawful parse? where
  nodup_keys := nodup_keys_of_parse?
  eq_nil_of_allBlank := eq_nil_of_parse?_of_allBlank

/-! ## Another order of keys -/

namespace Value

/-- Whether two values differ only in the order of keys, of the tables in them too. Two arrays are
alike place by place, two tables key by key. -/
inductive Alike : Value → Value → Prop
  | refl (v : Value) : Alike v v
  | array (places : List (Value × Value)) (h : ∀ p ∈ places, Alike p.1 p.2) :
      Alike (.array (places.map Prod.fst)) (.array (places.map Prod.snd))
  | table (rows : List (String × Value × Value)) {es es' : List (String × Value)}
      (h : ∀ r ∈ rows, Alike r.2.1 r.2.2) (hes : es.Perm (rows.map fun r => (r.1, r.2.1)))
      (hes' : es'.Perm (rows.map fun r => (r.1, r.2.2))) : Alike (.table es) (.table es')

/-- Whether rows put the entries of two tables side by side, with the same keys and alike values. -/
def Rows (rows : List (String × Value × Value)) (es es' : List (String × Value)) : Prop :=
  (∀ r ∈ rows, Alike r.2.1 r.2.2) ∧ es.Perm (rows.map fun r => (r.1, r.2.1)) ∧
    es'.Perm (rows.map fun r => (r.1, r.2.2))

theorem exists_rows_of_perm {es es' : List (String × Value)} (h : es.Perm es') :
    ∃ rows, Rows rows es es' := by
  refine ⟨es.map fun e => (e.1, e.2, e.2), ?_, ?_, ?_⟩
  · intro r hr
    obtain ⟨e, -, rfl⟩ := List.mem_map.mp hr
    exact .refl e.2
  · simp [Function.comp_def]
  · simpa [Function.comp_def] using h.symm

/-- Tables are alike if their entries can be put side by side. -/
theorem alike_table_iff {es es' : List (String × Value)} :
    Alike (.table es) (.table es') ↔ ∃ rows, Rows rows es es' := by
  constructor
  · intro h
    cases h with
    | refl => exact exists_rows_of_perm (.refl es)
    | table rows h hes hes' => exact ⟨rows, h, hes, hes'⟩
  · rintro ⟨rows, h, hes, hes'⟩
    exact .table rows h hes hes'

end Value

end JavaEntities.Toml
