import Mathlib.Data.List.Nodup
import JavaEntities.Configuration.Decode
import JavaEntities.Proofs.Error.Steps
import JavaEntities.Proofs.List.First
import JavaEntities.Proofs.Text.Bytes
import JavaEntities.Proofs.Toml.Keys

/-!
# Which tables describe a configuration

What a key may have for its value is said twice: by the relation `Sets`, one constructor for each
setting, and by the definition that decodes it; the two agree (`set_eq_ok_iff`). So a table is
accepted if and only if every value fits its key (`Fits`), and then each setting is what its key
says, or the default if the key is missing (`Described`). Otherwise the error is that of the first
entry that does not fit, in the order of the bytes of keys (`ofTable_eq_error_iff`).

The order of keys has no say, neither of the table nor of the tables in it
(`ofTable_eq_of_alike`). All of this holds of the text of a document (`ofToml_decodes_tables`).
-/

namespace JavaEntities.Configuration

open Text
open Toml (Value)

/-! ## What a value says -/

/-- Whether a value is the text of a path. -/
def IsPath (v : Value) (p : Path) : Prop :=
  ∃ s, v = .string s ∧ p = ⟨s⟩

/-- Whether a value is a text. -/
def IsText (v : Value) (s : String) : Prop :=
  v = .string s

/-- Whether a value is an empty body: an array or a table with nothing in it. -/
def IsEmptyBody (v : Value) : Prop :=
  v = .array [] ∨ v = .table []

/-- Whether a value names something: by its name, or by a table in which the name is the only key
and has an empty body. -/
def Names {α : Type} (nameOf : α → String) (v : Value) (a : α) : Prop :=
  v = .string (nameOf a) ∨ ∃ body, IsEmptyBody body ∧ v = .table [(nameOf a, body)]

/-- Whether a value fits a key. -/
inductive Fits (key : String) (v : Value) : Prop
  | inputDir {p : Path} (hkey : key = "input_dir") (h : IsPath v p)
  | inputExtension {s : String} (hkey : key = "input_extension") (h : IsText v s)
  | outputDir {p : Path} (hkey : key = "output_dir") (h : IsPath v p)
  | outputExtension {s : String} (hkey : key = "output_extension") (h : IsText v s)
  | onReadError {p : ReadErrorPolicy} (hkey : key = "on_read_error")
      (h : Names ReadErrorPolicy.name v p)
  | logLevel {l : LogLevel} (hkey : key = "log_level") (h : Names LogLevel.name v l)

/-- Whether a setting is what its key says in a table, or the default if the key is missing. -/
structure Taken {α : Type} (entries : List (String × Value)) (key : String)
    (Means : Value → α → Prop) (default a : α) : Prop where
  given : ∀ v, (key, v) ∈ entries → Means v a
  missing : key ∉ entries.map Prod.fst → a = default

/-- Whether a configuration is what a table says. -/
structure Described (entries : List (String × Value)) (c : Configuration) : Prop where
  inputDir : Taken entries "input_dir" IsPath ⟨"."⟩ c.inputDir
  inputExtension : Taken entries "input_extension" IsText "csv" c.inputExtension
  outputDir : Taken entries "output_dir" IsPath ⟨"out"⟩ c.outputDir
  outputExtension : Taken entries "output_extension" IsText "java" c.outputExtension
  onReadError : Taken entries "on_read_error" (Names ReadErrorPolicy.name) .abort c.onReadError
  logLevel : Taken entries "log_level" (Names LogLevel.name) .info c.logLevel

/-! ## One value -/

/-- A string is decoded as itself, and nothing else is. -/
theorem decodeString_eq_ok_iff {expected s : String} {v : Value} :
    decodeString expected v = .ok s ↔ IsText v s := by
  unfold decodeString IsText
  split
  · simp
  · next hne => exact ⟨nofun, fun h => absurd h (hne s)⟩

/-- Empty arrays and empty tables are the bodies that are taken for empty. -/
theorem decodeEmpty_eq_ok_iff {v : Value} : decodeEmpty v = .ok () ↔ IsEmptyBody v := by
  unfold decodeEmpty IsEmptyBody
  split <;> simp_all

section Choice

variable {α : Type} {all : List α} {nameOf : α → String}

/-- A name is decoded as what bears it. -/
theorem decodeName_eq_ok_iff (hall : ∀ a, a ∈ all) (hinj : nameOf.Injective) {name : String}
    {a : α} : decodeName all nameOf name = .ok a ↔ nameOf a = name := by
  unfold decodeName
  cases hfind : all.find? fun a => nameOf a = name with
  | none =>
    have hnone : nameOf a ≠ name := by simpa using List.find?_eq_none.mp hfind a (hall a)
    simp [hnone]
  | some b =>
    have hb : nameOf b = name := by simpa using List.find?_some hfind
    simp only [Except.ok.injEq, ← hb]
    exact ⟨fun h => h ▸ rfl, fun h => (hinj h).symm⟩

/-- A value is decoded as what it names. -/
theorem decodeChoice_eq_ok_iff (hall : ∀ a, a ∈ all) (hinj : nameOf.Injective) {v : Value} {a : α} :
    decodeChoice all nameOf v = .ok a ↔ Names nameOf v a := by
  constructor
  · intro h
    unfold decodeChoice at h
    split at h
    · next name =>
      rw [← (decodeName_eq_ok_iff hall hinj).mp h]
      exact .inl rfl
    · exact nomatch h
    · next name body =>
      split at h
      · exact nomatch h
      · next b hname =>
        split at h
        · exact nomatch h
        · next hbody =>
          obtain rfl := Except.ok.inj h
          rw [← (decodeName_eq_ok_iff hall hinj).mp hname]
          exact .inr ⟨body, decodeEmpty_eq_ok_iff.mp hbody, rfl⟩
    · exact nomatch h
    · exact nomatch h
  · intro h
    have hname : decodeName all nameOf (nameOf a) = .ok a :=
      (decodeName_eq_ok_iff hall hinj).mpr rfl
    rcases h with rfl | ⟨body, hbody, rfl⟩
    · exact hname
    · rw [decodeChoice, hname, decodeEmpty_eq_ok_iff.mpr hbody]

end Choice

theorem mem_all_readErrorPolicy (p : ReadErrorPolicy) : p ∈ ReadErrorPolicy.all := by
  cases p <;> decide

theorem mem_all_logLevel (l : LogLevel) : l ∈ LogLevel.all := by
  cases l <;> decide

/-- No two policies have one name. -/
theorem name_readErrorPolicy_injective : ReadErrorPolicy.name.Injective := by
  intro p q h
  cases p <;> cases q <;> first | rfl | exact absurd h (by decide)

/-- No two levels have one name. -/
theorem name_logLevel_injective : LogLevel.name.Injective := by
  intro l m h
  cases l <;> cases m <;> first | rfl | exact absurd h (by decide)

/-! ## One entry -/

/-- What a configuration becomes by an entry. -/
inductive Sets (c : Configuration) (key : String) (v : Value) : Configuration → Prop
  | inputDir {p : Path} (hkey : key = "input_dir") (h : IsPath v p) :
      Sets c key v { c with inputDir := p }
  | inputExtension {s : String} (hkey : key = "input_extension") (h : IsText v s) :
      Sets c key v { c with inputExtension := s }
  | outputDir {p : Path} (hkey : key = "output_dir") (h : IsPath v p) :
      Sets c key v { c with outputDir := p }
  | outputExtension {s : String} (hkey : key = "output_extension") (h : IsText v s) :
      Sets c key v { c with outputExtension := s }
  | onReadError {p : ReadErrorPolicy} (hkey : key = "on_read_error")
      (h : Names ReadErrorPolicy.name v p) : Sets c key v { c with onReadError := p }
  | logLevel {l : LogLevel} (hkey : key = "log_level") (h : Names LogLevel.name v l) :
      Sets c key v { c with logLevel := l }

variable {c c' : Configuration} {key : String} {v : Value}

/-- **What an entry does.** -/
theorem set_eq_ok_iff : c.set key v = .ok c' ↔ Sets c key v c' := by
  constructor
  · intro h
    unfold set at h
    split_ifs at h with h₁ h₂ h₃ h₄ h₅ h₆
    · obtain ⟨s, hs, rfl⟩ := map_eq_ok_iff.mp h
      exact .inputDir h₁ ⟨s, decodeString_eq_ok_iff.mp hs, rfl⟩
    · obtain ⟨s, hs, rfl⟩ := map_eq_ok_iff.mp h
      exact .inputExtension h₂ (decodeString_eq_ok_iff.mp hs)
    · obtain ⟨s, hs, rfl⟩ := map_eq_ok_iff.mp h
      exact .outputDir h₃ ⟨s, decodeString_eq_ok_iff.mp hs, rfl⟩
    · obtain ⟨s, hs, rfl⟩ := map_eq_ok_iff.mp h
      exact .outputExtension h₄ (decodeString_eq_ok_iff.mp hs)
    · obtain ⟨p, hp, rfl⟩ := map_eq_ok_iff.mp h
      exact .onReadError h₅ ((decodeChoice_eq_ok_iff mem_all_readErrorPolicy
        name_readErrorPolicy_injective).mp hp)
    · obtain ⟨l, hl, rfl⟩ := map_eq_ok_iff.mp h
      exact .logLevel h₆ ((decodeChoice_eq_ok_iff mem_all_logLevel name_logLevel_injective).mp hl)
  · intro h
    cases h with
    | inputDir hkey h =>
      obtain ⟨s, hs, rfl⟩ := h
      rw [hkey]
      exact map_eq_ok_iff.mpr ⟨s, decodeString_eq_ok_iff.mpr hs, rfl⟩
    | inputExtension hkey h =>
      rw [hkey]
      exact map_eq_ok_iff.mpr ⟨_, decodeString_eq_ok_iff.mpr h, rfl⟩
    | outputDir hkey h =>
      obtain ⟨s, hs, rfl⟩ := h
      rw [hkey]
      exact map_eq_ok_iff.mpr ⟨s, decodeString_eq_ok_iff.mpr hs, rfl⟩
    | outputExtension hkey h =>
      rw [hkey]
      exact map_eq_ok_iff.mpr ⟨_, decodeString_eq_ok_iff.mpr h, rfl⟩
    | onReadError hkey h =>
      rw [hkey]
      exact map_eq_ok_iff.mpr ⟨_, (decodeChoice_eq_ok_iff mem_all_readErrorPolicy
        name_readErrorPolicy_injective).mpr h, rfl⟩
    | logLevel hkey h =>
      rw [hkey]
      exact map_eq_ok_iff.mpr ⟨_, (decodeChoice_eq_ok_iff mem_all_logLevel
        name_logLevel_injective).mpr h, rfl⟩

/-- An entry is accepted if and only if its value fits its key. -/
theorem exists_set_eq_ok_iff (c : Configuration) :
    (∃ c', c.set key v = .ok c') ↔ Fits key v := by
  simp only [set_eq_ok_iff]
  constructor
  · rintro ⟨c', h⟩
    cases h with
    | inputDir hkey h => exact .inputDir hkey h
    | inputExtension hkey h => exact .inputExtension hkey h
    | outputDir hkey h => exact .outputDir hkey h
    | outputExtension hkey h => exact .outputExtension hkey h
    | onReadError hkey h => exact .onReadError hkey h
    | logLevel hkey h => exact .logLevel hkey h
  · rintro (⟨hkey, h⟩ | ⟨hkey, h⟩ | ⟨hkey, h⟩ | ⟨hkey, h⟩ | ⟨hkey, h⟩ | ⟨hkey, h⟩)
    · exact ⟨_, .inputDir hkey h⟩
    · exact ⟨_, .inputExtension hkey h⟩
    · exact ⟨_, .outputDir hkey h⟩
    · exact ⟨_, .outputExtension hkey h⟩
    · exact ⟨_, .onReadError hkey h⟩
    · exact ⟨_, .logLevel hkey h⟩

/-- What is wrong with an entry has nothing to do with the configuration. -/
theorem set_eq_error {reason : String} (h : c.set key v = .error reason) (c' : Configuration) :
    c'.set key v = .error reason := by
  unfold set at h ⊢
  split_ifs at h ⊢
  · exact map_eq_error_iff.mpr (map_eq_error_iff.mp h)
  · exact map_eq_error_iff.mpr (map_eq_error_iff.mp h)
  · exact map_eq_error_iff.mpr (map_eq_error_iff.mp h)
  · exact map_eq_error_iff.mpr (map_eq_error_iff.mp h)
  · exact map_eq_error_iff.mpr (map_eq_error_iff.mp h)
  · exact map_eq_error_iff.mpr (map_eq_error_iff.mp h)
  · exact h

/-! ## One setting -/

/-- Whether a part of a configuration is the setting under a key, and what its values mean. -/
structure IsSetting {α : Type} (key : String) (get : Configuration → α) (Means : Value → α → Prop) :
    Prop where
  set_self : ∀ {c c' : Configuration} {v}, Sets c key v c' → Means v (get c')
  set_ne : ∀ {c c' : Configuration} {k v}, k ≠ key → Sets c k v c' → get c' = get c
  unique : ∀ {v} {a b : α}, Means v a → Means v b → a = b

/-- A value is the text of one path at most. -/
theorem IsPath.unique {p q : Path} (hp : IsPath v p) (hq : IsPath v q) : p = q := by
  obtain ⟨s, rfl, rfl⟩ := hp
  obtain ⟨t, ht, rfl⟩ := hq
  rw [Value.string.inj ht]

theorem IsText.unique {s t : String} (hs : IsText v s) (ht : IsText v t) : s = t :=
  Value.string.inj (hs.symm.trans ht)

/-- A value names one thing at most. -/
theorem Names.unique {α : Type} {nameOf : α → String} (hinj : nameOf.Injective) {a b : α}
    (ha : Names nameOf v a) (hb : Names nameOf v b) : a = b := by
  rcases ha with rfl | ⟨body, -, rfl⟩
  · rcases hb with hv | ⟨body', -, hv⟩
    · exact hinj (Value.string.inj hv)
    · exact nomatch hv
  · rcases hb with hv | ⟨body', -, hv⟩
    · exact nomatch hv
    · obtain ⟨hentry, -⟩ := List.cons.inj (Value.table.inj hv)
      exact hinj (Prod.mk.inj hentry).1

theorem isSetting_inputDir : IsSetting "input_dir" Configuration.inputDir IsPath where
  set_self h := by cases h <;> simp_all
  set_ne hne h := by cases h <;> simp_all
  unique := IsPath.unique

theorem isSetting_inputExtension :
    IsSetting "input_extension" Configuration.inputExtension IsText where
  set_self h := by cases h <;> simp_all
  set_ne hne h := by cases h <;> simp_all
  unique := IsText.unique

theorem isSetting_outputDir : IsSetting "output_dir" Configuration.outputDir IsPath where
  set_self h := by cases h <;> simp_all
  set_ne hne h := by cases h <;> simp_all
  unique := IsPath.unique

theorem isSetting_outputExtension :
    IsSetting "output_extension" Configuration.outputExtension IsText where
  set_self h := by cases h <;> simp_all
  set_ne hne h := by cases h <;> simp_all
  unique := IsText.unique

theorem isSetting_onReadError :
    IsSetting "on_read_error" Configuration.onReadError (Names ReadErrorPolicy.name) where
  set_self h := by cases h <;> simp_all
  set_ne hne h := by cases h <;> simp_all
  unique := Names.unique name_readErrorPolicy_injective

theorem isSetting_logLevel :
    IsSetting "log_level" Configuration.logLevel (Names LogLevel.name) where
  set_self h := by cases h <;> simp_all
  set_ne hne h := by cases h <;> simp_all
  unique := Names.unique name_logLevel_injective

section Setting

variable {α : Type} {get : Configuration → α} {Means : Value → α → Prop}
  {entries : List (String × Value)}

/-- After all entries of a table with distinct keys, a setting is what its key says, or what it was
before. -/
theorem IsSetting.taken_setAll (hs : IsSetting key get Means)
    (hdistinct : (entries.map Prod.fst).Nodup) (h : setAll c entries = .ok c') :
    Taken entries key Means (get c) (get c') := by
  induction entries generalizing c with
  | nil =>
    obtain rfl := Except.ok.inj h
    exact ⟨fun v hv => absurd hv List.not_mem_nil, fun _ => rfl⟩
  | cons e rest ih =>
    obtain ⟨k, v⟩ := e
    obtain ⟨hnew, hrest⟩ := List.nodup_cons.mp hdistinct
    unfold setAll at h
    split at h
    · exact nomatch h
    · next c₁ hset =>
      have htaken := ih hrest h
      have hsets := set_eq_ok_iff.mp hset
      by_cases hk : k = key
      · subst hk
        -- No later entry has the key.
        have hget : get c' = get c₁ := htaken.missing hnew
        refine ⟨fun v' hv' => ?_, fun hmissing => absurd (List.mem_cons_self ..) hmissing⟩
        rcases List.mem_cons.mp hv' with heq | hv'
        · obtain ⟨-, rfl⟩ := Prod.mk.inj heq
          rw [hget]
          exact hs.set_self hsets
        · exact absurd (List.mem_map_of_mem hv') hnew
      · refine ⟨fun v' hv' => ?_, fun hmissing => ?_⟩
        · rcases List.mem_cons.mp hv' with heq | hv'
          · exact absurd (Prod.mk.inj heq).1.symm hk
          · exact htaken.given v' hv'
        · rw [htaken.missing fun hmem => hmissing (List.mem_cons_of_mem _ hmem), hs.set_ne hk hsets]

/-- A table says one thing about a setting. -/
theorem IsSetting.taken_unique (hs : IsSetting key get Means) {default a b : α}
    (ha : Taken entries key Means default a) (hb : Taken entries key Means default b) : a = b := by
  by_cases hkey : key ∈ entries.map Prod.fst
  · obtain ⟨⟨k, v⟩, he, rfl⟩ := List.mem_map.mp hkey
    exact hs.unique (ha.given v he) (hb.given v he)
  · rw [ha.missing hkey, hb.missing hkey]

end Setting

/-! ## All entries of a table -/

variable {entries entries' : List (String × Value)} {reason : String}

/-- Entries are accepted if and only if all values fit their keys. -/
theorem exists_setAll_eq_ok_iff (c : Configuration) :
    (∃ c', setAll c entries = .ok c') ↔ ∀ e ∈ entries, Fits e.1 e.2 := by
  induction entries generalizing c with
  | nil => exact ⟨fun _ e he => absurd he List.not_mem_nil, fun _ => ⟨c, rfl⟩⟩
  | cons e rest ih =>
    rw [List.forall_mem_cons, ← exists_set_eq_ok_iff c]
    unfold setAll
    cases c.set e.1 e.2 with
    | error reason => simp
    | ok c₁ => simp [ih c₁]

/-- Entries are refused with what is wrong with the first whose value does not fit. -/
theorem setAll_eq_error_iff (c : Configuration) :
    setAll c entries = .error reason ↔
      ∃ e, IsFirst (fun e => ¬ Fits e.1 e.2) entries e ∧ c.set e.1 e.2 = .error reason := by
  induction entries generalizing c with
  | nil =>
    refine ⟨nofun, ?_⟩
    rintro ⟨e, ⟨before, after, hsplit, -⟩, -⟩
    simp at hsplit
  | cons e rest ih =>
    have hfits : (∃ c', c.set e.1 e.2 = .ok c') ↔ Fits e.1 e.2 := exists_set_eq_ok_iff c
    unfold setAll
    cases hset : c.set e.1 e.2 with
    | error reason' =>
      have hnot : ¬ Fits e.1 e.2 := by
        rw [← hfits, hset]
        rintro ⟨c', h⟩
        exact nomatch h
      rw [Except.error.injEq]
      constructor
      · rintro rfl
        exact ⟨e, isFirst_cons.mpr (.inl ⟨rfl, hnot⟩), hset⟩
      · rintro ⟨x, hx, hreason⟩
        rcases isFirst_cons.mp hx with ⟨rfl, -⟩ | ⟨hfit, -⟩
        · exact Except.error.inj (hset.symm.trans hreason)
        · exact absurd hnot hfit
    | ok c₁ =>
      have hfit : Fits e.1 e.2 := hfits.mp ⟨c₁, hset⟩
      refine (ih c₁).trans (exists_congr fun x => and_congr ?_ ?_)
      · rw [isFirst_cons]
        constructor
        · exact fun hx => .inr ⟨not_not_intro hfit, hx⟩
        · rintro (⟨rfl, hnot⟩ | ⟨-, hx⟩)
          · exact absurd hfit hnot
          · exact hx
      · exact ⟨fun h => set_eq_error h c, fun h => set_eq_error h c₁⟩

/-! ## The order of keys -/

/-- Entries are in the order of their keys. -/
theorem keyLe_iff {e e' : String × Value} : keyLe e e' = true ↔ e.1 ≤ e'.1 :=
  Std.LawfulBCmp.isLE_iff_le

/-- Sorted entries have their keys in increasing order. -/
theorem pairwise_sorted (entries : List (String × Value)) :
    (entries.mergeSort keyLe).Pairwise fun e e' => e.1 ≤ e'.1 := by
  refine (List.pairwise_mergeSort ?_ ?_ entries).imp keyLe_iff.mp
  · intro a b c hab hbc
    exact keyLe_iff.mpr (le_trans (keyLe_iff.mp hab) (keyLe_iff.mp hbc))
  · intro a b
    rw [Bool.or_eq_true, keyLe_iff, keyLe_iff]
    exact le_total a.1 b.1

/-- Sorting keeps keys distinct. -/
theorem nodup_keys_sorted (h : (entries.map Prod.fst).Nodup) :
    ((entries.mergeSort keyLe).map Prod.fst).Nodup :=
  ((List.mergeSort_perm entries keyLe).map Prod.fst).nodup_iff.mpr h

/-- The order of the entries of a table does not matter. -/
theorem ofTable_eq_of_perm (h : (entries.map Prod.fst).Nodup) (hperm : entries.Perm entries') :
    ofTable entries' = ofTable entries := by
  have hsorted : entries'.mergeSort keyLe = entries.mergeSort keyLe := by
    refine List.Perm.eq_of_pairwise ?_ (pairwise_sorted _) (pairwise_sorted _) ?_
    · intro e e' he he' hle hge
      have he := hperm.mem_iff.mpr (List.mem_mergeSort.mp he)
      exact List.inj_on_of_nodup_map h he (List.mem_mergeSort.mp he') (le_antisymm hle hge)
    · exact (List.mergeSort_perm ..).trans (hperm.symm.trans (List.mergeSort_perm ..).symm)
  rw [ofTable, hsorted, ofTable]

/-- Whether an entry does not fit, and no entry that does not fit has a key that is smaller in
bytes. -/
def IsLeastFault (entries : List (String × Value)) (e : String × Value) : Prop :=
  e ∈ entries ∧ ¬ Fits e.1 e.2 ∧ ∀ e' ∈ entries, ¬ Fits e'.1 e'.2 → bytes e.1 ≤ bytes e'.1

/-- The first fault of a table in the order of keys is the least. -/
theorem isFirst_sorted_iff (h : (entries.map Prod.fst).Nodup) {e : String × Value} :
    IsFirst (fun e => ¬ Fits e.1 e.2) (entries.mergeSort keyLe) e ↔ IsLeastFault entries e := by
  have hne : (entries.mergeSort keyLe).Pairwise fun e e' => e.1 ≠ e'.1 :=
    List.pairwise_map.mp (nodup_keys_sorted h)
  have hsorted : (entries.mergeSort keyLe).Pairwise fun e e' => bytes e.1 < bytes e'.1 := by
    refine (hne.and (pairwise_sorted entries)).imp ?_
    rintro e e' ⟨hne, hle⟩
    exact bytes_lt_iff.mpr (lt_of_le_of_ne hle hne)
  rw [isFirst_iff_of_pairwise hsorted fun e e' => List.lt_asymm]
  simp only [List.mem_mergeSort]
  rfl

/-! ## Tables -/

/-- A table gives a configuration if and only if all its values fit their keys. -/
theorem exists_ofTable_eq_ok_iff :
    (∃ c, ofTable entries = .ok c) ↔ ∀ e ∈ entries, Fits e.1 e.2 := by
  unfold ofTable
  rw [exists_setAll_eq_ok_iff]
  simp only [List.mem_mergeSort]

/-- The configuration that a table gives is what the table says. -/
theorem described_of_ofTable (h : (entries.map Prod.fst).Nodup) (hc : ofTable entries = .ok c) :
    Described entries c := by
  have htaken : ∀ {α : Type} {key : String} {get : Configuration → α} {Means : Value → α → Prop},
      IsSetting key get Means → Taken entries key Means (get {}) (get c) := by
    intro α key get Means hs
    have hsorted := hs.taken_setAll (nodup_keys_sorted h) hc
    refine ⟨fun v hv => hsorted.given v (List.mem_mergeSort.mpr hv), fun hmissing => ?_⟩
    refine hsorted.missing fun hmem => hmissing ?_
    exact ((List.mergeSort_perm entries keyLe).map Prod.fst).mem_iff.mp hmem
  exact ⟨htaken isSetting_inputDir, htaken isSetting_inputExtension, htaken isSetting_outputDir,
    htaken isSetting_outputExtension, htaken isSetting_onReadError, htaken isSetting_logLevel⟩

/-- A table describes at most one configuration. -/
theorem Described.unique (h : Described entries c) (h' : Described entries c') : c = c' := by
  have h₁ := isSetting_inputDir.taken_unique h.inputDir h'.inputDir
  have h₂ := isSetting_inputExtension.taken_unique h.inputExtension h'.inputExtension
  have h₃ := isSetting_outputDir.taken_unique h.outputDir h'.outputDir
  have h₄ := isSetting_outputExtension.taken_unique h.outputExtension h'.outputExtension
  have h₅ := isSetting_onReadError.taken_unique h.onReadError h'.onReadError
  have h₆ := isSetting_logLevel.taken_unique h.logLevel h'.logLevel
  cases c
  cases c'
  simp_all

/-- A table gives the configuration that it describes, if all its values fit. -/
theorem ofTable_eq_ok_iff (h : (entries.map Prod.fst).Nodup) :
    ofTable entries = .ok c ↔ (∀ e ∈ entries, Fits e.1 e.2) ∧ Described entries c := by
  constructor
  · exact fun hc => ⟨exists_ofTable_eq_ok_iff.mp ⟨c, hc⟩, described_of_ofTable h hc⟩
  · rintro ⟨hfits, hc⟩
    obtain ⟨c', hc'⟩ := exists_ofTable_eq_ok_iff.mpr hfits
    rwa [hc.unique (described_of_ofTable h hc')]

/-- A single entry sets its setting over the defaults. -/
theorem ofTable_singleton (e : String × Value) :
    ofTable [e] = ({} : Configuration).set e.1 e.2 := by
  unfold ofTable
  rw [List.mergeSort_singleton, setAll]
  cases ({} : Configuration).set e.1 e.2 with
  | error reason => rfl
  | ok c => rfl

/-- The error of a table is the one that its least offending entry has alone. -/
theorem ofTable_eq_error_iff (h : (entries.map Prod.fst).Nodup) :
    ofTable entries = .error reason ↔
      ∃ e, IsLeastFault entries e ∧ ofTable [e] = .error reason := by
  rw [ofTable, setAll_eq_error_iff]
  simp only [isFirst_sorted_iff h, ofTable_singleton]

/-! ## Another order of keys, in the values too -/

/-- Values that differ in the order of keys are the same string or the same misfit. -/
theorem decodeString_of_alike {expected : String} {v v' : Value} (h : v.Alike v') :
    decodeString expected v' = decodeString expected v := by
  cases h with
  | refl => rfl
  | array => rfl
  | table => rfl

/-- Values that differ in the order of keys are empty bodies alike. -/
theorem decodeEmpty_of_alike {v v' : Value} (h : v.Alike v') : decodeEmpty v' = decodeEmpty v := by
  cases h with
  | refl => rfl
  | array places h =>
    cases places with
    | nil => rfl
    | cons p rest => rfl
  | @table rows es es' h hes hes' =>
    have hlength : es.length = es'.length := by
      rw [hes.length_eq, hes'.length_eq, List.length_map, List.length_map]
    match es, es', hlength with
    | [], [], _ => rfl
    | _ :: _, _ :: _, _ => rfl

/-- A table with several keys names nothing, whatever the keys are. -/
theorem decodeChoice_of_length {α : Type} {all : List α} {nameOf : α → String}
    (h : 2 ≤ entries.length) : decodeChoice all nameOf (.table entries)
      = .error "wanted exactly 1 element, more than 1 element" := by
  match entries, h with
  | _ :: _ :: _, _ => rfl

/-- Values that differ in the order of keys name the same. -/
theorem decodeChoice_of_alike {α : Type} {all : List α} {nameOf : α → String} {v v' : Value}
    (h : v.Alike v') : decodeChoice all nameOf v' = decodeChoice all nameOf v := by
  cases h with
  | refl => rfl
  | array => rfl
  | @table rows es es' h hes hes' =>
    match rows, hes, hes' with
    | [], hes, hes' =>
      obtain rfl := hes.eq_nil
      obtain rfl := hes'.eq_nil
      rfl
    | [r], hes, hes' =>
      obtain rfl := List.perm_singleton.mp hes
      obtain rfl := List.perm_singleton.mp hes'
      have hbody : decodeEmpty r.2.2 = decodeEmpty r.2.1 :=
        decodeEmpty_of_alike (h r (List.mem_singleton_self r))
      simp only [decodeChoice, hbody]
    | _ :: _ :: _, hes, hes' =>
      have hes := hes.length_eq
      have hes' := hes'.length_eq
      simp only [List.length_map, List.length_cons] at hes hes'
      rw [decodeChoice_of_length (by omega), decodeChoice_of_length (by omega)]

/-- What an entry does has nothing to do with the order of keys in its value. -/
theorem set_of_alike {v v' : Value} (h : v.Alike v') : c.set key v' = c.set key v := by
  unfold set
  simp only [decodeString_of_alike h, decodeChoice_of_alike h]

/-- What a list of entries does has nothing to do with the order of keys in the values. -/
theorem setAll_of_alike {rows : List (String × Value × Value)} (c : Configuration)
    (h : ∀ r ∈ rows, r.2.1.Alike r.2.2) :
    setAll c (rows.map fun r => (r.1, r.2.2)) = setAll c (rows.map fun r => (r.1, r.2.1)) := by
  induction rows generalizing c with
  | nil => rfl
  | cons r rest ih =>
    obtain ⟨hr, hrest⟩ := List.forall_mem_cons.mp h
    rw [List.map_cons, List.map_cons, setAll, setAll, set_of_alike hr]
    cases c.set r.1 r.2.1 with
    | error reason => rfl
    | ok c₁ => exact ih c₁ hrest

/-- **The order of keys does not matter**, not in the values either. -/
theorem ofTable_eq_of_alike (h : (entries.map Prod.fst).Nodup)
    (halike : (Value.table entries).Alike (.table entries')) :
    ofTable entries' = ofTable entries := by
  obtain ⟨rows, hrows, hes, hes'⟩ := Value.alike_table_iff.mp halike
  have hkeys : (rows.map fun r => (r.1, r.2.2)).map Prod.fst
      = (rows.map fun r => (r.1, r.2.1)).map Prod.fst := by simp [Function.comp_def]
  have hleft : ((rows.map fun r => (r.1, r.2.1)).map Prod.fst).Nodup :=
    (hes.map Prod.fst).nodup_iff.mp h
  rw [← ofTable_eq_of_perm h hes, ofTable_eq_of_perm (hkeys ▸ hleft) hes'.symm]
  -- Rows are sorted by their keys, so both tables are.
  let le := fun r r' : String × Value × Value => keyLe (r.1, r.2.1) (r'.1, r'.2.1)
  have hsort : ∀ f : String × Value × Value → Value,
      (rows.map fun r => (r.1, f r)).mergeSort keyLe
        = (rows.mergeSort le).map fun r => (r.1, f r) := by
    intro f
    symm
    exact List.map_mergeSort fun r _ r' _ => rfl
  rw [ofTable, ofTable, hsort fun r => r.2.1, hsort fun r => r.2.2]
  exact setAll_of_alike {} fun r hr => hrows r (List.mem_mergeSort.mp hr)

/-! ## Documents -/

/-- What decoding promises of a table with the result `r`. -/
structure Decodes (entries : List (String × Value)) (r : Except String Configuration) : Prop where
  accepted : (∃ c, r = .ok c) ↔ ∀ e ∈ entries, Fits e.1 e.2
  described : ∀ c, r = .ok c ↔ (∀ e ∈ entries, Fits e.1 e.2) ∧ Described entries c
  refused : ∀ reason, r = .error reason ↔
    ∃ e, IsLeastFault entries e ∧ ofTable [e] = .error reason

/-- A table with distinct keys is decoded as it describes. -/
theorem decodes_ofTable (h : (entries.map Prod.fst).Nodup) : Decodes entries (ofTable entries) where
  accepted := exists_ofTable_eq_ok_iff
  described _ := ofTable_eq_ok_iff h
  refused _ := ofTable_eq_error_iff h

variable {read : Toml.TableReader}

/-- The text of a document is decoded as its table, also if the text is blank. -/
theorem ofText_of_read (hlawful : read.Lawful) {text : String} (h : read text = some entries) :
    ofText read text
      = (ofTable entries).mapError fun reason => .configParse (.mismatch reason) := by
  unfold ofText
  split
  · next hblank =>
    rw [hlawful.eq_nil_of_allBlank h hblank, ofTable, List.mergeSort_nil]
    rfl
  · rw [h]
    dsimp only
    cases ofTable entries with
    | error reason => rfl
    | ok c => rfl

/-- A blank text leaves the defaults, and no reader is asked. -/
theorem ofText_of_allBlank {text : String} (h : Text.allBlank text.toList = true) :
    ofText read text = .ok {} := by
  rw [ofText, if_pos h]

/-- **Decoding accepts exactly the tables that describe a configuration.** A table with distinct
keys is accepted if and only if every key is that of a setting and its value fits it; each setting
is then what its key says, or the default if the key is missing. If the table is refused, the error
is that of the least key in bytes that is unknown or has a value that does not fit, as if there were
no other. Tables that differ only in the order of keys are decoded alike. For any lawful reader of
documents, and the one that is used is lawful, a document has distinct keys and is decoded as its
table, and a blank text leaves the defaults, whether it is a document or not. -/
theorem ofToml_decodes_tables :
    (∀ entries : List (String × Value), (entries.map Prod.fst).Nodup →
      Decodes entries (ofTable entries) ∧
        ∀ entries', (Value.table entries).Alike (.table entries') →
          ofTable entries' = ofTable entries) ∧
      (∀ read : Toml.TableReader, read.Lawful →
        (∀ text entries, read text = some entries → (entries.map Prod.fst).Nodup ∧
          ∃ r, Decodes entries r ∧
            ofText read text = r.mapError fun reason => .configParse (.mismatch reason)) ∧
        (∀ text text' entries entries', read text = some entries → read text' = some entries' →
          (Value.table entries).Alike (.table entries') → ofText read text' = ofText read text) ∧
        ∀ text : String, Text.allBlank text.toList = true → ofText read text = .ok {}) ∧
      Toml.TableReader.Lawful Toml.parse? ∧ ∀ text, ofToml text = ofText Toml.parse? text := by
  refine ⟨?_, ?_, Toml.lawful_parse?, fun _ => rfl⟩
  · exact fun entries h => ⟨decodes_ofTable h, fun entries' => ofTable_eq_of_alike h⟩
  intro read hlawful
  refine ⟨?_, ?_, fun text => ofText_of_allBlank⟩
  · intro text entries h
    have hdistinct := hlawful.nodup_keys h
    exact ⟨hdistinct, ofTable entries, decodes_ofTable hdistinct, ofText_of_read hlawful h⟩
  · intro text text' entries entries' h h' halike
    rw [ofText_of_read hlawful h, ofText_of_read hlawful h',
      ofTable_eq_of_alike (hlawful.nodup_keys h) halike]

/-- An unknown key, and no path where a path is wanted. -/
def twoFaults : List (String × Value) :=
  [("zz", .boolean true), ("input_dir", .boolean true)]

theorem isLeastFault_twoFaults : IsLeastFault twoFaults ("input_dir", .boolean true) := by
  refine ⟨by simp [twoFaults], ?_, ?_⟩
  · intro h
    cases h with
    | inputDir hkey h => exact nomatch h
    | inputExtension hkey => exact absurd hkey (by decide)
    | outputDir hkey => exact absurd hkey (by decide)
    | outputExtension hkey => exact absurd hkey (by decide)
    | onReadError hkey => exact absurd hkey (by decide)
    | logLevel hkey => exact absurd hkey (by decide)
  · intro e he _
    have hcases : e = ("zz", .boolean true) ∨ e = ("input_dir", .boolean true) := by
      simpa [twoFaults] using he
    rcases hcases with rfl | rfl
    · decide
    · decide

/-- The directory is reported, wherever it stands: its key comes before the unknown one in bytes. -/
theorem ofToml_of_twoFaults :
    ofToml "zz = true\ninput_dir = true\n"
        = .error (.configParse (.mismatch "invalid type: boolean `true`, expected path string")) ∧
      ofToml "input_dir = true\nzz = true\n" = ofToml "zz = true\ninput_dir = true\n" ∧
      ofTable twoFaults.reverse = ofTable twoFaults ∧ ofToml "\u3000" = .ok {} := by
  obtain ⟨htables, hreaders, hlawful, -⟩ := ofToml_decodes_tables
  obtain ⟨htexts, horders, hblank⟩ := hreaders _ hlawful
  have hparse : Toml.parse? "zz = true\ninput_dir = true\n" = some twoFaults := by cbv
  have hparse' : Toml.parse? "input_dir = true\nzz = true\n" = some twoFaults.reverse := by cbv
  have halike : (Value.table twoFaults).Alike (.table twoFaults.reverse) :=
    Value.alike_table_iff.mpr (Value.exists_rows_of_perm (List.reverse_perm _).symm)
  refine ⟨?_, horders _ _ _ _ hparse hparse' halike, (htables twoFaults (by decide)).2 _ halike,
    hblank _ (by decide)⟩
  obtain ⟨-, r, hr, htext⟩ := htexts _ _ hparse
  have hreason : r = .error "invalid type: boolean `true`, expected path string" :=
    (hr.refused _).mpr ⟨_, isLeastFault_twoFaults, ofTable_singleton _⟩
  rw [ofToml, htext, hreason]
  rfl

end JavaEntities.Configuration
