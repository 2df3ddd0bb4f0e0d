import JavaEntities.Proofs.Configuration.Decode
import JavaEntities.Settings

/-!
# The layers of the settings

The configuration of a run is told by what the user asks for and by the table of the configuration
file (`Merged`), in which a setting that neither of them gives has its default. Either the file
gives such a table (`Gives`), or there are no settings, whatever else the user asks for
(`Unusable`). The merged configuration is the only thing that is checked (`resolve_layers`).
-/

namespace JavaEntities.Settings

open Toml (Value)
open JavaEntities.Configuration (Taken IsPath IsText Names Fits Described IsLeastFault)

variable {read : Toml.TableReader} {fs : FileSystem} {base : Path} {o : Overrides}
  {source : Option Path} {file : Path} {entries : List (String × Value)} {c c' : Configuration}
  {e : Error}

/-! ## The configuration file -/

/-- Which configuration file is read: the one that is named, or else the usual one, if it is
there. -/
inductive Chosen (fs : FileSystem) (base : Path) (o : Overrides) : Option Path → Prop
  | named {file : Path} (hnamed : o.config = some file) : Chosen fs base o (some file)
  | usual (hunnamed : o.config = none)
      (hfile : fs.isFile (base.join Configuration.fileName) = true) :
      Chosen fs base o (some (base.join Configuration.fileName))
  | absent (hunnamed : o.config = none)
      (hfile : fs.isFile (base.join Configuration.fileName) = false) : Chosen fs base o none

/-- Why a file gives no configuration: it cannot be read, it is no document, or a key of it is
unknown or has a value that does not fit. -/
inductive Unusable (read : Toml.TableReader) (fs : FileSystem) (file : Path) : Error → Prop
  | unreadable {cause : IoCause} (hread : fs.readText file = .error cause) :
      Unusable read fs file (.config (.unreadable file cause))
  | malformed {text : String} (hread : fs.readText file = .ok text)
      (hblank : Text.allBlank text.toList = false) (hparse : read text = none) :
      Unusable read fs file (.configParse .malformed)
  | mismatch {text : String} {entries : List (String × Value)} {e : String × Value}
      {reason : String} (hread : fs.readText file = .ok text)
      (hparse : read text = some entries) (hfault : IsLeastFault entries e)
      (hreason : Configuration.ofTable [e] = .error reason) :
      Unusable read fs file (.configParse (.mismatch reason))

/-- The table that the configuration file gives. Without a file, and in a blank one, there is
nothing. -/
inductive Gives (read : Toml.TableReader) (fs : FileSystem) :
    Option Path → List (String × Value) → Prop
  | absent : Gives read fs none []
  | blank {file : Path} {text : String} (hread : fs.readText file = .ok text)
      (hblank : Text.allBlank text.toList = true) : Gives read fs (some file) []
  | table {file : Path} {text : String} {entries : List (String × Value)}
      (hread : fs.readText file = .ok text) (hparse : read text = some entries)
      (hfits : ∀ e ∈ entries, Fits e.1 e.2) : Gives read fs (some file) entries

/-- The file that is chosen is the one that is found. -/
theorem chosen_iff : Chosen fs base o source ↔ choose fs base o = source := by
  unfold choose
  constructor
  · intro h
    cases h with
    | named hnamed => rw [hnamed]
    | usual hunnamed hfile => simp only [hunnamed, hfile, if_true]
    | absent hunnamed hfile => simp only [hunnamed, hfile, Bool.false_eq_true, if_false]
  · rintro rfl
    split
    · next file hnamed => exact .named hnamed
    · next hunnamed =>
      dsimp only
      split
      · next hfile => exact .usual hunnamed hfile
      · next hfile => exact .absent hunnamed (Bool.eq_false_iff.mpr hfile)

/-- A file cannot be used, or it gives a table. -/
theorem unusable_or_gives (hlawful : read.Lawful) (fs : FileSystem) (source : Option Path) :
    (∃ file e, source = some file ∧ Unusable read fs file e) ∨
      ∃ entries, Gives read fs source entries := by
  cases source with
  | none => exact .inr ⟨[], .absent⟩
  | some file =>
    cases hread : fs.readText file with
    | error cause => exact .inl ⟨file, _, rfl, .unreadable hread⟩
    | ok text =>
      cases hblank : Text.allBlank text.toList with
      | true => exact .inr ⟨[], .blank hread hblank⟩
      | false =>
        cases hparse : read text with
        | none => exact .inl ⟨file, _, rfl, .malformed hread hblank hparse⟩
        | some entries =>
          have hdecodes := Configuration.decodes_ofTable (hlawful.nodup_keys hparse)
          cases htable : Configuration.ofTable entries with
          | error reason =>
            obtain ⟨e, hfault, hreason⟩ := (hdecodes.refused reason).mp htable
            exact .inl ⟨file, _, rfl, .mismatch hread hparse hfault hreason⟩
          | ok c => exact .inr ⟨entries, .table hread hparse (hdecodes.accepted.mp ⟨c, htable⟩)⟩

/-- A file that cannot be used gives its error. -/
theorem underlying_of_unusable (hlawful : read.Lawful) (h : Unusable read fs file e) :
    underlying read fs (some file) = .error (.file file e) := by
  have hfile : Configuration.ofFile read fs file = .error e := by
    unfold Configuration.ofFile
    cases h with
    | unreadable hread => rw [hread]
    | malformed hread hblank hparse =>
      rw [hread]
      simp only [Configuration.ofText, hblank, hparse, Bool.false_eq_true, if_false]
    | mismatch hread hparse hfault hreason =>
      have hdecodes := Configuration.decodes_ofTable (hlawful.nodup_keys hparse)
      have htable := (hdecodes.refused _).mpr ⟨_, hfault, hreason⟩
      rw [hread]
      show Configuration.ofText read _ = _
      rw [Configuration.ofText_of_read hlawful hparse, htable]
      rfl
  rw [underlying, hfile]

theorem described_nil : Described [] {} := by
  have htaken : ∀ {α : Type} {key : String} {Means : Value → α → Prop} (default : α),
      Taken [] key Means default default :=
    fun default => ⟨fun v hv => absurd hv List.not_mem_nil, fun _ => rfl⟩
  exact ⟨htaken _, htaken _, htaken _, htaken _, htaken _, htaken _⟩

/-- Below what the user asks for is what the file and the defaults say. -/
theorem underlying_of_gives (hlawful : read.Lawful) (h : Gives read fs source entries) :
    ∃ c, underlying read fs source = .ok c ∧ Described entries c := by
  cases h with
  | absent => exact ⟨{}, rfl, described_nil⟩
  | blank hread hblank =>
    refine ⟨{}, ?_, described_nil⟩
    simp only [underlying, Configuration.ofFile, hread, Configuration.ofText_of_allBlank hblank]
  | table hread hparse hfits =>
    have hdecodes := Configuration.decodes_ofTable (hlawful.nodup_keys hparse)
    obtain ⟨c, hc⟩ := hdecodes.accepted.mpr hfits
    refine ⟨c, ?_, ((hdecodes.described c).mp hc).2⟩
    simp only [underlying, Configuration.ofFile, hread,
      Configuration.ofText_of_read hlawful hparse, hc, Except.mapError]

/-! ## One layer over another -/

/-- Whether a setting is what the user asks for, or what is below if the user asks for nothing. -/
inductive Layered {α : Type} (asked : Option α) (Below : α → Prop) (a : α) : Prop
  | given (h : asked = some a) : Layered asked Below a
  | below (h : asked = none) (ha : Below a) : Layered asked Below a

/-- Whether a configuration is what the user asks for, over what a table says, over the defaults.
The user can only ask to pass over inputs, not to stop at them, so for that it is enough that the
user or the table says so. -/
structure Merged (o : Overrides) (entries : List (String × Value)) (c : Configuration) : Prop where
  inputDir : Layered o.inputDir (Taken entries "input_dir" IsPath ⟨"."⟩) c.inputDir
  outputDir : Layered o.outputDir (Taken entries "output_dir" IsPath ⟨"out"⟩) c.outputDir
  logLevel : Layered o.logLevel (Taken entries "log_level" (Names LogLevel.name) .info) c.logLevel
  onReadError : c.onReadError = .skip ↔ o.skipUnreadable = true ∨
    ∃ v, ("on_read_error", v) ∈ entries ∧ Names ReadErrorPolicy.name v .skip
  inputExtension : Taken entries "input_extension" IsText "csv" c.inputExtension
  outputExtension : Taken entries "output_extension" IsText "java" c.outputExtension

theorem layered_getD {α : Type} {asked : Option α} {Below : α → Prop} {a : α} (ha : Below a) :
    Layered asked Below (asked.getD a) := by
  cases asked with
  | none => exact .below rfl ha
  | some b => exact .given rfl

/-- A layered setting is one at most, if what is below is. -/
theorem Layered.unique {α : Type} {asked : Option α} {Below : α → Prop} {a b : α}
    (hbelow : Below a → Below b → a = b) (ha : Layered asked Below a)
    (hb : Layered asked Below b) : a = b := by
  rcases ha with ha | ⟨hnone, ha⟩
  · rcases hb with hb | ⟨hnone, -⟩
    · exact Option.some.inj (ha.symm.trans hb)
    · exact nomatch ha.symm.trans hnone
  · rcases hb with hb | ⟨-, hb⟩
    · exact nomatch hb.symm.trans hnone
    · exact hbelow ha hb

/-- A table says to pass over inputs if and only if its key does. -/
theorem skip_iff (h : Described entries c) : c.onReadError = .skip ↔
    ∃ v, ("on_read_error", v) ∈ entries ∧ Names ReadErrorPolicy.name v .skip := by
  constructor
  · intro hskip
    by_cases hkey : "on_read_error" ∈ entries.map Prod.fst
    · obtain ⟨⟨k, v⟩, hv, rfl⟩ := List.mem_map.mp hkey
      exact ⟨v, hv, hskip ▸ h.onReadError.given v hv⟩
    · exact nomatch hskip.symm.trans (h.onReadError.missing hkey)
  · rintro ⟨v, hv, hskip⟩
    exact Configuration.isSetting_onReadError.unique (h.onReadError.given v hv) hskip

/-- What the user asks for over what the file says is the merged configuration. -/
theorem merged_apply (h : Described entries c) : Merged o entries (o.apply c) where
  inputDir := layered_getD h.inputDir
  outputDir := layered_getD h.outputDir
  logLevel := layered_getD h.logLevel
  onReadError := by
    rw [← skip_iff h]
    show (if o.skipUnreadable then ReadErrorPolicy.skip else c.onReadError) = .skip ↔ _
    cases o.skipUnreadable with
    | true => simp
    | false => simp
  inputExtension := h.inputExtension
  outputExtension := h.outputExtension

/-- The settings before they are checked hold the merged configuration. -/
theorem merged_of_gather (hlawful : read.Lawful) {s : Settings}
    (h : gather read fs base o = .ok s) : ∃ entries, Merged o entries s.configuration := by
  unfold gather at h
  rcases unusable_or_gives hlawful fs (choose fs base o) with
    ⟨file, e, hsource, hunusable⟩ | ⟨entries, hgives⟩
  · rw [hsource] at h
    simp only [underlying_of_unusable hlawful hunusable] at h
    exact nomatch h
  · obtain ⟨c, hc, hdescribed⟩ := underlying_of_gives hlawful hgives
    simp only [hc] at h
    obtain rfl := Except.ok.inj h
    exact ⟨entries, merged_apply hdescribed⟩

/-- There is at most one merged configuration. -/
theorem Merged.unique (h : Merged o entries c) (h' : Merged o entries c') : c = c' := by
  have h₁ := h.inputDir.unique Configuration.isSetting_inputDir.taken_unique h'.inputDir
  have h₂ := h.outputDir.unique Configuration.isSetting_outputDir.taken_unique h'.outputDir
  have h₃ := h.logLevel.unique Configuration.isSetting_logLevel.taken_unique h'.logLevel
  have h₄ : c.onReadError = .skip ↔ c'.onReadError = .skip :=
    h.onReadError.trans h'.onReadError.symm
  have h₅ := Configuration.isSetting_inputExtension.taken_unique h.inputExtension h'.inputExtension
  have h₆ := Configuration.isSetting_outputExtension.taken_unique h.outputExtension
    h'.outputExtension
  have h₇ : c.onReadError = c'.onReadError := by
    cases hc : c.onReadError <;> cases hc' : c'.onReadError <;> simp_all
  cases c
  cases c'
  simp_all

/-! ## All layers -/

/-- A file that cannot be used leaves no settings. -/
theorem resolve_of_unusable (hlawful : read.Lawful) (hsource : Chosen fs base o (some file))
    (h : Unusable read fs file e) :
    resolve read fs base o = .error (.file file e) := by
  rw [resolve, gather, chosen_iff.mp hsource, underlying_of_unusable hlawful h]

/-- With a file that gives a table, the verdict on the merged configuration is that on the
settings. -/
theorem resolve_of_merged (hlawful : read.Lawful) (hsource : Chosen fs base o source)
    (h : Gives read fs source entries) (hc : Merged o entries c) : resolve read fs base o =
      match c.check fs with
      | .error fault => .error (.outcome fault)
      | .ok _ => .ok ⟨c, source⟩ := by
  obtain ⟨c₀, hunderlying, hdescribed⟩ := underlying_of_gives hlawful h
  have happly : o.apply c₀ = c := (merged_apply hdescribed).unique hc
  have hgather : gather read fs base o = .ok ⟨c, source⟩ := by
    rw [gather, chosen_iff.mp hsource, hunderlying, ← happly]
  unfold resolve
  cases hcheck : c.check fs with
  | error fault => simp only [hgather, hcheck]
  | ok _ => simp only [hgather, hcheck]

/-- **What the user asks for counts before the file, the file before the defaults, and only the
outcome is judged.** The file that is chosen cannot be used, or it gives a table. If it cannot be
used, there are no settings, for a reason that has nothing to do with what else the user asks for.
If it gives a table, there is one merged configuration. The settings are this configuration and the
chosen file, if and only if the check accepts the configuration; otherwise the fault that the check
finds is the error. All this holds of any lawful reader of configuration files. -/
theorem resolve_layers {read : Toml.TableReader} (hlawful : read.Lawful) (fs : FileSystem)
    (base : Path) (o : Overrides) :
    (∃ source, Chosen fs base o source ∧
        ((∃ file e, source = some file ∧ Unusable read fs file e) ∨
          ∃ entries, Gives read fs source entries)) ∧
      (∀ file e, Chosen fs base o (some file) → Unusable read fs file e →
        resolve read fs base o = .error (.file file e)) ∧
      ∀ source entries, Chosen fs base o source → Gives read fs source entries →
        (∃! c, Merged o entries c) ∧
          ∀ c, Merged o entries c →
            (∀ s, resolve read fs base o = .ok s ↔ c.check fs = .ok () ∧ s = ⟨c, source⟩) ∧
              ∀ e, resolve read fs base o = .error e ↔
                ∃ fault, c.check fs = .error fault ∧ e = .outcome fault := by
  refine ⟨⟨choose fs base o, chosen_iff.mpr rfl, unusable_or_gives hlawful fs _⟩,
    fun file e => resolve_of_unusable hlawful, ?_⟩
  intro source entries hsource hgives
  constructor
  · obtain ⟨c, -, hdescribed⟩ := underlying_of_gives hlawful hgives
    exact ⟨o.apply c, merged_apply hdescribed, fun c' hc' => hc'.unique (merged_apply hdescribed)⟩
  · intro c hc
    rw [resolve_of_merged hlawful hsource hgives hc]
    cases c.check fs with
    | error fault => simp [eq_comm]
    | ok _ => simp [eq_comm]

/-- A directory with a configuration file whose output has no path. -/
def noOutput : FileSystem where
  root := .dir [("entitygen.toml", .file "output_dir=\"\"".toUTF8)]

/-- A file that is rejected on its own is no fault if the user asks for another output. -/
theorem resolve_of_noOutput :
    resolve Toml.parse? noOutput ⟨""⟩ {} = .error (.outcome (.config .emptyOutputDir)) ∧
      resolve Toml.parse? noOutput ⟨""⟩ { outputDir := some ⟨"gen"⟩ }
        = .ok ⟨{ outputDir := ⟨"gen"⟩ }, some ⟨"entitygen.toml"⟩⟩ := by
  have hread : noOutput.readText ⟨"entitygen.toml"⟩ = .ok "output_dir=\"\"" := by rfl
  have hparse : Toml.parse? "output_dir=\"\"" = some [("output_dir", .string "")] := by cbv
  have htable : Configuration.ofTable [("output_dir", .string "")] = .ok { outputDir := ⟨""⟩ } :=
    Configuration.ofTable_singleton _
  obtain ⟨hfits, hdescribed⟩ := (Configuration.ofTable_eq_ok_iff (by decide)).mp htable
  have hgives : Gives Toml.parse? noOutput (some ⟨"entitygen.toml"⟩) [("output_dir", .string "")] :=
    .table hread hparse hfits
  have hchosen : ∀ o : Overrides, o.config = none →
      Chosen noOutput ⟨""⟩ o (some ⟨"entitygen.toml"⟩) :=
    fun o hunnamed => .usual hunnamed (by decide +kernel)
  constructor
  · obtain ⟨-, -, hlayers⟩ := resolve_layers Toml.lawful_parse? noOutput ⟨""⟩ {}
    obtain ⟨-, hverdict⟩ := hlayers _ _ (hchosen _ rfl) hgives
    exact ((hverdict _ (merged_apply hdescribed)).2 _).mpr ⟨_, by decide +kernel, rfl⟩
  · obtain ⟨-, -, hlayers⟩ :=
      resolve_layers Toml.lawful_parse? noOutput ⟨""⟩ { outputDir := some ⟨"gen"⟩ }
    obtain ⟨-, hverdict⟩ := hlayers _ _ (hchosen _ rfl) hgives
    exact ((hverdict _ (merged_apply hdescribed)).1 _).mpr ⟨by decide +kernel, rfl⟩

end JavaEntities.Settings
