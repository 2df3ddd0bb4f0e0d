import JavaEntities.Configuration.File
import JavaEntities.Proofs.Configuration.Check
import JavaEntities.Proofs.Discovery.Names
import JavaEntities.Proofs.FileSystem.Everywhere
import JavaEntities.Proofs.Generation.Loading
import JavaEntities.Proofs.Loading.Reading

/-!
# What the stages of a run fail with

Each stage has errors of its own: a text that is no configuration, a configuration that
does not pass its check, a directory that cannot be listed and an input that cannot be
read. Where names are texts, that of an input that was discovered always gives an identifier
(`identifierOf_of_mem_discover`), so reading an input fails only where its text cannot be
read. Loading fails in two ways, by the listing or by the first input that cannot be read
(`loadInputs_error_iff`).
-/

namespace JavaEntities

/-! ## Configurations -/

namespace Configuration

variable {c : Configuration} {fs : FileSystem} {e : Error}

/-- The error of a text is a fault of the text, not of the outcome. -/
theorem error_of_ofText {read : Toml.TableReader} {text : String}
    (h : ofText read text = .error e) : ∃ fault, e = .configParse fault := by
  unfold ofText at h
  split at h
  · exact nomatch h
  · split at h
    · exact ⟨_, (Except.error.inj h).symm⟩
    · split at h
      · exact ⟨_, (Except.error.inj h).symm⟩
      · exact nomatch h

end Configuration

/-! ## Identifiers of inputs -/

variable {fs : FileSystem} {dir p : Path} {extension : String} {inputs : List Path} {e : Error}

/-- **Every input that was discovered has an identifier**, in a directory whose names are texts. -/
theorem identifierOf_of_mem_discover (hnames : fs.root.WellNamed) (htexts : fs.ListsTexts dir)
    (h : discover fs dir extension = .ok inputs) (hp : p ∈ inputs) :
    ∃ identifier, identifierOf p = some identifier := by
  obtain ⟨names, hlist, rfl⟩ := Configuration.discover_eq_ok h
  obtain ⟨n, hn, -, hstem⟩ :=
    identifierOf_of_mem_inputsAmong (FileSystem.names_of_list hnames hlist).1 hp
  obtain ⟨s, -, hidentifier, -⟩ := hstem (htexts names hlist n hn)
  exact ⟨beforeDot s, hidentifier⟩

/-! ## Loading -/

namespace Configuration

variable {c : Configuration}

/-- Whether an input is the first in the order of paths whose text cannot be read. -/
def FirstUnreadable (c : Configuration) (fs : FileSystem) (p : Path) (cause : IoCause) : Prop :=
  ∃ before after, discover fs c.inputDir c.inputExtension = .ok (before ++ p :: after) ∧
    (∀ q ∈ before, ∃ text, fs.readText q = .ok text) ∧ fs.readText p = .error cause

/-- The first input at fault is the first that cannot be read, since each has an identifier. -/
theorem firstError_eq_some_iff_firstUnreadable (hnames : fs.root.WellNamed)
    (htexts : fs.ListsTexts c.inputDir)
    (h : discover fs c.inputDir c.inputExtension = .ok inputs) :
    firstError (readSchema fs) inputs = some e ↔
      ∃ p cause, c.FirstUnreadable fs p cause ∧ e = .inputRead p cause := by
  have hread : ∀ p ∈ inputs, ∀ e, readSchema fs p = .error e ↔
      ∃ cause, fs.readText p = .error cause ∧ e = .inputRead p cause :=
    fun p hp e => readSchema_eq_error_iff (identifierOf_of_mem_discover hnames htexts h hp)
  have hreadable : ∀ p ∈ inputs, (¬ ∃ e, readSchema fs p = .error e) ↔
      ∃ text, fs.readText p = .ok text := by
    intro p hp
    simp only [hread p hp]
    cases fs.readText p with
    | error cause => simp
    | ok text => simp
  rw [firstError_eq_some_iff]
  constructor
  · rintro ⟨before, p, after, rfl, herror, hbefore⟩
    obtain ⟨cause, hcause, rfl⟩ := (hread p (by simp) _).mp herror
    exact ⟨p, cause, ⟨before, after, h, fun q hq =>
      (hreadable q (by simp [hq])).mp (hbefore q hq), hcause⟩, rfl⟩
  · rintro ⟨p, cause, ⟨before, after, hinputs, hbefore, hcause⟩, rfl⟩
    obtain rfl := Except.ok.inj (h.symm.trans hinputs)
    exact ⟨before, p, after, rfl, (hread p (by simp) _).mpr ⟨cause, hcause, rfl⟩,
      fun q hq => (hreadable q (by simp [hq])).mpr (hbefore q hq)⟩

/-- **Loading fails in two ways**: the directory of the inputs cannot be listed, or under `abort`
there is an input that cannot be read, the first of which gives the error. -/
theorem loadInputs_error_iff (hnames : fs.root.WellNamed)
    (htexts : fs.ListsTexts c.inputDir) :
    (c.loadInputs fs).result = .error e ↔
      (∃ cause, fs.list c.inputDir = .error cause ∧ e = .discovery c.inputDir cause) ∨
        c.onReadError = .abort ∧
          ∃ p cause, c.FirstUnreadable fs p cause ∧ e = .inputRead p cause := by
  cases hlist : fs.list c.inputDir with
  | error cause =>
    have hinputs : discover fs c.inputDir c.inputExtension
        = .error (.discovery c.inputDir cause) := by
      rw [discover, hlist]
    have hnone : ∀ p cause, ¬ c.FirstUnreadable fs p cause := by
      rintro p cause ⟨before, after, hok, -⟩
      rw [hinputs] at hok
      exact nomatch hok
    rw [loadInputs, hinputs]
    simp [Logged.fail, hnone, eq_comm]
  | ok names =>
    have hinputs : discover fs c.inputDir c.inputExtension
        = .ok (inputsAmong fs c.inputDir c.inputExtension names) := by
      rw [discover, hlist]
    rw [loadInputs_result hinputs, map_eq_error_iff, loadSchemas, load_eq_error_iff,
      firstError_eq_some_iff_firstUnreadable hnames htexts hinputs]
    simp

end Configuration

end JavaEntities
