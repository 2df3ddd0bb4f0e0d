import JavaEntities.Proofs.Generation.Failures
import JavaEntities.Proofs.Generation.Order
import JavaEntities.Proofs.Loading.Account

/-!
# Names of files, inputs and identifiers

Discovery picks the files of a directory by their names, and loading takes the identifiers of
tables from the names of what was picked. In a directory whose names are texts the two agree: a
file of it is discovered if its name has a stem and its path is not too long, and every input has
the identifier that its stem has before its first dot (`inputs_have_identifiers`). So no input is
ever at fault by its name, only by its text.
-/

namespace JavaEntities

open FileSystem

variable {fs : FileSystem} {dir p : Path} {extension : String} {n : RawText} {a : Address}
  {entries : List (RawText × Node)} {inputs : List Path} {e : Error}

/-! ## What is discovered -/

/-- The inputs are among the names of the directory that the path leads to. -/
theorem discover_of_locate (extension : String) (h : fs.locate dir = .ok (a, .dir entries)) :
    discover fs dir extension = .ok (inputsAmong fs dir extension (entries.map Prod.fst)) := by
  unfold discover
  rw [list_of_locate h]

/-- Which names of a directory are those of inputs. -/
theorem join_mem_discover_iff (hnames : fs.root.WellNamed) (htext : n.IsText)
    (hextension : '.' ∉ extension.toList) (hdir : fs.locate dir = .ok (a, .dir entries))
    (hn : n ∈ entries.map Prod.fst) :
    dir.join n ∈ inputsAmong fs dir extension (entries.map Prod.fst) ↔
      fs.isFile (dir.join n) = true ∧ ∃ s, HasStem extension n s := by
  rw [join_mem_inputsAmong (names_of_list hnames (list_of_locate hdir)).1 hn,
    isInputName_iff htext hextension]

/-- Which files of a directory are inputs. -/
theorem file_mem_discover_iff {bytes : ByteArray} (hnames : fs.root.WellNamed) (htext : n.IsText)
    (hextension : '.' ∉ extension.toList) (hdir : fs.locate dir = .ok (a, .dir entries))
    (hfile : (n, .file bytes) ∈ entries) (hstorable : Storable n) :
    dir.join n ∈ inputsAmong fs dir extension (entries.map Prod.fst) ↔
      (∃ s, HasStem extension n s) ∧ (dir.join n).text.size < pathLimit := by
  obtain ⟨hplain, hdistinct⟩ := names_of_list hnames (list_of_locate hdir)
  have hn : n ∈ entries.map Prod.fst := List.mem_map_of_mem (f := Prod.fst) hfile
  rw [join_mem_discover_iff hnames htext hextension hdir hn,
    isFile_join_iff hdir hdistinct hfile (hplain n hn) hstorable]
  exact and_comm

/-! ## What loading fails with -/

/-- An input that was discovered is at fault by its text only. -/
theorem inputRead_of_mem_discover (hnames : fs.root.WellNamed) (htexts : fs.ListsTexts dir)
    (h : discover fs dir extension = .ok inputs) (hp : p ∈ inputs)
    (hread : readSchema fs p = .error e) : ∃ cause, e = .inputRead p cause := by
  have hidentifier := identifierOf_of_mem_discover hnames htexts h hp
  obtain ⟨cause, -, he⟩ := (readSchema_eq_error_iff hidentifier).mp hread
  exact ⟨cause, he⟩

namespace Configuration

variable {c : Configuration}

/-- What is reported as passed over was passed over for its text. -/
theorem inputRead_of_inputSkipped (hnames : fs.root.WellNamed)
    (htexts : fs.ListsTexts c.inputDir) (h : .inputSkipped p e ∈ (c.loadInputs fs).events) :
    ∃ cause, e = .inputRead p cause := by
  cases hinputs : discover fs c.inputDir c.inputExtension with
  | error e' =>
    rw [loadInputs, hinputs] at h
    exact absurd h List.not_mem_nil
  | ok inputs =>
    rw [loadInputs_events hinputs, List.mem_cons] at h
    rcases h with heq | h
    · cases heq
    · obtain ⟨hmem, hread⟩ := read_of_inputSkipped (readSchema fs) h
      exact inputRead_of_mem_discover hnames htexts hinputs hmem hread

/-- So is everything in the list of what was passed over. -/
theorem inputRead_of_mem_skipped (hnames : fs.root.WellNamed)
    (htexts : fs.ListsTexts c.inputDir) {loaded : Loaded}
    (h : (c.loadInputs fs).result = .ok loaded) (hp : p ∈ loaded.schemas.skipped) :
    ∃ cause, readSchema fs p = .error (.inputRead p cause) := by
  obtain ⟨inputs, hinputs, hset, -⟩ := loadInputs_eq_ok h
  rw [load_eq_ok hset] at hp
  have hskipped : p ∈ unreadable (readSchema fs) inputs := hp
  obtain ⟨hmem, hfails⟩ := List.mem_filter.mp hskipped
  cases hread : readSchema fs p with
  | ok r =>
    rw [hread] at hfails
    exact nomatch hfails
  | error e =>
    obtain ⟨cause, rfl⟩ := inputRead_of_mem_discover hnames htexts hinputs hmem hread
    exact ⟨cause, rfl⟩

/-! ## Names and identifiers agree -/

/-- A directory of files is well named if the names are distinct and can stand in a path. -/
theorem wellNamed_withInputs {entries : List (RawText × Node)}
    (hdistinct : (entries.map Prod.fst).Nodup) (hnames : ∀ e ∈ entries, IsFileName e.1)
    (hfiles : ∀ e ∈ entries, e.2.isFile = true) : (withInputs entries).root.WellNamed := by
  have hlasting := Node.lasting_wellNamed
  refine Node.everywhere_singleton hlasting (by decide) ?_
  refine Node.everywhere_dir (hlasting.dir hdistinct hnames) ?_
  intro e he
  have hfile := hfiles e he
  cases hnode : e.2 with
  | file bytes => exact Node.everywhere_file hlasting bytes
  | link target =>
    rw [hnode] at hfile
    exact nomatch hfile
  | dir entries =>
    rw [hnode] at hfile
    exact nomatch hfile

/-- **A file is an input by its stem, and every input has an identifier.** For an extension that
passes its check, a file of the input directory whose name is a text is discovered if and only if
the name is a stem that is not empty and does not begin with a dot, a dot and the extension, and its
path is within the limit for paths. An entry that is not a file itself counts if its path leads to
one. Every input whose name is a text has the identifier that its stem has before the first dot,
which is not empty and without dots and separators. In a directory whose names are texts, loading
therefore never rejects an input for its name, and what is passed over was passed over for its
text. -/
theorem inputs_have_identifiers (hnames : fs.root.WellNamed)
    (hextension : checkExtension .input c.inputExtension = .ok ()) :
    (∀ a entries, fs.locate c.inputDir = .ok (a, .dir entries) →
      ∃ inputs, discover fs c.inputDir c.inputExtension = .ok inputs ∧
        (∀ n bytes, (n, .file bytes) ∈ entries → n.IsText → Storable n →
          (c.inputDir.join n ∈ inputs ↔
            (∃ s, HasStem c.inputExtension n s) ∧
              (c.inputDir.join n).text.size < pathLimit)) ∧
        ∀ n ∈ entries.map Prod.fst, n.IsText → (c.inputDir.join n ∈ inputs ↔
          fs.isFile (c.inputDir.join n) = true ∧ ∃ s, HasStem c.inputExtension n s)) ∧
      (∀ names inputs, fs.list c.inputDir = .ok names →
        discover fs c.inputDir c.inputExtension = .ok inputs → ∀ p ∈ inputs,
          ∃ n ∈ names, p = c.inputDir.join n ∧ (n.IsText → ∃ s, HasStem c.inputExtension n s ∧
            identifierOf p = some (beforeDot s) ∧ beforeDot s ≠ "" ∧
            '.' ∉ (beforeDot s).toList ∧ '/' ∉ (beforeDot s).toList)) ∧
      (fs.ListsTexts c.inputDir →
        (∀ p, (c.loadInputs fs).result ≠ .error (.invalidIdentifier p)) ∧
        (∀ p e, .inputSkipped p e ∈ (c.loadInputs fs).events → ∃ cause, e = .inputRead p cause) ∧
        ∀ loaded, (c.loadInputs fs).result = .ok loaded → ∀ p ∈ loaded.schemas.skipped,
          ∃ cause, readSchema fs p = .error (.inputRead p cause)) := by
  have hdot := (checkExtension_eq_ok_iff.mp hextension).no_dot
  refine ⟨?_, ?_, fun htexts => ⟨?_, ?_, ?_⟩⟩
  · intro a entries hdir
    refine ⟨_, discover_of_locate c.inputExtension hdir, ?_, ?_⟩
    · exact fun n bytes hfile htext => file_mem_discover_iff hnames htext hdot hdir hfile
    · exact fun n hn htext => join_mem_discover_iff hnames htext hdot hdir hn
  · intro names inputs hlist hinputs p hp
    obtain ⟨names', hlist', rfl⟩ := discover_eq_ok hinputs
    obtain rfl := Except.ok.inj (hlist.symm.trans hlist')
    exact identifierOf_of_mem_inputsAmong (names_of_list hnames hlist).1 hp
  · intro p hresult
    rcases (loadInputs_error_iff hnames htexts).mp hresult with
      ⟨cause, -, he⟩ | ⟨-, q, cause, -, he⟩
    · exact nomatch he
    · exact nomatch he
  · exact fun p e h => inputRead_of_inputSkipped hnames htexts h
  · exact fun loaded h p hp => inputRead_of_mem_skipped hnames htexts h hp

/-- The directory of the inputs, with separators behind that leave no room for a name. -/
def farDir : Path := ⟨RawText.ofList (("in" : RawText).toList ++ List.replicate 4090 slash)⟩

/-- The directory is found under its long spelling, but the file in it is not, and so is no input,
whatever its name. -/
theorem discover_misses_far_file :
    let entries : List (RawText × Node) := [("users.csv", .file ByteArray.empty)]
    (withInputs entries).root.WellNamed ∧ checkExtension .input "csv" = .ok () ∧
      (withInputs entries).locate farDir = .ok (["in"], .dir entries) ∧ Storable "users.csv" ∧
      HasStem "csv" "users.csv" "users" ∧ discover (withInputs entries) farDir "csv" = .ok [] := by
  intro entries
  have hnames : (withInputs entries).root.WellNamed :=
    wellNamed_withInputs (by decide) (by decide) (by decide)
  have hspelling : farDir.text.toList = ("in" : RawText).toList ++ List.replicate 4090 slash :=
    RawText.toList_ofList
  have hdir : (withInputs entries).locate ⟨"in"⟩ = .ok (["in"], .dir entries) := rfl
  have hfar : (withInputs entries).locate farDir = .ok (["in"], .dir entries) :=
    locate_of_separators hdir hspelling (by decide)
  have hname : IsFileName "users.csv" := by decide
  have hstorable : Storable "users.csv" := ⟨by decide, by decide⟩
  refine ⟨hnames, rfl, hfar, hstorable, ⟨by decide, by decide, by decide⟩, ?_⟩
  rw [discover_of_locate "csv" hfar]
  refine congrArg Except.ok (List.eq_nil_iff_forall_not_mem.mpr ?_)
  intro p hp
  obtain ⟨n, hn, hfile, -⟩ := mem_inputsAmong.mp hp
  obtain rfl : n = "users.csv" := List.mem_singleton.mp hn
  have hshort := (isFile_join_iff hfar (List.nodup_singleton _) (List.mem_singleton_self _) hname
    hstorable).mp hfile
  have hlength : farDir.text.size = 4092 := size_append_separators hspelling
  have hroom := size_le_join farDir hname
  rw [hlength] at hroom
  exact absurd (hroom.trans_lt hshort) (by decide)

/-- Names with dots in every place. -/
def dotted : List (RawText × Node) :=
  [("users.v2.csv", .file ByteArray.empty), ("users..csv", .file ⟨#[0xFF]⟩),
    (".csv", .file ByteArray.empty), ("..csv", .file ByteArray.empty),
    ("csv", .file ByteArray.empty), ("users.csv.", .file ByteArray.empty)]

/-- Of these names, two are names of inputs. Both have an identifier, and the one whose file is not
text is passed over for that. -/
theorem inputs_of_dotted :
    (withInputs dotted).root.WellNamed ∧ checkExtension .input skipping.inputExtension = .ok () ∧
      ∃ inputs,
        discover (withInputs dotted) skipping.inputDir skipping.inputExtension = .ok inputs ∧
        (∀ e ∈ dotted, skipping.inputDir.join e.1 ∈ inputs ↔
          e.1 = "users.v2.csv" ∨ e.1 = "users..csv") ∧
        (∀ p ∈ inputs, ∃ identifier, identifierOf p = some identifier ∧ identifier ≠ "") ∧
        ∀ p e, .inputSkipped p e ∈ (skipping.loadInputs (withInputs dotted)).events →
          ∃ cause, e = .inputRead p cause := by
  have hnames : (withInputs dotted).root.WellNamed :=
    wellNamed_withInputs (by decide) (by decide) (by decide)
  have hextension : checkExtension .input skipping.inputExtension = .ok () := rfl
  have hdir : (withInputs dotted).locate skipping.inputDir = .ok (["in"], .dir dotted) := rfl
  obtain ⟨hdiscover, hidentifiers, hloading⟩ := inputs_have_identifiers hnames hextension
  obtain ⟨inputs, hinputs, hfiles, -⟩ := hdiscover _ _ hdir
  have htext : ∀ e ∈ dotted, e.1.IsText := by decide
  have hlist : (withInputs dotted).list skipping.inputDir = .ok (dotted.map Prod.fst) := rfl
  have htexts : ∀ n ∈ dotted.map Prod.fst, n.IsText := List.forall_mem_map.mpr htext
  obtain ⟨-, hskipped, -⟩ := hloading fun names h => Except.ok.inj (hlist.symm.trans h) ▸ htexts
  have hnode : ∀ e ∈ dotted, ∃ bytes, e.2 = .file bytes := by simp [dotted]
  have hstorable : ∀ e ∈ dotted, e.1.size ≤ nameLimit ∧ 0 ∉ e.1.toList := by decide
  have hlimit : ∀ e ∈ dotted, (skipping.inputDir.join e.1).text.size < pathLimit := by
    decide
  have hform : ∀ e ∈ dotted, isInputName skipping.inputExtension e.1 = true ↔
      e.1 = "users.v2.csv" ∨ e.1 = "users..csv" := by decide
  refine ⟨hnames, hextension, inputs, hinputs, ?_, ?_, hskipped⟩
  · intro e he
    obtain ⟨bytes, hbytes⟩ := hnode e he
    have hfile : (e.1, .file bytes) ∈ dotted := hbytes ▸ he
    rw [hfiles e.1 bytes hfile (htext e he) ⟨(hstorable e he).1, (hstorable e he).2⟩,
      and_iff_left (hlimit e he), ← hform e he]
    exact (isInputName_iff (htext e he) (by decide)).symm
  · intro p hp
    obtain ⟨n, hn, -, hstem⟩ := hidentifiers _ inputs hlist hinputs p hp
    obtain ⟨s, -, hidentifier, hne, -⟩ := hstem (htexts n hn)
    exact ⟨beforeDot s, hidentifier, hne⟩

end Configuration

end JavaEntities
