import JavaEntities.Proofs.Disk.Frame
import JavaEntities.Proofs.FileSystem.Contents

/-!
# What files hold after a run

Artifacts are written one after the other, and two of their paths may lead to the same
file. After a run, such a file holds the contents of the last artifact that was written
to it, and every other file what it held after the clearing (`fileAt?_writeAll`). Which
artifacts were written is known from the number of reported writes: a run stops at the
first that fails.
-/

namespace JavaEntities.Disk

open FileSystem (Address)

/-- The number of writes that were reported. -/
def writes (d : Disk) : Nat :=
  d.events.countP fun e => e.writtenPath?.isSome

/-- What the file at an address holds when artifacts were written: the contents of the last one
whose path leads there, or else what it held before. -/
def contentsAt (before after : FileSystem) (written : List Artifact) (a : Address) :
    Option ByteArray :=
  match written.reverse.find? fun x => after.canonical? x.path = some a with
  | some x => some x.contents.toUTF8
  | none => before.root.fileAt? a

/-- The first artifact counts if no later one goes to the address. -/
theorem contentsAt_cons (before after : FileSystem) (x : Artifact) (rest : List Artifact)
    (a : Address) :
    contentsAt before after (x :: rest) a =
      match rest.reverse.find? fun y => after.canonical? y.path = some a with
      | some y => some y.contents.toUTF8
      | none => if after.canonical? x.path = some a then some x.contents.toUTF8
        else before.root.fileAt? a := by
  unfold contentsAt
  rw [List.reverse_cons, List.find?_append, List.find?_singleton]
  cases rest.reverse.find? fun y => after.canonical? y.path = some a with
  | some y => rfl
  | none =>
    by_cases hx : after.canonical? x.path = some a
    · simp [hx]
    · simp [hx]

/-! ## The writes of a run -/

/-- To make the output is no write. -/
theorem writes_makeOutput (root : Path) (d : Disk) : (makeOutput root d).2.writes = d.writes := by
  unfold makeOutput
  split
  · rfl
  · rfl

/-- A reset is no write. -/
theorem writes_reset (root : Path) (d : Disk) : (reset root d).2.writes = d.writes := by
  unfold reset
  split
  · split
    · rfl
    · rw [writes_makeOutput, report, writes, List.countP_append]
      rfl
  · exact writes_makeOutput root d

/-- A reset leaves the files that are left when the output is cleared. -/
theorem fileAt?_reset (root : Path) (d : Disk) (a : Address) :
    (reset root d).2.files.root.fileAt? a = (d.files.cleared root).root.fileAt? a := by
  have hmade : ∀ d : Disk, (makeOutput root d).2.files.root.fileAt? a = d.files.root.fileAt? a := by
    intro d
    have hdirs := FileSystem.fileAt?_makeDirs d.files root a
    unfold makeOutput
    split
    · next h => rwa [h] at hdirs
    · next h => rwa [h] at hdirs
  unfold reset FileSystem.cleared
  split
  · split
    · next h => rw [h]
    · next h =>
      rw [h]
      exact hmade _
  · exact hmade d

/-- A write that succeeds writes the text of the artifact, and counts as one. -/
theorem write_eq_ok {p : Path} {contents : String} {d d' : Disk}
    (h : write p contents d = (.ok (), d')) :
    d.files.writeBytes p contents.toUTF8 = .ok d'.files ∧ d'.writes = d.writes + 1 := by
  unfold write at h
  split at h
  · exact nomatch (Prod.mk.inj h).1
  · next files hwrite =>
    obtain rfl := (Prod.mk.inj h).2
    refine ⟨hwrite, ?_⟩
    rw [report, writes, List.countP_append]
    rfl

/-- A write that fails changes nothing. -/
theorem write_eq_error {p : Path} {contents : String} {d d' : Disk} {e : Error}
    (h : write p contents d = (.error e, d')) : d' = d := by
  unfold write at h
  split at h
  · exact (Prod.mk.inj h).2.symm
  · exact nomatch (Prod.mk.inj h).1

/-- After any number of writes, each file is what was written to it last, or as before. -/
theorem fileAt?_writeEach (root : Path) (artifacts : List Artifact) (d : Disk) :
    ∃ written, written <+: artifacts ∧
      ((sink root).writeEach artifacts d).2.writes = d.writes + written.length ∧
      ∀ a, ((sink root).writeEach artifacts d).2.files.root.fileAt? a
        = contentsAt d.files ((sink root).writeEach artifacts d).2.files written a := by
  induction artifacts generalizing d with
  | nil => exact ⟨[], List.nil_prefix, rfl, fun a => rfl⟩
  | cons x rest ih =>
    unfold Sink.writeEach
    split
    · next h =>
      rw [write_eq_error h]
      exact ⟨[], List.nil_prefix, rfl, fun a => rfl⟩
    · next d₁ h =>
      obtain ⟨hbytes, hcount⟩ := write_eq_ok h
      obtain ⟨b, hb, hfiles⟩ := FileSystem.canonical?_of_writeBytes hbytes
      obtain ⟨written, hwritten, hwrites, hcontents⟩ := ih d₁
      -- Later writes remove nothing, so in the end the path still leads to the file it was for.
      have hlater := (grows_writeEach root rest d₁).partOf.canonical?_eq hb
      refine ⟨x :: written, List.cons_prefix_cons.mpr ⟨rfl, hwritten⟩, ?_, ?_⟩
      · rw [hwrites, hcount, List.length_cons]
        omega
      · intro a
        rw [hcontents a, contentsAt_cons, contentsAt, hlater, hfiles a]
        simp only [Option.some.injEq, eq_comm]

/-- **What files hold after a run**, whether it succeeds or not: the contents of the last artifact
that was written to them, or else what they held after the clearing. -/
theorem fileAt?_writeAll (root : Path) (artifacts : List Artifact) {d : Disk} (hd : d.writes = 0)
    (a : Address) :
    ((sink root).writeAll artifacts d).2.files.root.fileAt? a
      = contentsAt (d.files.cleared root) ((sink root).writeAll artifacts d).2.files
          (artifacts.take ((sink root).writeAll artifacts d).2.writes) a := by
  have hreset : ∀ {r d₁}, (sink root).reset d = (r, d₁) →
      d₁.writes = 0 ∧ d₁.files.root.fileAt? a = (d.files.cleared root).root.fileAt? a := by
    intro r d₁ h
    have hcount := writes_reset root d
    have hfile := fileAt?_reset root d a
    have hd₁ : (reset root d).2 = d₁ := congrArg Prod.snd h
    rw [hd₁] at hcount hfile
    exact ⟨hcount.trans hd, hfile⟩
  unfold Sink.writeAll
  split
  · next h =>
    obtain ⟨hcount, hfile⟩ := hreset h
    rw [hcount, List.take_zero]
    exact hfile
  · next d₁ h =>
    obtain ⟨hcount, hfile⟩ := hreset h
    obtain ⟨written, hwritten, hwrites, hcontents⟩ := fileAt?_writeEach root artifacts d₁
    -- As many artifacts were written as were reported, and they are the first of the list.
    have htake : artifacts.take ((sink root).writeEach artifacts d₁).2.writes = written := by
      rw [hwrites, hcount, Nat.zero_add]
      exact (List.prefix_iff_eq_take.mp hwritten).symm
    have hlast := hcontents a
    rw [contentsAt, hfile, ← htake] at hlast
    split
    · next h' => rwa [h'] at hlast
    · next h' => rwa [h'] at hlast

end JavaEntities.Disk
