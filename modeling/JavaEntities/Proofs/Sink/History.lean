import Mathlib.Data.List.DropRight
import JavaEntities.Proofs.Sink.Calls
import JavaEntities.Proofs.Sink.Memory
import JavaEntities.Proofs.SortedMap.History

/-!
# What calls leave in a memory sink

A memory sink that was new is told by the calls on it: its events are the calls, and its files
are those of the writes after the last reset, inserted in order (`files_replay`). So under a path
is what was written to it last since then, the path is spelled as in the first of these writes,
and the files are in the order of the components of their paths (`replay_history`).
-/

namespace JavaEntities.MemorySink

open Sink (Call)

/-- The event that a call leaves. -/
def eventOf : Call → SinkEvent
  | .reset => .reset
  | .write p _ => .write p

/-- What a call writes. -/
def fileOf? : Call → Option (Path × String)
  | .reset => none
  | .write p contents => some (p, contents)

/-- The sink after a call. -/
def perform (m : MemorySink) : Call → MemorySink
  | .reset => (sink.reset m).2
  | .write p contents => (sink.write p contents m).2

/-- A new sink after calls, one after the other. -/
def replay (calls : List Call) : MemorySink :=
  calls.foldl perform {}

/-- The writes after the last reset, in order. -/
def sinceReset (calls : List Call) : List (Path × String) :=
  (calls.rtakeWhile (· ≠ .reset)).filterMap fileOf?

/-! ## One more call -/

/-- A longer history goes on from the shorter one. -/
theorem replay_concat (calls : List Call) (call : Call) :
    replay (calls ++ [call]) = (replay calls).perform call := by
  rw [replay, List.foldl_append]
  rfl

theorem sinceReset_concat_reset (calls : List Call) : sinceReset (calls ++ [.reset]) = [] := by
  rw [sinceReset, List.rtakeWhile_concat_neg _ _ _ (by decide)]
  rfl

theorem sinceReset_concat_write (calls : List Call) (p : Path) (contents : String) :
    sinceReset (calls ++ [.write p contents]) = sinceReset calls ++ [(p, contents)] := by
  rw [sinceReset, List.rtakeWhile_concat_pos _ _ _ (by simp), List.filterMap_append]
  rfl

/-! ## All calls -/

/-- The events are the calls, each with its path as it was spelled. -/
theorem events_replay (calls : List Call) : (replay calls).events = calls.map eventOf := by
  induction calls using List.reverseRecOn with
  | nil => rfl
  | append_singleton calls call ih =>
    rw [replay_concat, List.map_append, ← ih]
    cases call with
    | reset => rfl
    | write p contents => rfl

/-- The files are those of the writes after the last reset. -/
theorem files_replay (calls : List Call) :
    (replay calls).files = SortedMap.insertAll .empty (sinceReset calls) := by
  induction calls using List.reverseRecOn with
  | nil => rfl
  | append_singleton calls call ih =>
    rw [replay_concat]
    cases call with
    | reset =>
      rw [sinceReset_concat_reset]
      rfl
    | write p contents =>
      rw [sinceReset_concat_write, SortedMap.insertAll, List.foldl_append]
      show (replay calls).files.insert p contents = _
      rw [ih]
      rfl

theorem sinceReset_callsFor (artifacts : List Artifact) :
    sinceReset (Sink.callsFor artifacts) = filesOf artifacts := by
  induction artifacts using List.reverseRecOn with
  | nil => exact sinceReset_concat_reset []
  | append_singleton artifacts x ih =>
    have hcalls : Sink.callsFor (artifacts ++ [x])
        = Sink.callsFor artifacts ++ [.write x.path x.contents] := by
      rw [Sink.callsFor, List.map_append]
      rfl
    rw [hcalls, sinceReset_concat_write, ih, filesOf, filesOf, List.map_append]
    rfl

/-- Writing artifacts to any sink leaves the files that the calls for them leave in a new one. -/
theorem files_writeAll_eq_replay (artifacts : List Artifact) (m : MemorySink) :
    (sink.writeAll artifacts m).2.files = (replay (Sink.callsFor artifacts)).files := by
  rw [files_writeAll, files_replay, sinceReset_callsFor]

/-- **A memory sink replays its history.** For every sequence of calls on a new sink: the events are
the calls in order, each with its path as it was spelled. Under a path, however it is spelled, is
what the last write after the last reset to a path with its components has written, and nothing if
there is none. The files increase in the order of the components of their paths, there is one for
each list of components that was written to since then, and each has the spelling of the first
write to it. So artifacts leave the same files in every sink, whatever it held before. -/
theorem replay_history (calls : List Call) :
    (replay calls).events = calls.map eventOf ∧
      (∀ p contents, (replay calls).get? p = some contents ↔
        ∃ q, IsLast (fun w => w.1.components = p.components) (sinceReset calls) (q, contents)) ∧
      (∀ p, (replay calls).get? p = none ↔
        ∀ w ∈ sinceReset calls, w.1.components ≠ p.components) ∧
      ((replay calls).files.keys.Pairwise fun p q => compare p.components q.components = .lt) ∧
      (replay calls).files.size
        = ((sinceReset calls).map fun w => w.1.components).dedup.length ∧
      (∀ p contents, (p, contents) ∈ (replay calls).files.entries ↔
        (∃ first, IsFirst (fun w => w.1.components = p.components) (sinceReset calls) (p, first)) ∧
          (replay calls).get? p = some contents) ∧
      ∀ artifacts m m',
        (sink.writeAll artifacts m).2.files = (sink.writeAll artifacts m').2.files := by
  have hpath : ∀ p : Path, (fun w : Path × String => compare p w.1 = .eq)
      = fun w => w.1.components = p.components := by
    intro p
    funext w
    rw [Path.compare_eq_iff, eq_iff_iff]
    exact eq_comm
  refine ⟨events_replay calls, ?_, ?_, ?_, ?_, ?_, ?_⟩
  · intro p contents
    rw [get?, files_replay, SortedMap.get?_insertAll_eq_some_iff, hpath]
  · intro p
    rw [get?, files_replay, SortedMap.get?_insertAll_eq_none_iff]
    simp only [ne_eq, Path.compare_eq_iff, eq_comm (a := p.components)]
  · exact List.pairwise_map.mpr (replay calls).files.increasing
  · rw [files_replay, SortedMap.size_insertAll_eq_dedup fun p q => Path.compare_eq_iff]
  · intro p contents
    rw [SortedMap.mem_entries_iff, get?, files_replay,
      SortedMap.mem_keys_insertAll_empty, hpath]
  · intro artifacts m m'
    rw [files_writeAll_eq_replay, files_writeAll_eq_replay]

/-- One path in two spellings, after a reset that does away with a third. -/
example :
    (replay [.write ⟨"A"⟩ "0", .reset, .write ⟨"out//A"⟩ "1",
      .write ⟨"out/./A/"⟩ "2"]).files.entries = [(⟨"out//A"⟩, "2")] := by decide +kernel

end JavaEntities.MemorySink
