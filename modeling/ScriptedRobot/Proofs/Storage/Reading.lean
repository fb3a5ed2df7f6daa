import Mathlib
import ScriptedRobot.Program.Run
import ScriptedRobot.Proofs.Session.Resources
import ScriptedRobot.Proofs.Text.Lines

/-!
# Reading from a disk

Reading a text leaves the disk as it is, and what is read is the text of the file on it. A file that can be
opened but is not UTF-8, and a path that no file can have, are `Damaged`: with these, reading a resource goes
wrong in a way that is not the same as there being no file.
-/

namespace ScriptedRobot

/-- The second of two steps goes on in the state in which the first one has left off. -/
theorem stateM_run_bind {α β γ : Type} (step : StateM α β) (f : β → StateM α γ) (a : α) :
    (step >>= f).run a = (f (step.run a).1).run (step.run a).2 := rfl

/-- Steps that only look at the state, one for each element of a list. -/
theorem stateM_run_mapM {α β γ : Type} {f : β → StateM α γ} {look : β → γ} {a : α}
    (h : ∀ b, (f b).run a = (look b, a)) (bs : List β) : (bs.mapM f).run a = (bs.map look, a) := by
  induction bs with
  | nil => rfl
  | cons b bs ih =>
    rw [List.mapM_cons, stateM_run_bind, h b]
    dsimp only
    rw [stateM_run_bind, ih]
    rfl

theorem fromUTF8?_toUTF8 (s : String) : String.fromUTF8? s.toUTF8 = some s := by
  have hvalid : s.toUTF8.IsValidUTF8 := s.isValidUTF8
  exact dif_pos hvalid

namespace Disk

/-- The text of a file. -/
def text (d : Disk) (p : Path) : Except TextFault String :=
  match d.bytes p with
  | .error fault => .error (.storage fault)
  | .ok bytes => (textOfBytes? bytes).elim (.error .undecodable) .ok

/-- A text without carriage returns is read as it was written. -/
theorem text_of_plain {d : Disk} {p : Path} {s : String} (holds : d.bytes p = .ok s.toUTF8)
    (plain : '\r' ∉ s.toList) : d.text p = .ok s := by
  rw [text, holds]
  simp only [textOfBytes?, fromUTF8?_toUTF8, Option.map_some, Text.unifyNewlines_of_plain plain, String.ofList_toList,
    Option.elim_some]

theorem text_run (d : Disk) (p : Path) :
    (Storage.text p : StateM Disk (Except TextFault String)).run d = (d.text p, d) := by
  have hbytes : (Storage.bytes p : StateM Disk (Except StorageFault ByteArray)).run d = (d.bytes p, d) := rfl
  rw [Storage.text, stateM_run_bind, hbytes, Disk.text]
  cases d.bytes p <;> rfl

/-- The loader that reads every file when it is asked for it. -/
def loader (d : Disk) : Loader := fun p => (d.text p).mapError TextFault.asResource

/-- The file is there but is not UTF-8, or the path holds a null character. -/
def Damaged (d : Disk) (p : Path) : Prop :=
  '\x00' ∈ p.text.toList ∨ ∃ bytes, d.bytes p = .ok bytes ∧ String.fromUTF8? bytes = none

/-- A path is followed without ever taking its text for the fault. -/
theorem step_ne_nullInPath (d : Disk) (p : Path) (spot : Place) (name : String) :
    d.step p spot name ≠ .error .nullInPath := by
  unfold step
  split
  · simp
  · simp
  · split
    · simp
    · split <;> simp

theorem place_nullInPath_iff {d : Disk} {p : Path} :
    d.place p = .error .nullInPath ↔ '\x00' ∈ p.text.toList := by
  have hfollow : ∀ (names : List String) (spot : Place), names.foldlM (d.step p) spot ≠ .error .nullInPath := by
    intro names
    induction names with
    | nil => exact fun spot h => by cases h
    | cons name names ih =>
      intro spot h
      rw [List.foldlM_cons] at h
      cases hstep : d.step p spot name with
      | error fault =>
        rw [hstep] at h
        exact d.step_ne_nullInPath p spot name (hstep.trans h)
      | ok next =>
        rw [hstep] at h
        exact ih next h
  unfold place
  split
  · rename_i hnull
    exact ⟨fun _ => List.contains_iff_mem.1 hnull, fun _ => rfl⟩
  · rename_i hnull
    have hmem : '\x00' ∉ p.text.toList := fun h => hnull (List.contains_iff_mem.2 h)
    split
    · simp [hmem]
    · exact ⟨fun h => absurd h (hfollow _ _), fun h => absurd h hmem⟩

theorem bytes_eq (d : Disk) (p : Path) : d.bytes p = match d.place p with
    | .error fault => .error fault
    | .ok spot => match d.content? spot with
      | none => .error (.notFound p)
      | some (.file bytes) => .ok bytes
      | some .directory => .error (.isDirectory p) := by
  unfold bytes find
  cases d.place p with
  | error fault => rfl
  | ok spot =>
    simp only [bind, Except.bind]
    cases d.content? spot with
    | none => rfl
    | some content => cases content <;> rfl

theorem bytes_nullInPath_iff {d : Disk} {p : Path} :
    d.bytes p = .error .nullInPath ↔ '\x00' ∈ p.text.toList := by
  rw [← place_nullInPath_iff (d := d), bytes_eq]
  cases d.place p with
  | error fault => simp
  | ok spot =>
    simp only
    split <;> simp

theorem loader_damaged_iff {d : Disk} {p : Path} : d.loader.Damaged p ↔ d.Damaged p := by
  unfold Loader.Damaged Loader.faultAt? Damaged loader Disk.text
  rw [← bytes_nullInPath_iff (d := d)]
  cases h : d.bytes p with
  | error fault => cases fault <;> simp [Except.mapError, TextFault.asResource]
  | ok bytes =>
    cases htext : String.fromUTF8? bytes <;>
      simp [textOfBytes?, htext, Except.mapError, TextFault.asResource]

end Disk

namespace Program

theorem loaderOf_map {read : Path → Except ReadFailure String} {paths : List Path} {p : Path} (h : p ∈ paths) :
    loaderOf (paths.map fun p => (p, read p)) p = read p := by
  unfold loaderOf
  induction paths with
  | nil => cases h
  | cons q paths ih =>
    rw [List.map_cons, List.lookup_cons]
    by_cases hq : p = q
    · rw [hq, beq_self_eq_true]
      rfl
    · rw [beq_false_of_ne hq]
      exact ih ((List.mem_cons.1 h).resolve_left hq)

/-- Reading the files that levels refer to gives a loader that knows what each of them says. -/
theorem readResources_run (root : Path) (levels : List LevelSpec) (w : World) :
    (readResources root levels : StateM World Loader).run w =
      (loaderOf ((levels.flatMap (resourcesOf root)).eraseDups.map fun p => (p, w.disk.loader p)), w) := by
  have hread : ∀ p : Path, (Storage.text p : StateM World (Except TextFault String)).run w = (w.disk.text p, w) := by
    intro p
    have hbytes : (Storage.bytes p : StateM World (Except StorageFault ByteArray)).run w = (w.disk.bytes p, w) := rfl
    rw [Storage.text, stateM_run_bind, hbytes, Disk.text]
    cases w.disk.bytes p <;> rfl
  have hentry : ∀ p : Path, (do return (p, (← Storage.text p).mapError TextFault.asResource) :
      StateM World (Path × Except ReadFailure String)).run w = ((p, w.disk.loader p), w) := by
    intro p
    rw [stateM_run_bind, hread]
    rfl
  unfold readResources
  rw [stateM_run_bind, stateM_run_mapM hentry]
  rfl

/-- What that loader says of a file that some level refers to is what the disk says. -/
theorem readResources_loader {root : Path} {levels : List LevelSpec} {spec : LevelSpec} (h : spec ∈ levels)
    {p : Path} (hp : p ∈ resourcesOf root spec) (w : World) :
    ((readResources root levels : StateM World Loader).run w).1 p = w.disk.loader p := by
  rw [readResources_run]
  apply loaderOf_map
  rw [List.mem_eraseDups]
  exact List.mem_flatMap.2 ⟨spec, h, hp⟩

end Program

end ScriptedRobot
