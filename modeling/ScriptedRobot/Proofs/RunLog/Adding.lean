import Mathlib
import ScriptedRobot.Proofs.RunLog.Lines
import ScriptedRobot.Proofs.Storage.Writing

/-!
# Records added to a log

Records that can be written are added one after another, and the file is then the text of all of them
(`adding_run`). A record is only added if it can be written (`canWrite_of_added`).
-/

namespace ScriptedRobot

namespace Disk

/-- The folder of a log can be made, and then there is no log in it yet. -/
def CanStart (d : Disk) (log : Path) : Prop :=
  ∃ made spot, (Storage.makeDirectories log.parent : StateM Disk (Except StorageFault Unit)).run d = (.ok (), made) ∧
    made.place log = .ok spot ∧ made.content? spot = none

/-- The log is a file with these bytes, in a folder that is there. -/
structure Holds (d : Disk) (log : Path) (bytes : ByteArray) : Prop where
  folder : d.kind? log.parent = .ok (some .directory)
  file : ∃ spot, d.place log = .ok spot ∧ d.content? spot = some (.file bytes)

variable {d : Disk} {log : Path} {bytes : ByteArray} {spot : Place}

theorem Holds.bytes_eq (h : d.Holds log bytes) : d.bytes log = .ok bytes := by
  obtain ⟨spot, hplace, hfile⟩ := h.file
  rw [Disk.bytes_eq, hplace]
  simp only [hfile]

theorem append_eq (d : Disk) (p : Path) (bytes : ByteArray) : d.append p bytes = match d.place p with
    | .error fault => .error fault
    | .ok spot => match d.content? spot with
      | some .directory => .error (.isDirectory p)
      | some (.file before) => .ok (d.put spot (.file (before ++ bytes)))
      | none => .ok (d.put spot (.file bytes)) := by
  unfold append
  cases d.place p with
  | error fault => rfl
  | ok spot =>
    simp only [bind, Except.bind]
    cases d.content? spot with
    | none => rfl
    | some content => cases content <;> rfl

/-- What is put where a log is, or may be, is what the log holds. -/
theorem holds_put (folder : d.kind? log.parent = .ok (some .directory)) (leads : d.place log = .ok spot)
    (h : d.content? spot ≠ some .directory) : (d.put spot (.file bytes)).Holds log bytes :=
  ⟨kind?_put h folder, spot, place_put h leads, content?_put_self (ne_root h)⟩

end Disk

namespace RunLog

variable {d : Disk} {log : Path} {bytes : ByteArray} {r : Record} {rs : List Record}

theorem Record.CanWrite.written (h : r.CanWrite) : r.written = .ok r.line := by
  rw [Record.written, if_neg, if_pos h.short]
  rw [h.unnested]
  exact Bool.false_ne_true

theorem append_run (d : Disk) (p : Path) (bytes : ByteArray) :
    (Storage.append p bytes : StateM Disk (Except StorageFault Unit)).run d = match d.append p bytes with
      | .ok next => (.ok (), next)
      | .error fault => (.error fault, d) := rfl

/-- What is added to a log for a record: its line, or nothing if it cannot be written. -/
def Record.added (r : Record) : ByteArray := (r.written.toOption.getD "").toUTF8

theorem Record.CanWrite.added (h : r.CanWrite) : r.added = r.line.toUTF8 := by
  rw [Record.added, h.written]
  rfl

theorem add_run {made next : Disk} (shallow : r.isTooDeep = false)
    (folder : (Storage.makeDirectories log.parent : StateM Disk (Except StorageFault Unit)).run d = (.ok (), made))
    (file : made.append log r.added = .ok next) :
    (add log r : StateM Disk (Except WriteFault Unit)).run d = (r.written.map fun _ => (), next) := by
  have hshallow : ¬ r.isTooDeep = true := by simp [shallow]
  rw [add, if_neg hshallow, stateM_run_bind, folder]
  simp only
  rw [stateM_run_bind, append_run, ← Record.added, file]
  rfl

/-- The first record makes the log. -/
theorem add_start (start : d.CanStart log) (shallow : r.isTooDeep = false) :
    ∃ next, (add log r : StateM Disk (Except WriteFault Unit)).run d = (r.written.map fun _ => (), next) ∧
      next.Holds log r.added := by
  obtain ⟨made, spot, hfolder, hplace, hnone⟩ := start
  have happend : made.append log r.added = .ok (made.put spot (.file r.added)) := by
    rw [Disk.append_eq, hplace]
    simp only [hnone]
  have hfree : made.content? spot ≠ some .directory := by simp [hnone]
  exact ⟨_, add_run shallow hfolder happend, Disk.holds_put (Disk.makeDirectories_there hfolder) hplace hfree⟩

/-- A further record comes after those that the log holds. -/
theorem add_next (holds : d.Holds log bytes) (shallow : r.isTooDeep = false) :
    ∃ next, (add log r : StateM Disk (Except WriteFault Unit)).run d = (r.written.map fun _ => (), next) ∧
      next.Holds log (bytes ++ r.added) := by
  obtain ⟨spot, hplace, hfile⟩ := holds.file
  have happend : d.append log r.added = .ok (d.put spot (.file (bytes ++ r.added))) := by
    rw [Disk.append_eq, hplace]
    simp only [hfile]
  have hfree : d.content? spot ≠ some .directory := by simp [hfile]
  exact ⟨_, add_run shallow (Disk.makeDirectories_run holds.folder) happend, Disk.holds_put holds.folder hplace hfree⟩

/-- Adds records one after another. -/
def adding (log : Path) (rs : List Record) : StateM Disk (List (Except WriteFault Unit)) := rs.mapM (add log)

theorem adding_cons (log : Path) (r : Record) (rs : List Record) (d : Disk) :
    (adding log (r :: rs)).run d =
      let (outcome, next) := (add log r : StateM Disk (Except WriteFault Unit)).run d
      let (outcomes, last) := (adding log rs).run next
      (outcome :: outcomes, last) := by
  rw [adding, List.mapM_cons, stateM_run_bind, stateM_run_bind]
  rfl

/-- The text of some records as it is stored. -/
def stored (rs : List Record) : ByteArray := (String.ofList (text rs)).toUTF8

theorem stored_cons (r : Record) (rs : List Record) : stored (r :: rs) = r.line.toUTF8 ++ stored rs := by
  rw [stored, text, List.flatMap_cons, String.ofList_append, String.ofList_toList]
  rfl

theorem adding_next (holds : d.Holds log bytes) (h : ∀ r ∈ rs, r.CanWrite) :
    ∃ last, (adding log rs).run d = (rs.map fun _ => .ok (), last) ∧ last.Holds log (bytes ++ stored rs) := by
  induction rs generalizing d bytes with
  | nil =>
    have hnone : bytes ++ stored [] = bytes := ByteArray.append_empty
    rw [hnone]
    exact ⟨d, rfl, holds⟩
  | cons r rs ih =>
    obtain ⟨hr, hrs⟩ := List.forall_mem_cons.1 h
    obtain ⟨next, hadd, hnext⟩ := add_next holds hr.shallow
    obtain ⟨last, hadding, hlast⟩ := ih hnext hrs
    rw [hr.added, ByteArray.append_assoc, ← stored_cons] at hlast
    refine ⟨last, ?_, hlast⟩
    rw [adding_cons, hadd, hr.written]
    simp only [hadding]
    rfl

/-- Records that can be written make a log that holds them one after another. -/
theorem adding_run (start : d.CanStart log) (some : rs ≠ []) (h : ∀ r ∈ rs, r.CanWrite) :
    ∃ last, (adding log rs).run d = (rs.map fun _ => .ok (), last) ∧ last.bytes log = .ok (stored rs) := by
  obtain ⟨r, rs, rfl⟩ := List.exists_cons_of_ne_nil some
  obtain ⟨hr, hrs⟩ := List.forall_mem_cons.1 h
  obtain ⟨next, hadd, hnext⟩ := add_start start hr.shallow
  obtain ⟨last, hadding, hlast⟩ := adding_next hnext hrs
  rw [hr.added, ← stored_cons] at hlast
  refine ⟨last, ?_, hlast.bytes_eq⟩
  rw [adding_cons, hadd, hr.written]
  simp only [hadding]
  rfl

theorem adding_ok (start : d.CanStart log) (some : rs ≠ []) (h : ∀ r ∈ rs, r.CanWrite) :
    ∀ outcome ∈ ((adding log rs).run d).1, outcome = .ok () := by
  obtain ⟨last, hrun, -⟩ := adding_run start some h
  rw [hrun]
  exact List.forall_mem_map.2 fun _ _ => rfl

/-! ## What has been added -/

/-- Only a record that can be written is added. -/
theorem canWrite_of_added (h : ((add log r : StateM Disk (Except WriteFault Unit)).run d).1 = .ok ()) : r.CanWrite := by
  rw [add] at h
  by_cases hdeep : r.isTooDeep = true
  · rw [if_pos hdeep] at h
    cases h
  rw [if_neg hdeep, stateM_run_bind] at h
  split at h
  · cases h
  rw [stateM_run_bind] at h
  split at h
  · cases h
  have hwritten : r.written.map (fun _ => ()) = .ok () := h
  rw [Record.written] at hwritten
  split at hwritten
  · cases hwritten
  · rename_i hnested
    split at hwritten
    · rename_i hshort
      exact ⟨Bool.eq_false_iff.2 hdeep, Bool.eq_false_iff.2 hnested, hshort⟩
    · cases hwritten

theorem canWrite_of_adding (h : ∀ outcome ∈ ((adding log rs).run d).1, outcome = .ok ()) : ∀ r ∈ rs, r.CanWrite := by
  induction rs generalizing d with
  | nil => exact fun r hr => by cases hr
  | cons r rs ih =>
    rw [adding_cons] at h
    obtain ⟨hr, hrs⟩ := List.forall_mem_cons.1 h
    exact List.forall_mem_cons.2 ⟨canWrite_of_added hr, ih hrs⟩

end RunLog

end ScriptedRobot
