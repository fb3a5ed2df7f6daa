import Mathlib
import ScriptedRobot.Proofs.Moment.Order
import ScriptedRobot.Proofs.RunLog.Adding
import ScriptedRobot.Proofs.Storage.Names

/-!
# Folders of runs

The folder of a run is made where its base leads to, and nothing else happens to the files on the disk. A record
that is added to the log of a run comes behind what the log has held, and changes no other file (`RunLog.add_ok`). No
two moments share a log (`RunLog.log_unique`).
-/

namespace ScriptedRobot

namespace Moment

theorem not_slash_of_mem_pair (n : Nat) : '/' ∉ pair n := by
  have hdigit : ∀ m < 10, Nat.digitChar m ≠ '/' := by decide
  intro hmem
  rcases List.mem_cons.1 hmem with htens | hmem
  · exact hdigit _ (Nat.mod_lt _ (by decide)) htens.symm
  · exact hdigit _ (Nat.mod_lt _ (by decide)) (List.mem_singleton.1 hmem).symm

theorem runName_isName (t : Moment) : Path.IsName t.runName := by
  have hlong : 16 ≤ t.runName.toList.length := by
    have htail : t.nameTail.length = 16 := rfl
    rw [toList_runName, List.length_append, htail]
    omega
  have hne : ∀ {name : String}, name.toList.length < 16 → t.runName ≠ name := by
    rintro name hshort rfl
    omega
  refine ⟨hne (by decide), hne (by decide), hne (by decide), ?_⟩
  intro hmem
  rw [toList_runName] at hmem
  rcases List.mem_append.1 hmem with hyear | htail
  · have hdigit := Nat.isDigit_of_mem_toDigits (by decide) (by decide) hyear
    revert hdigit
    decide
  · simp only [nameTail, List.mem_cons, List.mem_append, List.not_mem_nil, not_slash_of_mem_pair, false_or] at htail
    revert htail
    decide

end Moment

namespace RunLog

variable {d made next : Disk} {base folder log : Path} {s t : Moment} {spot : Place} {r : Record} {fault : StorageFault}

theorem fileName_isName : Path.IsName fileName := ⟨by decide, by decide, by decide, by decide⟩

/-- The log of the run that starts at a moment. -/
def logAt (base : Path) (t : Moment) : Path := inFolder (base.child t.runName)

/-- A log lies in the folder of its run, and that lies in the base. -/
theorem place_logAt (leads : d.place (logAt base t) = .ok spot) :
    ∃ here, d.place base = .ok here ∧ spot = here ++ [t.runName, fileName] := by
  obtain ⟨folder, hfolder, -, rfl⟩ := Disk.place_of_child fileName_isName leads
  obtain ⟨here, hbase, -, rfl⟩ := Disk.place_of_child t.runName_isName hfolder
  exact ⟨here, hbase, List.append_assoc _ _ _⟩

theorem log_unique (leads : d.place (logAt base s) = .ok spot) (leads' : d.place (logAt base t) = .ok spot) :
    s = t := by
  obtain ⟨here, hbase, rfl⟩ := place_logAt leads
  obtain ⟨here', hbase', hspot⟩ := place_logAt leads'
  obtain rfl := Except.ok.inj (hbase.symm.trans hbase')
  have hnames := List.append_cancel_left hspot
  exact Moment.runName_injective (List.cons.inj hnames).1

/-! ## Making the folder of a run -/

/-- Making a folder is making the directories that lead to it. -/
theorem makeFolder_cases (base : Path) (t : Moment) (d : Disk) :
    ∃ outcome made,
      (Storage.makeDirectories (base.child t.runName) : StateM Disk (Except StorageFault Unit)).run d =
        (outcome, made) ∧
      (makeFolder base t : StateM Disk (Except StorageFault Path)).run d =
        (outcome.map fun _ => base.child t.runName, made) := by
  unfold makeFolder
  generalize base.child t.runName = folder
  rcases hmake : (Storage.makeDirectories folder : StateM Disk (Except StorageFault Unit)).run d with ⟨outcome, made⟩
  refine ⟨outcome, made, rfl, ?_⟩
  rw [stateM_run_bind, hmake]
  rfl

theorem makeFolder_grows (base : Path) (t : Moment) (d : Disk) :
    d.Grows ∅ ((makeFolder base t : StateM Disk (Except StorageFault Path)).run d).2 := by
  obtain ⟨outcome, made, hmake, hrun⟩ := makeFolder_cases base t d
  have hgrows := Disk.makeDirectories_grows d (base.child t.runName)
  rw [hmake] at hgrows
  rw [hrun]
  exact hgrows

theorem makeFolder_sound (sound : d.Sound) (proper : base.IsProper) (t : Moment) :
    ((makeFolder base t : StateM Disk (Except StorageFault Path)).run d).2.Sound := by
  obtain ⟨outcome, made, hmake, hrun⟩ := makeFolder_cases base t d
  have hsound := sound.makeDirectories (proper.child t.runName_isName)
  rw [hmake] at hsound
  rw [hrun]
  exact hsound

theorem makeFolder_ok (h : (makeFolder base t : StateM Disk (Except StorageFault Path)).run d = (.ok folder, made)) :
    folder = base.child t.runName ∧ made.kind? folder = .ok (some .directory) := by
  obtain ⟨outcome, made', hmake, hrun⟩ := makeFolder_cases base t d
  rw [hrun] at h
  cases outcome with
  | error fault => cases h
  | ok _ =>
    obtain ⟨hfolder, rfl⟩ := Prod.mk.inj h
    obtain rfl := Except.ok.inj hfolder
    exact ⟨rfl, Disk.makeDirectories_there hmake⟩

theorem makeFolder_fails
    (h : (makeFolder base t : StateM Disk (Except StorageFault Path)).run d = (.error fault, made)) :
    made.kind? (base.child t.runName) ≠ .ok (some .directory) := by
  obtain ⟨outcome, made', hmake, hrun⟩ := makeFolder_cases base t d
  rw [hrun] at h
  cases outcome with
  | ok _ => cases h
  | error cause =>
    obtain ⟨-, rfl⟩ := Prod.mk.inj h
    exact Disk.makeDirectories_fails hmake

/-! ## Adding a record -/

/-- What adding to a file does: the file is made if it is missing, and the bytes come behind what it has held. -/
theorem append_ok {bytes : ByteArray} (h : d.append log bytes = .ok next) :
    ∃ spot, d.place log = .ok spot ∧ d.content? spot ≠ some .directory ∧
      next = d.put spot (.file (d.heldAt spot ++ bytes)) := by
  rw [Disk.append_eq] at h
  cases hplace : d.place log with
  | error fault =>
    rw [hplace] at h
    cases h
  | ok spot =>
    rw [hplace] at h
    refine ⟨spot, rfl, ?_⟩
    cases hspot : d.content? spot with
    | none =>
      simp only [hspot] at h
      obtain rfl := Except.ok.inj h
      rw [Disk.heldAt, hspot, ByteArray.empty_append]
      exact ⟨by simp, rfl⟩
    | some content =>
      cases content with
      | directory =>
        simp only [hspot] at h
        cases h
      | file before =>
        simp only [hspot] at h
        obtain rfl := Except.ok.inj h
        rw [Disk.heldAt_of_file hspot]
        exact ⟨by simp, rfl⟩

/-- A record may be too deep to be added. Else the folder of the log is made, and then something is added to the log. -/
theorem add_cases {outcome : Except WriteFault Unit}
    (h : (add log r : StateM Disk (Except WriteFault Unit)).run d = (outcome, next)) :
    (outcome = .error .tooDeep ∧ next = d) ∨
    ∃ tried made,
      (Storage.makeDirectories log.parent : StateM Disk (Except StorageFault Unit)).run d = (tried, made) ∧
      ((∃ fault, tried = .error fault ∧ outcome = .error (.storage fault) ∧ next = made) ∨
        (∃ fault, made.append log r.added = .error fault ∧ outcome = .error (.storage fault) ∧ next = made) ∨
        (made.append log r.added = .ok next ∧ outcome = r.written.map fun _ => ())) := by
  rw [add] at h
  by_cases hdeep : r.isTooDeep = true
  · rw [if_pos hdeep] at h
    cases h
    exact .inl ⟨rfl, rfl⟩
  · rw [if_neg hdeep, stateM_run_bind] at h
    rcases hmake : (Storage.makeDirectories log.parent : StateM Disk (Except StorageFault Unit)).run d with
      ⟨fault | _, made⟩
    · rw [hmake] at h
      cases h
      exact .inr ⟨_, _, rfl, .inl ⟨fault, rfl, rfl, rfl⟩⟩
    · rw [hmake] at h
      simp only at h
      rw [stateM_run_bind, append_run, ← Record.added] at h
      refine .inr ⟨_, _, rfl, .inr ?_⟩
      cases happend : made.append log r.added with
      | error fault =>
        rw [happend] at h
        cases h
        exact .inl ⟨fault, rfl, rfl, rfl⟩
      | ok last =>
        rw [happend] at h
        cases h
        exact .inr ⟨rfl, rfl⟩

/-- A record that is added comes behind what the log has held, and nothing happens to other files. -/
theorem add_ok (h : (add log r : StateM Disk (Except WriteFault Unit)).run d = (.ok (), next)) :
    ∃ spot, next.place log = .ok spot ∧ d.Grows {spot} next ∧
      next.content? spot = some (.file (d.heldAt spot ++ r.line.toUTF8)) := by
  have hwrite : r.CanWrite := canWrite_of_added (congrArg Prod.fst h)
  rcases add_cases h with ⟨hfault, -⟩ | ⟨tried, made, hmake, ⟨_, -, hfault, -⟩ | ⟨_, -, hfault, -⟩ | ⟨happend, -⟩⟩
  · cases hfault
  · cases hfault
  · cases hfault
  · have hgrows := Disk.makeDirectories_grows d log.parent
    rw [hmake] at hgrows
    obtain ⟨spot, hplace, hfree, rfl⟩ := append_ok happend
    refine ⟨spot, Disk.place_put hfree hplace, ?_, ?_⟩
    · exact (hgrows.mono (Set.empty_subset _)).trans (Disk.grows_put hfree)
    · rw [Disk.content?_put_self (Disk.ne_root hfree), hgrows.heldAt (Set.notMem_empty _), hwrite.added]

/-- In a folder that is there nothing but the log changes. -/
theorem add_put (folder : d.kind? log.parent = .ok (some .directory)) (leads : d.place log = .ok spot)
    (free : d.content? spot ≠ some .directory) (h : r.CanWrite) :
    (add log r : StateM Disk (Except WriteFault Unit)).run d =
      (.ok (), d.put spot (.file (d.heldAt spot ++ r.line.toUTF8))) := by
  have happend : d.append log r.added = .ok (d.put spot (.file (d.heldAt spot ++ r.line.toUTF8))) := by
    rw [Disk.append_eq, leads, h.added]
    cases hspot : d.content? spot with
    | none => simp only [hspot, Disk.heldAt, ByteArray.empty_append]
    | some content =>
      cases content with
      | directory => exact absurd hspot free
      | file before => simp only [hspot, Disk.heldAt]
  rw [add_run h.shallow (Disk.makeDirectories_run folder) happend, h.written]
  rfl

/-- If a record is not added, nothing is added to any file. -/
theorem add_error {cause : WriteFault}
    (h : (add log r : StateM Disk (Except WriteFault Unit)).run d = (.error cause, next)) (spot : Place) :
    next.heldAt spot = d.heldAt spot := by
  rcases add_cases h with ⟨-, rfl⟩ | ⟨tried, made, hmake, hrest⟩
  · rfl
  · have hgrows := Disk.makeDirectories_grows d log.parent
    rw [hmake] at hgrows
    have hmade : made.heldAt spot = d.heldAt spot := hgrows.heldAt (Set.notMem_empty spot)
    rcases hrest with ⟨_, -, -, rfl⟩ | ⟨_, -, -, rfl⟩ | ⟨happend, hwritten⟩
    · exact hmade
    · exact hmade
    · -- the log is made then, but it stays empty
      obtain ⟨place, hplace, hfree, rfl⟩ := append_ok happend
      have hnone : r.added = .empty := by
        cases hline : r.written with
        | ok line =>
          rw [hline] at hwritten
          cases hwritten
        | error fault =>
          rw [Record.added, hline]
          rfl
      rw [← hmade, hnone, ByteArray.append_empty]
      by_cases hspot : spot = place
      · rw [hspot, Disk.heldAt_of_file (Disk.content?_put_self (Disk.ne_root hfree))]
      · exact (Disk.grows_put hfree).heldAt hspot

theorem add_grows (log : Path) (r : Record) (d : Disk) :
    d.Grows Set.univ ((add log r : StateM Disk (Except WriteFault Unit)).run d).2 := by
  rcases hadd : (add log r : StateM Disk (Except WriteFault Unit)).run d with ⟨outcome, next⟩
  rcases add_cases hadd with ⟨-, rfl⟩ | ⟨tried, made, hmake, hrest⟩
  · exact .refl _ _
  · have hgrows := Disk.makeDirectories_grows d log.parent
    rw [hmake] at hgrows
    have hmade : d.Grows Set.univ made := hgrows.mono (Set.empty_subset _)
    rcases hrest with ⟨_, -, -, rfl⟩ | ⟨_, -, -, rfl⟩ | ⟨happend, -⟩
    · exact hmade
    · exact hmade
    · obtain ⟨spot, -, hfree, rfl⟩ := append_ok happend
      exact hmade.trans ((Disk.grows_put hfree).mono (Set.subset_univ _))

theorem add_sound (sound : d.Sound) (proper : log.IsProper) :
    ((add log r : StateM Disk (Except WriteFault Unit)).run d).2.Sound := by
  rcases hadd : (add log r : StateM Disk (Except WriteFault Unit)).run d with ⟨outcome, next⟩
  rcases add_cases hadd with ⟨-, rfl⟩ | ⟨tried, made, hmake, hrest⟩
  · exact sound
  · have hmade := sound.makeDirectories proper.parent
    rw [hmake] at hmade
    rcases hrest with ⟨_, -, -, rfl⟩ | ⟨_, -, -, rfl⟩ | ⟨happend, -⟩
    · exact hmade
    · exact hmade
    · obtain ⟨spot, hplace, -, rfl⟩ := append_ok happend
      exact hmade.put (hmade.place proper hplace)

end RunLog

end ScriptedRobot
