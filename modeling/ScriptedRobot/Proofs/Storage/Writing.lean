import Mathlib
import ScriptedRobot.Proofs.Storage.Removal

/-!
# Writing to a disk

Putting something at a place changes nothing elsewhere, and no path that led somewhere leads elsewhere then, unless
a directory gives way. A directory that has been made is there, and making it again changes nothing.
-/

namespace ScriptedRobot.Disk

variable {d made : Disk} {spot other : Place} {p : Path} {content : FileContent}

theorem lookup_replace_self (entries : List (Place × FileContent)) :
    (put.replace spot content entries).lookup spot = some content := by
  induction entries with
  | nil => rw [put.replace, List.lookup_cons_self]
  | cons entry rest ih =>
    rw [put.replace]
    split
    · rw [List.lookup_cons_self]
    · rename_i hne
      rw [List.lookup_cons, beq_false_of_ne fun heq => hne heq.symm]
      exact ih

theorem lookup_replace_of_ne (h : other ≠ spot) (entries : List (Place × FileContent)) :
    (put.replace spot content entries).lookup other = entries.lookup other := by
  induction entries with
  | nil => rw [put.replace, List.lookup_cons, beq_false_of_ne h]
  | cons entry rest ih =>
    rw [put.replace]
    split
    · rename_i heq
      rw [List.lookup_cons, List.lookup_cons, heq, beq_false_of_ne h]
    · rw [List.lookup_cons, List.lookup_cons, ih]

theorem content?_put_self (h : spot ≠ []) : (d.put spot content).content? spot = some content := by
  rw [content?, if_neg h]
  exact lookup_replace_self d.entries

theorem content?_put_of_ne (h : other ≠ spot) : (d.put spot content).content? other = d.content? other := by
  unfold content?
  split
  · rfl
  · exact lookup_replace_of_ne h d.entries

/-- The root is a directory for good. -/
theorem ne_root (h : d.content? spot ≠ some .directory) : spot ≠ [] := by
  rintro rfl
  exact h rfl

/-- Names still lead to the same place on a disk that has all the directories. -/
theorem follow_kept (kept : ∀ spot, d.content? spot = some .directory → made.content? spot = some .directory)
    {names : List String} {here : Place} (leads : names.foldlM (d.step p) here = .ok other) :
    names.foldlM (made.step p) here = .ok other := by
  induction names generalizing here with
  | nil => exact leads
  | cons name names ih =>
    rw [List.foldlM_cons] at leads ⊢
    cases hnext : d.step p here name with
    | error fault =>
      rw [hnext] at leads
      cases leads
    | ok next =>
      have hstep : made.step p here name = .ok next := by
        -- only a directory leads on
        unfold step at hnext ⊢
        split at hnext
        · cases hnext
        · cases hnext
        · rename_i hdirectory
          rw [kept here hdirectory]
          exact hnext
      rw [hnext] at leads
      rw [hstep]
      exact ih leads

/-- A path still leads where it has led, if no directory has gone. -/
theorem place_kept (stays : made.here = d.here)
    (kept : ∀ spot, d.content? spot = some .directory → made.content? spot = some .directory)
    (leads : d.place p = .ok other) : made.place p = .ok other := by
  unfold place at leads ⊢
  split at leads
  · cases leads
  · split at leads
    · cases leads
    · rename_i hnull hlong
      rw [if_neg hnull, if_neg hlong, stays]
      exact follow_kept kept leads

/-- What is put where there was no directory takes no directory away. -/
theorem directory_put (h : d.content? spot ≠ some .directory) (directory : d.content? other = some .directory) :
    (d.put spot content).content? other = some .directory := by
  have hne : other ≠ spot := by
    rintro rfl
    exact h directory
  rw [content?_put_of_ne hne, directory]

theorem place_put (h : d.content? spot ≠ some .directory) (leads : d.place p = .ok other) :
    (d.put spot content).place p = .ok other :=
  place_kept (d := d) rfl (fun _ => directory_put h) leads

/-! ## Directories -/

theorem kind?_directory (leads : d.place p = .ok spot) (h : d.content? spot = some .directory) :
    d.kind? p = .ok (some .directory) := by
  rw [kind?_eq, leads]
  exact congrArg Except.ok (kindAt_eq_directory.2 h)

theorem directory_of_kind? (h : d.kind? p = .ok (some .directory)) :
    ∃ spot, d.place p = .ok spot ∧ d.content? spot = some .directory := by
  obtain ⟨spot, hplace, hkind⟩ := place_of_kind? h
  exact ⟨spot, hplace, kindAt_eq_directory.1 hkind⟩

/-- A directory stays one, whatever is put where there was none. -/
theorem kind?_put (h : d.content? spot ≠ some .directory) (directory : d.kind? p = .ok (some .directory)) :
    (d.put spot content).kind? p = .ok (some .directory) := by
  obtain ⟨folder, hplace, hfolder⟩ := directory_of_kind? directory
  exact kind?_directory (place_put h hplace) (directory_put h hfolder)

theorem makeDirectory_eq (d : Disk) (p : Path) : d.makeDirectory p = match d.place p with
    | .error fault => .error fault
    | .ok spot => match d.content? spot with
      | some _ => .error (.alreadyThere p)
      | none => .ok (d.put spot .directory) := by
  unfold makeDirectory
  cases d.place p with
  | error fault => rfl
  | ok spot =>
    simp only [bind, Except.bind]
    cases d.content? spot <;> rfl

theorem makeDirectory_run (d : Disk) (p : Path) :
    (Storage.makeDirectory p : StateM Disk (Except StorageFault Unit)).run d = match d.makeDirectory p with
      | .ok made => (.ok (), made)
      | .error fault => (.error fault, d) := rfl

theorem ensureDirectory_run (h : d.kind? p = .ok (some .directory)) :
    (Storage.ensureDirectory p : StateM Disk (Except StorageFault Unit)).run d = (.ok (), d) := by
  obtain ⟨spot, hplace, hspot⟩ := directory_of_kind? h
  have hmake : d.makeDirectory p = .error (.alreadyThere p) := by
    rw [makeDirectory_eq, hplace]
    simp only [hspot]
  rw [Storage.ensureDirectory, stateM_run_bind, makeDirectory_run, hmake]
  simp only
  rw [stateM_run_bind, isDirectory_run, h]
  rfl

/-- Making a directory that is there changes nothing. -/
theorem makeDirectories_run (h : d.kind? p = .ok (some .directory)) :
    (Storage.makeDirectories p : StateM Disk (Except StorageFault Unit)).run d = (.ok (), d) := by
  rw [Storage.makeDirectories]
  cases p.names.length with
  | zero => exact ensureDirectory_run h
  | succ depth =>
    rw [Storage.ensureDirectories, stateM_run_bind, ensureDirectory_run h]
    rfl

theorem makeDirectory_there (h : d.makeDirectory p = .ok made) : made.kind? p = .ok (some .directory) := by
  rw [makeDirectory_eq] at h
  cases hplace : d.place p with
  | error fault =>
    rw [hplace] at h
    cases h
  | ok spot =>
    rw [hplace] at h
    cases hspot : d.content? spot with
    | some content =>
      simp only [hspot] at h
      cases h
    | none =>
      simp only [hspot] at h
      obtain rfl := Except.ok.inj h
      have hfree : d.content? spot ≠ some .directory := by simp [hspot]
      exact kind?_directory (place_put hfree hplace) (content?_put_self (ne_root hfree))

theorem ensureDirectory_there
    (h : (Storage.ensureDirectory p : StateM Disk (Except StorageFault Unit)).run d = (.ok (), made)) :
    made.kind? p = .ok (some .directory) := by
  rw [Storage.ensureDirectory, stateM_run_bind, makeDirectory_run] at h
  cases hmake : d.makeDirectory p with
  | ok next =>
    rw [hmake] at h
    obtain rfl : next = made := congrArg Prod.snd h
    exact makeDirectory_there hmake
  | error fault =>
    rw [hmake] at h
    simp only at h
    split at h
    · rename_i heq
      cases heq
    · cases h
    · -- something is at the path already, and it is looked at
      rw [stateM_run_bind, isDirectory_run] at h
      cases hkind : d.kind? p with
      | error fault =>
        rw [hkind] at h
        cases h
      | ok kind =>
        rw [hkind] at h
        by_cases hdirectory : kind = some .directory
        · subst hdirectory
          obtain rfl : d = made := congrArg Prod.snd h
          exact hkind
        · simp only [Except.map, beq_false_of_ne hdirectory] at h
          cases h

/-- A directory that has been made is there. -/
theorem makeDirectories_there
    (h : (Storage.makeDirectories p : StateM Disk (Except StorageFault Unit)).run d = (.ok (), made)) :
    made.kind? p = .ok (some .directory) := by
  rw [Storage.makeDirectories] at h
  cases hdepth : p.names.length with
  | zero =>
    rw [hdepth] at h
    exact ensureDirectory_there h
  | succ depth =>
    rw [hdepth, Storage.ensureDirectories, stateM_run_bind] at h
    split at h
    · split at h
      · cases h
      · rw [stateM_run_bind] at h
        split at h
        · cases h
        · exact ensureDirectory_there h
    · exact ensureDirectory_there h

end ScriptedRobot.Disk
