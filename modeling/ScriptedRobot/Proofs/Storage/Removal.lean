import ScriptedRobot.Countdown
import ScriptedRobot.Proofs.Storage.Reading

/-!
# Taking a file from a disk

A path that leads elsewhere finds on the disk without a file what it has found on the disk with it. Only a path that
would go on through the file fails for another reason than before, and in both cases there is nothing.
-/

namespace ScriptedRobot

namespace Disk

/-- What kind of thing is at a path, if anything is. -/
def kind? (d : Disk) (p : Path) : Except StorageFault (Option FileKind) :=
  match d.kind p with
  | .ok kind => .ok (some kind)
  | .error fault => if fault.meansAbsent then .ok none else .error fault

theorem kind?_run (d : Disk) (p : Path) :
    (Storage.kind? p : StateM Disk (Except StorageFault (Option FileKind))).run d = (d.kind? p, d) := by
  have hkind : (Storage.kind p : StateM Disk (Except StorageFault FileKind)).run d = (d.kind p, d) := rfl
  rw [Storage.kind?, stateM_run_bind, hkind, Disk.kind?]
  cases d.kind p <;> rfl

theorem isDirectory_run (d : Disk) (p : Path) :
    (Storage.isDirectory p : StateM Disk (Except StorageFault Bool)).run d =
      ((d.kind? p).map (· == some .directory), d) := by
  rw [Storage.isDirectory, stateM_run_bind, kind?_run]
  rfl

theorem isThere_run (d : Disk) (p : Path) :
    (Storage.isThere p : StateM Disk (Except StorageFault Bool)).run d = ((d.kind? p).map Option.isSome, d) := by
  rw [Storage.isThere, stateM_run_bind, kind?_run]
  rfl

/-- The kind of what is at a place. -/
def kindAt (d : Disk) (spot : Place) : Option FileKind :=
  (d.content? spot).map fun
    | .file _ => .file
    | .directory => .directory

theorem kind?_eq (d : Disk) (p : Path) : d.kind? p = match d.place p with
    | .error fault => if fault.meansAbsent then .ok none else .error fault
    | .ok spot => .ok (d.kindAt spot) := by
  unfold kind? kind find kindAt
  cases d.place p with
  | error fault => rfl
  | ok spot =>
    simp only [bind, Except.bind]
    cases d.content? spot with
    | none => rfl
    | some content => cases content <;> rfl

/-- What is found at a path lies at a place. -/
theorem place_of_kind? {d : Disk} {p : Path} {kind : FileKind} (h : d.kind? p = .ok (some kind)) :
    ∃ spot, d.place p = .ok spot ∧ d.kindAt spot = some kind := by
  rw [kind?_eq] at h
  cases hplace : d.place p with
  | error fault =>
    rw [hplace] at h
    simp only at h
    split at h <;> cases h
  | ok spot =>
    rw [hplace] at h
    exact ⟨spot, rfl, Except.ok.inj h⟩

theorem kindAt_eq_directory {d : Disk} {spot : Place} :
    d.kindAt spot = some .directory ↔ d.content? spot = some .directory := by
  unfold kindAt
  cases d.content? spot with
  | none => simp
  | some content => cases content <;> simp

/-- The text of a file that is there does not depend on the path that leads to it. -/
theorem text_of_place {d : Disk} {p : Path} {spot : Place} {bytes : ByteArray} (leads : d.place p = .ok spot)
    (file : d.content? spot = some (.file bytes)) :
    d.text p = (textOfBytes? bytes).elim (.error .undecodable) .ok := by
  rw [text, bytes_eq, leads]
  simp only [file]

/-- The disk without what is at a place. -/
def without (d : Disk) (spot : Place) : Disk := { d with entries := d.entries.filter fun entry => entry.1 != spot }

variable {d : Disk} {spot : Place}

theorem content?_without_of_ne {other : Place} (h : other ≠ spot) :
    (d.without spot).content? other = d.content? other := by
  unfold content? without
  rw [Countdown.lookup_filter_ne h]

theorem content?_without_self (h : spot ≠ []) : (d.without spot).content? spot = none := by
  unfold content? without
  rw [if_neg h, List.lookup_eq_none_iff]
  intro entry hentry
  have hne := (List.mem_filter.1 hentry).2
  rw [bne_comm] at hne
  simpa using hne

theorem step_without (p : Path) {here : Place} (h : here ≠ spot) (name : String) :
    (d.without spot).step p here name = d.step p here name := by
  unfold step
  rw [content?_without_of_ne h]

section Following

variable {bytes : ByteArray} (file : d.content? spot = some (.file bytes))

include file

theorem ne_root_of_file : spot ≠ [] := by
  rintro rfl
  cases file

/-- Names lead to the same place, unless they go on through the file. -/
theorem follow_without (p : Path) (names : List String) (here : Place) :
    names.foldlM ((d.without spot).step p) here = names.foldlM (d.step p) here ∨
      names.foldlM (d.step p) here = .error (.notDirectory p) ∧
        names.foldlM ((d.without spot).step p) here = .error (.notFound p) := by
  induction names generalizing here with
  | nil => exact .inl rfl
  | cons name names ih =>
    rw [List.foldlM_cons, List.foldlM_cons]
    by_cases hhere : here = spot
    · right
      have hstep : d.step p here name = .error (.notDirectory p) := by
        rw [step, hhere, file]
      have hstep' : (d.without spot).step p here name = .error (.notFound p) := by
        rw [step, hhere, content?_without_self (ne_root_of_file file)]
      rw [hstep, hstep']
      exact ⟨rfl, rfl⟩
    · rw [step_without p hhere]
      cases d.step p here name with
      | error fault => exact .inl rfl
      | ok next => exact ih next

theorem place_without (p : Path) :
    (d.without spot).place p = d.place p ∨
      d.place p = .error (.notDirectory p) ∧ (d.without spot).place p = .error (.notFound p) := by
  unfold place
  split
  · exact .inl rfl
  · split
    · exact .inl rfl
    · exact follow_without file p p.names _

/-- A path that leads to a place still leads there. -/
theorem place_without_of_ok {p : Path} {other : Place} (h : d.place p = .ok other) :
    (d.without spot).place p = .ok other := by
  rcases place_without file p with hsame | ⟨hgone, -⟩
  · rw [hsame, h]
  · rw [h] at hgone
    cases hgone

/-- What is at a path that leads elsewhere stays the same. -/
theorem kind?_without_of_ne {p : Path} (h : d.place p ≠ .ok spot) : (d.without spot).kind? p = d.kind? p := by
  rw [kind?_eq, kind?_eq]
  rcases place_without file p with hsame | ⟨hgone, hgone'⟩
  · rw [hsame]
    cases hplace : d.place p with
    | error fault => rfl
    | ok other =>
      have hother : other ≠ spot := by
        rintro rfl
        exact h hplace
      simp only [kindAt, content?_without_of_ne hother]
  · rw [hgone, hgone']
    rfl

/-- At a path that leads to the file there is nothing left. -/
theorem kind?_without_self {p : Path} (h : d.place p = .ok spot) : (d.without spot).kind? p = .ok none := by
  rw [kind?_eq, place_without_of_ok file h]
  simp only [kindAt, content?_without_self (ne_root_of_file file), Option.map_none]

end Following

/-- A text elsewhere stays the same. -/
theorem text_without {p : Path} (leads : (d.without spot).place p = d.place p) (h : d.place p ≠ .ok spot) :
    (d.without spot).text p = d.text p := by
  rw [text, text, bytes_eq, bytes_eq, leads]
  cases hplace : d.place p with
  | error fault => rfl
  | ok other =>
    have hother : other ≠ spot := by
      rintro rfl
      exact h hplace
    simp only [content?_without_of_ne hother]

/-- The names in a directory, but for that of the file. -/
theorem names_without {p : Path} {folder : Place} {names : List String} (leads : d.place p = .ok folder)
    (leads' : (d.without spot).place p = .ok folder) (elsewhere : folder ≠ spot) (h : d.names p = .ok names) :
    (d.without spot).names p = .ok (names.filter fun name => folder ++ [name] != spot) := by
  unfold Disk.names at h ⊢
  rw [leads] at h
  rw [leads']
  simp only [bind, Except.bind, content?_without_of_ne elsewhere] at h ⊢
  split at h
  · cases h
  · cases h
  · cases h
    simp only [without, List.filterMap_filter, List.filter_filterMap]
    refine congrArg Except.ok (List.filterMap_congr fun entry _ => ?_)
    by_cases hfolder : entry.1.dropLast = folder
    · simp only [if_pos hfolder]
      cases hlast : entry.1.getLast? with
      | none => simp
      | some name =>
        have hentry : folder ++ [name] = entry.1 := hfolder ▸ List.dropLast_append_getLast? name hlast
        simp only [hentry, Option.filter_some]
    · simp only [if_neg hfolder, ite_self]
      rfl

end Disk

end ScriptedRobot
