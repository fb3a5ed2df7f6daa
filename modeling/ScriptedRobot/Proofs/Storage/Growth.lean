import Mathlib
import ScriptedRobot.Proofs.Level.Ordering
import ScriptedRobot.Proofs.Storage.Writing

/-!
# Disks that grow

Making directories and adding to files takes nothing from a disk: directories stay where they are, and so do files but
for those that are added to (`Disk.Grows`). So all paths lead where they have led. A directory that cannot be made is not
there then (`Disk.makeDirectories_fails`).
-/

namespace ScriptedRobot

namespace Path

/-- The text of a path starts with that of the path without its last name, which may also be the current directory. -/
theorem text_eq_parent {p : Path} (h : p.names ≠ []) :
    p.parent.text = "." ∨ ∃ rest, p.text = p.parent.text ++ rest := by
  have hnames := List.dropLast_append_getLast h
  by_cases hparent : p.parent.root = "" ∧ p.parent.names = []
  · exact .inl (if_pos hparent)
  · right
    have htext : p.text = p.root ++ "/".intercalate p.names := if_neg fun hempty => h hempty.2
    have habove : p.parent.text = p.root ++ "/".intercalate p.names.dropLast := if_neg hparent
    rw [htext, habove]
    by_cases hnone : p.names.dropLast = []
    · rw [hnone]
      exact ⟨"/".intercalate p.names, by rw [String.intercalate_nil, String.append_empty]⟩
    · rw [← hnames, String.intercalate_append_of_ne_nil hnone (List.cons_ne_nil _ _), hnames]
      exact ⟨"/" ++ "/".intercalate [p.names.getLast h], by simp only [String.append_assoc]⟩

end Path

namespace Disk

variable {d d' d'' made : Disk} {changed more : Set Place} {spot : Place} {p : Path} {content : FileContent}

/-- The disk has grown: every directory is still there, and only files at certain places may have changed. -/
structure Grows (changed : Set Place) (d d' : Disk) : Prop where
  here : d'.here = d.here
  directory : ∀ spot, d.content? spot = some .directory → d'.content? spot = some .directory
  file : ∀ spot ∉ changed, ∀ bytes, d'.content? spot = some (.file bytes) ↔ d.content? spot = some (.file bytes)

theorem Grows.refl (changed : Set Place) (d : Disk) : d.Grows changed d :=
  ⟨rfl, fun _ h => h, fun _ _ _ => Iff.rfl⟩

theorem Grows.trans (h : d.Grows changed d') (h' : d'.Grows changed d'') : d.Grows changed d'' where
  here := h'.here.trans h.here
  directory spot hspot := h'.directory spot (h.directory spot hspot)
  file spot hspot bytes := (h'.file spot hspot bytes).trans (h.file spot hspot bytes)

theorem Grows.mono (h : d.Grows changed d') (sub : changed ⊆ more) : d.Grows more d' where
  here := h.here
  directory := h.directory
  file spot hspot := h.file spot fun hchanged => hspot (sub hchanged)

theorem Grows.place (h : d.Grows changed d') (leads : d.place p = .ok spot) : d'.place p = .ok spot :=
  place_kept h.here h.directory leads

theorem Grows.kind? (h : d.Grows changed d') (directory : d.kind? p = .ok (some .directory)) :
    d'.kind? p = .ok (some .directory) := by
  obtain ⟨spot, hplace, hspot⟩ := directory_of_kind? directory
  exact kind?_directory (h.place hplace) (h.directory spot hspot)

/-- The bytes of the file at a place; none if there is no file. -/
def heldAt (d : Disk) (spot : Place) : ByteArray :=
  match d.content? spot with
  | some (.file bytes) => bytes
  | _ => .empty

theorem heldAt_of_file {bytes : ByteArray} (h : d.content? spot = some (.file bytes)) : d.heldAt spot = bytes := by
  rw [heldAt, h]

theorem Grows.heldAt (h : d.Grows changed d') (unchanged : spot ∉ changed) : d'.heldAt spot = d.heldAt spot := by
  have hfile := h.file spot unchanged
  unfold Disk.heldAt
  split
  · rename_i bytes hcontent
    rw [(hfile bytes).1 hcontent]
  · rename_i hnone
    split
    · rename_i bytes hcontent
      exact absurd ((hfile bytes).2 hcontent) (hnone bytes)
    · rfl

/-! ## What grows -/

theorem grows_put (h : d.content? spot ≠ some .directory) : d.Grows {spot} (d.put spot content) where
  here := rfl
  directory _ := directory_put h
  file other hother bytes := by rw [content?_put_of_ne hother]

theorem grows_put_directory (h : d.content? spot = none) : d.Grows ∅ (d.put spot .directory) := by
  have hfree : d.content? spot ≠ some .directory := by simp [h]
  refine ⟨rfl, fun _ => directory_put hfree, fun other _ bytes => ?_⟩
  by_cases hother : other = spot
  · rw [hother, content?_put_self (ne_root hfree), h]
    simp
  · rw [content?_put_of_ne hother]

theorem makeDirectory_grows (h : d.makeDirectory p = .ok made) : d.Grows ∅ made := by
  rw [makeDirectory_eq] at h
  cases hplace : d.place p with
  | error fault =>
    rw [hplace] at h
    cases h
  | ok spot =>
    rw [hplace] at h
    cases hspot : d.content? spot with
    | some content =>
      simp only [hspot] at h
      cases h
    | none =>
      simp only [hspot] at h
      obtain rfl := Except.ok.inj h
      exact grows_put_directory hspot

/-- A directory is made, or the disk stays as it is. -/
theorem ensureDirectory_cases (d : Disk) (p : Path) :
    (∃ made, d.makeDirectory p = .ok made ∧
      (Storage.ensureDirectory p : StateM Disk (Except StorageFault Unit)).run d = (.ok (), made)) ∨
    ((Storage.ensureDirectory p : StateM Disk (Except StorageFault Unit)).run d).2 = d := by
  rw [Storage.ensureDirectory, stateM_run_bind, makeDirectory_run]
  cases hmake : d.makeDirectory p with
  | ok made => exact .inl ⟨made, rfl, rfl⟩
  | error fault =>
    right
    simp only
    split
    · rename_i heq
      cases heq
    · rfl
    · rw [stateM_run_bind, isDirectory_run]
      cases hkind : d.kind? p with
      | error fault => rfl
      | ok kind =>
        simp only [Except.map]
        cases kind == some .directory <;> rfl

theorem ensureDirectory_grows (d : Disk) (p : Path) :
    d.Grows ∅ ((Storage.ensureDirectory p : StateM Disk (Except StorageFault Unit)).run d).2 := by
  rcases ensureDirectory_cases d p with ⟨made, hmake, hrun⟩ | hsame
  · rw [hrun]
    exact makeDirectory_grows hmake
  · rw [hsame]
    exact .refl ∅ d

theorem ensureDirectories_grows (depth : Nat) (d : Disk) (p : Path) :
    d.Grows ∅ ((Storage.ensureDirectories depth p : StateM Disk (Except StorageFault Unit)).run d).2 := by
  induction depth generalizing d p with
  | zero => exact ensureDirectory_grows d p
  | succ depth ih =>
    have hfirst := ensureDirectory_grows d p
    rw [Storage.ensureDirectories, stateM_run_bind]
    split
    · split
      · exact hfirst
      · have habove := ih ((Storage.ensureDirectory p : StateM Disk (Except StorageFault Unit)).run d).2 p.parent
        rw [stateM_run_bind]
        split
        · exact hfirst.trans habove
        · exact (hfirst.trans habove).trans (ensureDirectory_grows _ p)
    · exact hfirst

/-- Making directories changes no file. -/
theorem makeDirectories_grows (d : Disk) (p : Path) :
    d.Grows ∅ ((Storage.makeDirectories p : StateM Disk (Except StorageFault Unit)).run d).2 :=
  ensureDirectories_grows p.names.length d p

/-! ## Directories that cannot be made -/

/-- A path with names leads through the directory above it. -/
theorem place_parent (names : p.names ≠ []) (leads : d.place p = .ok spot) :
    ∃ above, d.place p.parent = .ok above ∧ d.content? above = some .directory ∧
      d.step p above (p.names.getLast names) = .ok spot := by
  unfold place at leads
  split at leads
  · cases leads
  rename_i hnull
  split at leads
  · cases leads
  rename_i hlong
  have hnull' : ¬ p.parent.text.toList.contains '\x00' = true := by
    rw [List.contains_iff_mem] at hnull ⊢
    rcases Path.text_eq_parent names with hdot | ⟨rest, hrest⟩
    · rw [hdot]
      decide
    · rw [hrest, String.toList_append] at hnull
      exact fun hmem => hnull (List.mem_append_left _ hmem)
  have hlong' : ¬ p.parent.text.utf8ByteSize > longestPath := by
    rcases Path.text_eq_parent names with hdot | ⟨rest, hrest⟩
    · rw [hdot]
      decide
    · rw [hrest, String.utf8ByteSize_append] at hlong
      omega
  have hsplit : p.names = p.parent.names ++ [p.names.getLast names] := (List.dropLast_append_getLast names).symm
  have hroot : p.parent.isAbsolute = p.isAbsolute := rfl
  rw [hsplit, List.foldlM_append] at leads
  cases habove : p.parent.names.foldlM (d.step p) (if p.isAbsolute then [] else d.here) with
  | error fault =>
    rw [habove] at leads
    cases leads
  | ok above =>
    rw [habove] at leads
    have hstep : d.step p above (p.names.getLast names) = .ok spot := (bind_pure (d.step p above _)).symm.trans leads
    refine ⟨above, ?_, ?_, hstep⟩
    · rw [place, if_neg hnull', if_neg hlong', hroot]
      exact follow_eq_ok habove
    · unfold step at hstep
      split at hstep
      · cases hstep
      · cases hstep
      · assumption

/-- What is found at a path with names is in a directory. -/
theorem kind?_parent {kind : FileKind} (names : p.names ≠ []) (h : d.kind? p = .ok (some kind)) :
    d.kind? p.parent = .ok (some .directory) := by
  obtain ⟨spot, hplace, -⟩ := place_of_kind? h
  obtain ⟨above, habove, hdirectory, -⟩ := place_parent names hplace
  exact kind?_directory habove hdirectory

theorem ensureDirectory_fails {fault : StorageFault}
    (h : (Storage.ensureDirectory p : StateM Disk (Except StorageFault Unit)).run d = (.error fault, made)) :
    made.kind? p ≠ .ok (some .directory) := by
  rcases ensureDirectory_cases d p with ⟨made, -, hrun⟩ | hsame
  · rw [hrun] at h
    cases h
  · rw [h] at hsame
    obtain rfl : made = d := hsame
    intro hdirectory
    rw [ensureDirectory_run hdirectory] at h
    cases h

theorem ensureDirectories_fails {depth : Nat} {fault : StorageFault}
    (h : (Storage.ensureDirectories depth p : StateM Disk (Except StorageFault Unit)).run d = (.error fault, made)) :
    made.kind? p ≠ .ok (some .directory) := by
  induction depth generalizing d made fault p with
  | zero => exact ensureDirectory_fails h
  | succ depth ih =>
    rw [Storage.ensureDirectories, stateM_run_bind] at h
    split at h
    · rename_i hfirst
      split at h
      · cases h
        exact ensureDirectory_fails (Prod.ext hfirst rfl)
      · rename_i hnames
        rw [stateM_run_bind] at h
        split at h
        · -- the directory above it cannot be made either
          rename_i cause habove
          cases h
          intro hdirectory
          exact ih (Prod.ext habove rfl) (kind?_parent (by simpa using hnames) hdirectory)
        · exact ensureDirectory_fails h
    · exact ensureDirectory_fails h

/-- A directory that cannot be made is not there. -/
theorem makeDirectories_fails {fault : StorageFault}
    (h : (Storage.makeDirectories p : StateM Disk (Except StorageFault Unit)).run d = (.error fault, made)) :
    made.kind? p ≠ .ok (some .directory) :=
  ensureDirectories_fails h

end Disk

end ScriptedRobot
