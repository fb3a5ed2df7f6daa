import Mathlib.Data.String.Basic
import Mathlib.Order.Basic
import ScriptedRobot.Level.Folder
import ScriptedRobot.Proofs.Storage.Removal

/-!
# The order of play

A folder lists its levels in an order file, or else they are played by name. Taking one file from the disk, if it is
not the order file, takes the paths that lead to it from the order of play and leaves the others as they are
(`LevelFolder.files_without`).
-/

namespace ScriptedRobot

namespace Path

/-- A text that is one name is a path of that name alone. -/
theorem ofString_of_name {name : String} (no_slash : '/' ∉ name.toList) (ne_empty : name ≠ "") (ne_dot : name ≠ ".") :
    ofString name = ⟨"", [name]⟩ := by
  have hroot : rootOf name.toList = "" := by
    cases hletters : name.toList with
    | nil => rfl
    | cons c cs =>
      have hc : c ≠ '/' := by
        rintro rfl
        exact no_slash (hletters ▸ List.mem_cons_self)
      unfold rootOf
      split
      · rename_i h
        exact absurd (List.cons.inj h).1 hc
      · rename_i h
        exact absurd (List.cons.inj h).1 hc
      · rename_i h
        exact absurd (List.cons.inj h).1 hc
      · rfl
  unfold ofString
  rw [hroot, List.splitOn_eq_singleton no_slash]
  simp [ne_empty, ne_dot]

end Path

namespace Disk

variable {d : Disk}

/-- No name on the disk holds a slash. -/
def Named (d : Disk) : Prop := ∀ entry ∈ d.entries, ∀ name ∈ entry.1, '/' ∉ name.toList

theorem no_slash_of_names (named : d.Named) {p : Path} {names : List String} (h : d.names p = .ok names)
    {name : String} (mem : name ∈ names) : '/' ∉ name.toList := by
  unfold Disk.names at h
  cases hplace : d.place p with
  | error fault =>
    rw [hplace] at h
    cases h
  | ok spot =>
    rw [hplace] at h
    simp only [bind, Except.bind] at h
    split at h
    · cases h
    · cases h
    · cases h
      obtain ⟨entry, hentry, hname⟩ := List.mem_filterMap.1 mem
      split at hname
      · exact named entry hentry name (List.mem_of_getLast? hname)
      · cases hname

/-- Where names lead to does not depend on the path that they are taken from. -/
theorem follow_eq_ok {p q : Path} {names : List String} {here spot : Place}
    (h : names.foldlM (d.step p) here = .ok spot) : names.foldlM (d.step q) here = .ok spot := by
  induction names generalizing here with
  | nil => exact h
  | cons name names ih =>
    rw [List.foldlM_cons] at h ⊢
    cases hstep : d.step p here name with
    | error fault =>
      rw [hstep] at h
      cases h
    | ok next =>
      have hstep' : d.step q here name = .ok next := by
        unfold step at hstep ⊢
        split at hstep
        · cases hstep
        · cases hstep
        · by_cases hup : name = ".."
          · rwa [if_pos hup] at hstep ⊢
          · rw [if_neg hup] at hstep ⊢
            by_cases hlong : name.utf8ByteSize > longestName
            · rw [if_pos hlong] at hstep
              cases hstep
            · rwa [if_neg hlong] at hstep ⊢
      rw [hstep] at h
      rw [hstep']
      exact ih h

theorem follow_of_place {p : Path} {spot : Place} (leads : d.place p = .ok spot) :
    p.names.foldlM (d.step p) (if p.isAbsolute then [] else d.here) = .ok spot := by
  unfold place at leads
  split at leads
  · cases leads
  · split at leads
    · cases leads
    · exact leads

/-- A name in a directory leads to its place there, unless it makes the path impossible. -/
theorem place_child {folder : Path} {spot : Place} {name : String} (one : Path.ofString name = ⟨"", [name]⟩)
    (no_parent : name ≠ "..") (leads : d.place folder = .ok spot) (dir : d.content? spot = some .directory) :
    d.place (folder.child name) = .ok (spot ++ [name]) ∨ d.place (folder.child name) = .error .nullInPath ∨
      d.place (folder.child name) = .error (.tooLong (folder.child name)) := by
  have hchild : folder.child name = ⟨folder.root, folder.names ++ [name]⟩ := by
    rw [Path.child, one]
    rfl
  have hstep : (folder.child name).names.foldlM (d.step (folder.child name))
      (if (folder.child name).isAbsolute then [] else d.here) = d.step (folder.child name) spot name := by
    have hroot : (folder.child name).isAbsolute = folder.isAbsolute := by
      rw [hchild]
      rfl
    have hnames : (folder.child name).names = folder.names ++ [name] := by rw [hchild]
    rw [hroot, hnames, List.foldlM_append, follow_eq_ok (follow_of_place leads)]
    exact bind_pure (d.step (folder.child name) spot name)
  rw [place, hstep, step, dir]
  simp only [if_neg no_parent]
  split
  · exact .inr (.inl rfl)
  · split
    · exact .inr (.inr rfl)
    · split
      · exact .inr (.inr rfl)
      · exact .inl rfl

end Disk

namespace LevelFolder

/-- The order by name is kept if names are left out. -/
theorem sortedNames_filter (names : List String) (keep : String → Bool) :
    sortedNames (names.filter keep) = (sortedNames names).filter keep := by
  have hsorted : ∀ names : List String, (sortedNames names).Pairwise fun a b => a ≤ b := by
    intro names
    refine (List.pairwise_mergeSort ?_ ?_ (names.filter isLevelName)).imp fun h => by simpa using h
    · intro a b c hab hbc
      simp only [decide_eq_true_eq] at hab hbc ⊢
      exact le_trans hab hbc
    · intro a b
      simpa using le_total a b
  have hperm : (sortedNames (names.filter keep)).Perm ((sortedNames names).filter keep) := by
    unfold sortedNames
    refine (List.mergeSort_perm _ _).trans ?_
    rw [List.filter_comm]
    exact (List.mergeSort_perm _ _).symm.filter keep
  exact hperm.eq_of_pairwise (fun a b _ _ hab hba => le_antisymm hab hba) (hsorted _) ((hsorted names).filter keep)

/-! ## Listing the files -/

theorem listedFiles_same_disk (d : Disk) (folder : Path) (names : List String) :
    ((listedFiles folder names : StateM Disk _).run d).2 = d := by
  induction names with
  | nil => rfl
  | cons name rest ih =>
    rw [listedFiles, stateM_run_bind, Disk.isThere_run]
    cases d.kind? (folder / Path.ofString name) with
    | error fault => rfl
    | ok kind? =>
      simp only [Except.map]
      rw [stateM_run_bind]
      cases kind? with
      | none => exact ih
      | some kind => exact ih

/-- The names of an order file lead to those of its files that are there. -/
theorem listedFiles_cons {d : Disk} {folder : Path} {name : String} {kind? : Option FileKind}
    (h : d.kind? (folder / Path.ofString name) = .ok kind?) (rest : List String) :
    ∃ more : List Log.Entry, (listedFiles folder (name :: rest) : StateM Disk _).run d =
      ((((listedFiles folder rest : StateM Disk _).run d).1.1.map
          (kind?.toList.map (fun _ => folder / Path.ofString name) ++ ·),
        more ++ ((listedFiles folder rest : StateM Disk _).run d).1.2), d) := by
  have hdisk := listedFiles_same_disk d folder rest
  rw [listedFiles, stateM_run_bind, Disk.isThere_run, h]
  simp only [Except.map]
  rw [stateM_run_bind]
  rcases hrest : (listedFiles folder rest : StateM Disk _).run d with ⟨⟨outcome, notes⟩, d'⟩
  rw [hrest] at hdisk
  cases hdisk
  cases kind? with
  | none => exact ⟨[_], by cases outcome <;> rfl⟩
  | some kind => exact ⟨[], by cases outcome <;> rfl⟩

theorem listedFiles_error {d : Disk} {folder : Path} {name : String} {rest : List String} {fault : StorageFault}
    (h : d.kind? (folder / Path.ofString name) = .error fault) :
    (listedFiles folder (name :: rest) : StateM Disk _).run d = ((.error (.storage fault), []), d) := by
  rw [listedFiles, stateM_run_bind, Disk.isThere_run, h]
  rfl

section Order

variable {d : Disk} {folder : Path}

/-- With an order file the folder is played in the order that the file lists. -/
theorem files_listed (dir : d.kind? folder = .ok (some .directory)) {kind : FileKind}
    (there : d.kind? (folder.child orderFile) = .ok (some kind)) {text : String}
    (reads : d.text (folder.child orderFile) = .ok text) :
    (files folder : StateM Disk _).run d = (listedFiles folder (listedNames text) : StateM Disk _).run d := by
  rw [files, stateM_run_bind, Disk.isDirectory_run, dir]
  simp only [Except.map, beq_self_eq_true]
  rw [stateM_run_bind, Disk.isThere_run, there]
  simp only [Except.map, Option.isSome_some]
  rw [stateM_run_bind, Disk.text_run, reads]

/-- Without one it is played by name. -/
theorem files_sorted (dir : d.kind? folder = .ok (some .directory))
    (none_there : d.kind? (folder.child orderFile) = .ok none) {names : List String} (holds : d.names folder = .ok names) :
    (files folder : StateM Disk _).run d = ((.ok ((sortedNames names).map folder.child), []), d) := by
  have hnames : (Storage.names folder : StateM Disk (Except StorageFault (List String))).run d =
      (d.names folder, d) := rfl
  rw [files, stateM_run_bind, Disk.isDirectory_run, dir]
  simp only [Except.map, beq_self_eq_true]
  rw [stateM_run_bind, Disk.isThere_run, none_there]
  simp only [Except.map, Option.isSome_none]
  rw [stateM_run_bind, hnames, holds]
  rfl

/-- A folder with a file to play is a directory, with a readable order file or with none. -/
theorem files_cases {paths : List Path} {f : Path} (h : ((files folder : StateM Disk _).run d).1.1 = .ok paths)
    (mem : f ∈ paths) :
    d.kind? folder = .ok (some .directory) ∧
      ((∃ kind text, d.kind? (folder.child orderFile) = .ok (some kind) ∧
          d.text (folder.child orderFile) = .ok text) ∨
        d.kind? (folder.child orderFile) = .ok none ∧ ∃ names, d.names folder = .ok names) := by
  rw [files, stateM_run_bind, Disk.isDirectory_run] at h
  cases hkind : d.kind? folder with
  | error fault =>
    rw [hkind] at h
    cases h
  | ok kind? =>
    rw [hkind] at h
    cases hdir : kind? == some .directory with
    | false =>
      simp only [Except.map, hdir] at h
      cases h
      cases mem
    | true =>
      simp only [Except.map, hdir] at h
      refine ⟨by rw [beq_iff_eq.1 hdir], ?_⟩
      rw [stateM_run_bind, Disk.isThere_run] at h
      rcases horder : d.kind? (folder.child orderFile) with fault | none | kind
      · rw [horder] at h
        cases h
      · right
        rw [horder] at h
        simp only [Except.map, Option.isSome_none] at h
        have hnames : (Storage.names folder : StateM Disk (Except StorageFault (List String))).run d =
            (d.names folder, d) := rfl
        rw [stateM_run_bind, hnames] at h
        cases hholds : d.names folder with
        | error fault =>
          rw [hholds] at h
          cases h
        | ok names => exact ⟨rfl, names, rfl⟩
      · left
        rw [horder] at h
        simp only [Except.map, Option.isSome_some] at h
        rw [stateM_run_bind, Disk.text_run] at h
        cases hreads : d.text (folder.child orderFile) with
        | error fault =>
          rw [hreads] at h
          cases h
        | ok text => exact ⟨kind, text, rfl, rfl⟩

variable {spot : Place} {bytes : ByteArray} {paths : List Path}

/-- Without the file an order file leads to the same other files as before. -/
theorem listedFiles_without (file : d.content? spot = some (.file bytes)) {names : List String}
    (h : ((listedFiles folder names : StateM Disk _).run d).1.1 = .ok paths) :
    ((listedFiles folder names : StateM Disk _).run (d.without spot)).1.1 =
        .ok (paths.filter fun p => d.place p ≠ .ok spot) ∧
      ∀ p ∈ paths, ∃ place, d.place p = .ok place := by
  induction names generalizing paths with
  | nil =>
    cases h
    exact ⟨rfl, nofun⟩
  | cons name rest ih =>
    cases hkind : d.kind? (folder / Path.ofString name) with
    | error fault =>
      rw [listedFiles_error hkind] at h
      cases h
    | ok kind? =>
      obtain ⟨_, hlisted⟩ := listedFiles_cons hkind rest
      rw [hlisted] at h
      cases hrest : ((listedFiles folder rest : StateM Disk _).run d).1.1 with
      | error fault =>
        simp only [hrest] at h
        cases h
      | ok later =>
        simp only [hrest] at h
        cases h
        obtain ⟨hlater, hplaces⟩ := ih hrest
        by_cases hspot : d.place (folder / Path.ofString name) = .ok spot
        · obtain ⟨_, hlisted'⟩ := listedFiles_cons (Disk.kind?_without_self file hspot) rest
          rw [hlisted', hlater]
          refine ⟨?_, ?_⟩
          · cases kind? with
            | none => rfl
            | some kind => simp [Except.map, hspot]
          · intro p hp
            rcases List.mem_append.1 hp with hp | hp
            · obtain ⟨_, -, rfl⟩ := List.mem_map.1 hp
              exact ⟨spot, hspot⟩
            · exact hplaces p hp
        · obtain ⟨_, hlisted'⟩ := listedFiles_cons ((Disk.kind?_without_of_ne file hspot).trans hkind) rest
          rw [hlisted', hlater]
          cases kind? with
          | none => exact ⟨rfl, hplaces⟩
          | some kind =>
            refine ⟨by simp [Except.map, hspot], ?_⟩
            intro p hp
            rcases List.mem_cons.1 hp with rfl | hp
            · obtain ⟨place, hplace, -⟩ := Disk.place_of_kind? hkind
              exact ⟨place, hplace⟩
            · exact hplaces p hp

theorem mem_sortedNames {names : List String} {name : String} :
    name ∈ sortedNames names ↔ name ∈ names ∧ isLevelName name = true := by
  rw [sortedNames, (List.mergeSort_perm _ _).mem_iff, List.mem_filter]

/-- The name of a level file is a single name, and not that of a directory above. -/
theorem ofString_levelName {name : String} (level : isLevelName name = true) (no_slash : '/' ∉ name.toList) :
    Path.ofString name = ⟨"", [name]⟩ ∧ name ≠ ".." := by
  have hne : ∀ {other : String}, isLevelName other = false → name ≠ other := by
    rintro other hother rfl
    rw [level] at hother
    cases hother
  exact ⟨Path.ofString_of_name no_slash (hne (by decide)) (hne (by decide)), hne (by decide)⟩

/-- Without the file the names in a folder lead to the same other files as before. -/
theorem sorted_without (file : d.content? spot = some (.file bytes)) (named : d.Named) {here : Place}
    (leads : d.place folder = .ok here) (dir : d.content? here = some .directory) {names : List String}
    (holds : d.names folder = .ok names) {f : Path} (mem : f ∈ (sortedNames names).map folder.child)
    (leads_there : d.place f = .ok spot) :
    (sortedNames (names.filter fun name => here ++ [name] != spot)).map folder.child =
        ((sortedNames names).map folder.child).filter (fun p => d.place p ≠ .ok spot) ∧
      ∀ p ∈ (sortedNames names).map folder.child, (d.without spot).place p = d.place p := by
  have hplaces : ∀ name ∈ sortedNames names, d.place (folder.child name) = .ok (here ++ [name]) ∨
      d.place (folder.child name) = .error .nullInPath ∨
      d.place (folder.child name) = .error (.tooLong (folder.child name)) := by
    intro name hname
    obtain ⟨hmem, hlevel⟩ := mem_sortedNames.1 hname
    obtain ⟨hone, hup⟩ := ofString_levelName hlevel (Disk.no_slash_of_names named holds hmem)
    exact Disk.place_child hone hup leads dir
  -- the file has a name in the folder, and no other name leads to it
  obtain ⟨own, hown, rfl⟩ := List.mem_map.1 mem
  have hspot : spot = here ++ [own] := by
    rcases hplaces own hown with h | h | h
    · exact (Except.ok.inj (h.symm.trans leads_there)).symm
    · cases h.symm.trans leads_there
    · cases h.symm.trans leads_there
  have hkeep : ∀ name ∈ sortedNames names, (here ++ [name] != spot) = decide (d.place (folder.child name) ≠ .ok spot) := by
    intro name hname
    by_cases hsame : name = own
    · rw [hsame, leads_there, hspot]
      simp
    · have hother : here ++ [name] ≠ spot := by
        rw [hspot]
        simpa using hsame
      have helsewhere : d.place (folder.child name) ≠ .ok spot := by
        rcases hplaces name hname with h | h | h
        · rw [h]
          simpa using hother
        · rw [h]
          exact nofun
        · rw [h]
          exact nofun
      simp [hother, helsewhere]
  refine ⟨?_, ?_⟩
  · rw [sortedNames_filter, List.filter_map, List.filter_congr hkeep]
    rfl
  · intro p hp
    obtain ⟨name, hname, rfl⟩ := List.mem_map.1 hp
    rcases Disk.place_without file (folder.child name) with hsame | ⟨hgone, -⟩
    · exact hsame
    · rcases hplaces name hname with h | h | h <;> cases h.symm.trans hgone

theorem files_same_disk (d : Disk) (folder : Path) : ((files folder : StateM Disk _).run d).2 = d := by
  have hnames : (Storage.names folder : StateM Disk (Except StorageFault (List String))).run d =
      (d.names folder, d) := rfl
  rw [files, stateM_run_bind, Disk.isDirectory_run]
  rcases d.kind? folder with fault | kind?
  · rfl
  · cases hdir : kind? == some .directory with
    | false =>
      simp only [Except.map, hdir]
      rfl
    | true =>
      simp only [Except.map, hdir]
      rw [stateM_run_bind, Disk.isThere_run]
      rcases d.kind? (folder.child orderFile) with fault | none | kind
      · rfl
      · simp only [Except.map, Option.isSome_none]
        rw [stateM_run_bind, hnames]
        cases d.names folder <;> rfl
      · simp only [Except.map, Option.isSome_some]
        rw [stateM_run_bind, Disk.text_run]
        cases d.text (folder.child orderFile) with
        | error fault => rfl
        | ok text => exact listedFiles_same_disk d folder _

/-- Without a file that it plays, and that is not its order file, a folder plays the others in the same order. -/
theorem files_without {notes : List Log.Entry} (named : d.Named)
    (order : (files folder : StateM Disk _).run d = ((.ok paths, notes), d)) {f : Path} (mem : f ∈ paths)
    (leads : d.place f = .ok spot) (file : d.content? spot = some (.file bytes))
    (not_order : d.place (folder.child orderFile) ≠ .ok spot) :
    ∃ more, (files folder : StateM Disk _).run (d.without spot) =
        ((.ok (paths.filter fun p => d.place p ≠ .ok spot), more), d.without spot) ∧
      ∀ p ∈ paths, (d.without spot).place p = d.place p := by
  have hfiles : ((files folder : StateM Disk _).run d).1.1 = .ok paths := by rw [order]
  have hdisk := files_same_disk (d.without spot) folder
  obtain ⟨hdir, horder⟩ := files_cases hfiles mem
  obtain ⟨here, hhere, hcontent⟩ := Disk.place_of_kind? hdir
  rw [Disk.kindAt_eq_directory] at hcontent
  have helsewhere : here ≠ spot := by
    rintro rfl
    rw [file] at hcontent
    cases hcontent
  have hfolder : d.place folder ≠ .ok spot := by
    rw [hhere]
    exact fun h => helsewhere (Except.ok.inj h)
  have hdir' := (Disk.kind?_without_of_ne file hfolder).trans hdir
  have hkind := Disk.kind?_without_of_ne file not_order
  suffices h : ((files folder : StateM Disk _).run (d.without spot)).1.1 =
      .ok (paths.filter fun p => d.place p ≠ .ok spot) ∧ ∀ p ∈ paths, (d.without spot).place p = d.place p by
    exact ⟨_, Prod.ext (Prod.ext h.1 rfl) hdisk, h.2⟩
  rcases horder with ⟨kind, text, hthere, hreads⟩ | ⟨hnone, names, hholds⟩
  · obtain ⟨place, hplace, -⟩ := Disk.place_of_kind? hthere
    have hreads' := (Disk.text_without ((Disk.place_without_of_ok file hplace).trans hplace.symm) not_order).trans hreads
    rw [files_listed hdir hthere hreads] at hfiles
    rw [files_listed hdir' (hkind.trans hthere) hreads']
    obtain ⟨hlisted, hplaces⟩ := listedFiles_without file hfiles
    refine ⟨hlisted, fun p hp => ?_⟩
    obtain ⟨place, hp⟩ := hplaces p hp
    rw [Disk.place_without_of_ok file hp, hp]
  · rw [files_sorted hdir hnone hholds] at hfiles
    cases hfiles
    have hholds' := Disk.names_without hhere (Disk.place_without_of_ok file hhere) helsewhere hholds
    rw [files_sorted hdir' (hkind.trans hnone) hholds']
    obtain ⟨hsorted, hplaces⟩ := sorted_without file named hhere hcontent hholds mem leads
    exact ⟨congrArg Except.ok hsorted, hplaces⟩

end Order

end LevelFolder

end ScriptedRobot
