import ScriptedRobot.Proofs.Level.Faults
import ScriptedRobot.Proofs.Storage.Reading

/-!
# Loading the levels of a folder

The files of a folder are made into levels one after the other, each with the random numbers that those before it
have left. A file that describes no level is noted and gives none, and the rest go on. A file that `Stops` takes
the others with it: then no level of the folder is had (`LevelFolder.load_fails_iff_stops`).
-/

namespace ScriptedRobot

/-- The file at a path, with what it says. -/
def Disk.levelFile (d : Disk) (p : Path) : LevelFile := ⟨p, d.text p⟩

namespace LevelFile

variable {σ : Type} [WordSource σ]

/-- The files that give a level, in order and each with it. A file that gives none may still use up random numbers. -/
def converted : List LevelFile → σ → List (LevelFile × LevelSpec)
  | [], _ => []
  | f :: rest, g =>
    match f.level g with
    | (.ok spec, g, _) => (f, spec) :: converted rest g
    | (.error _, g, _) => converted rest g

section Steps

variable {f : LevelFile} {fs : List LevelFile} {g next : σ} {spec : LevelSpec} {fault : LevelFileFault}
  {notes : List Log.Entry}

theorem converted_of_ok (h : f.level g = (.ok spec, next, notes)) :
    converted (f :: fs) g = (f, spec) :: converted fs next := by
  rw [converted, h]

theorem converted_of_error (h : f.level g = (.error fault, next, notes)) :
    converted (f :: fs) g = converted fs next := by
  rw [converted, h]

theorem levels_of_ok (h : f.level g = (.ok spec, next, notes)) :
    levels (f :: fs) g = ((levels fs next).1.map (spec :: ·), notes ++ (levels fs next).2) := by
  rw [levels, h]

theorem levels_of_skipped (h : f.level g = (.error fault, next, notes)) (skipped : fault.isSkipped = true) :
    levels (f :: fs) g = ((levels fs next).1, notes ++ f.skipNote fault :: (levels fs next).2) := by
  rw [levels, h]
  exact if_pos skipped

theorem levels_of_grave (h : f.level g = (.error fault, next, notes)) (grave : fault.isSkipped = false) :
    levels (f :: fs) g = (.error fault, notes) := by
  rw [levels, h]
  exact if_neg (by rw [grave]; decide)

/-- A file gives a level, or is skipped, or stops. -/
theorem level_cases (f : LevelFile) (g : σ) :
    (∃ spec next notes, f.level g = (.ok spec, next, notes)) ∨
      (∃ fault next notes, f.level g = (.error fault, next, notes) ∧ fault.isSkipped = true) ∨
      f.Stops ∧ ∃ fault next notes, f.level g = (.error fault, next, notes) ∧ fault.isSkipped = false := by
  rcases hlevel : f.level g with ⟨fault | spec, next, notes⟩
  · cases hskipped : fault.isSkipped with
    | true => exact .inr (.inl ⟨fault, next, notes, rfl, hskipped⟩)
    | false => exact .inr (.inr ⟨stops_of_level (congrArg Prod.fst hlevel) hskipped, fault, next, notes, rfl, hskipped⟩)
  · exact .inl ⟨spec, next, notes, rfl⟩

/-- A file that gives a level or is skipped does not stop. -/
theorem not_stops_of_ok (h : f.level g = (.ok spec, next, notes)) : ¬ f.Stops := by
  intro stops
  obtain ⟨grave, hfault, -⟩ := stops.level g
  rw [h] at hfault
  cases hfault

theorem not_stops_of_skipped (h : f.level g = (.error fault, next, notes)) (skipped : fault.isSkipped = true) :
    ¬ f.Stops := by
  intro stops
  obtain ⟨grave, hfault, hgrave⟩ := stops.level g
  rw [h] at hfault
  cases hfault
  exact absurd skipped (by rw [hgrave]; decide)

end Steps

/-- Whether a file gives a level does not depend on the source of random numbers. -/
theorem level_isOk (f : LevelFile) (g g' : σ) : (f.level g).1.isOk = (f.level g').1.isOk :=
  (f.level_parallel g g').isOk

/-- Neither does the fault of one that gives none. -/
theorem level_error {f : LevelFile} {g : σ} {fault : LevelFileFault} (h : (f.level g).1 = .error fault) (g' : σ) :
    (f.level g').1 = .error fault := (f.level_parallel g g').error_iff.1 h

theorem converted_files (fs : List LevelFile) (g g' : σ) :
    (converted fs g).map Prod.fst = fs.filter fun f => (f.level g').1.isOk := by
  induction fs generalizing g with
  | nil => rfl
  | cons f fs ih =>
    have hisOk := f.level_isOk g' g
    rcases hlevel : f.level g with ⟨fault | spec, next, notes⟩
    · rw [hlevel] at hisOk
      rw [converted_of_error hlevel, ih next, List.filter_cons, hisOk]
      rfl
    · rw [hlevel] at hisOk
      rw [converted_of_ok hlevel, List.map_cons, ih next, List.filter_cons, hisOk]
      rfl

theorem of_mem_converted {fs : List LevelFile} {g : σ} {f : LevelFile} {spec : LevelSpec}
    (h : (f, spec) ∈ converted fs g) : ∃ g' : σ, (f.level g').1 = .ok spec := by
  induction fs generalizing g with
  | nil => cases h
  | cons f' fs ih =>
    rcases hlevel : f'.level g with ⟨fault | spec', next, notes⟩
    · rw [converted_of_error hlevel] at h
      exact ih h
    · rw [converted_of_ok hlevel] at h
      rcases List.mem_cons.1 h with heq | hmem
      · cases heq
        exact ⟨g, congrArg Prod.fst hlevel⟩
      · exact ih hmem

/-- Files of which none stops give their levels. -/
theorem levels_of_none_stops {fs : List LevelFile} (h : ∀ f ∈ fs, ¬ f.Stops) (g : σ) :
    (levels fs g).1 = .ok ((converted fs g).map Prod.snd) := by
  induction fs generalizing g with
  | nil => rfl
  | cons f fs ih =>
    have hrest := ih fun f' hf' => h f' (List.mem_cons_of_mem f hf')
    rcases f.level_cases g with ⟨spec, next, notes, hlevel⟩ | ⟨fault, next, notes, hlevel, skipped⟩ | ⟨stops, -⟩
    · rw [levels_of_ok hlevel, converted_of_ok hlevel, hrest next]
      rfl
    · rw [levels_of_skipped hlevel skipped, converted_of_error hlevel]
      exact hrest next
    · exact absurd stops (h f List.mem_cons_self)

/-- A file that stops leaves no level of all the files. -/
theorem levels_of_stops {fs : List LevelFile} {f : LevelFile} (mem : f ∈ fs) (stops : f.Stops) (g : σ) :
    ∃ fault, (levels fs g).1 = .error fault := by
  induction fs generalizing g with
  | nil => cases mem
  | cons f' fs ih =>
    have hrest : ¬ f'.Stops → f ∈ fs := by
      intro goesOn
      rcases List.mem_cons.1 mem with rfl | mem
      · exact absurd stops goesOn
      · exact mem
    rcases f'.level_cases g with ⟨spec, next, notes, hlevel⟩ | ⟨fault, next, notes, hlevel, skipped⟩ |
      ⟨-, fault, next, notes, hlevel, grave⟩
    · obtain ⟨fault, hfault⟩ := ih (hrest (not_stops_of_ok hlevel)) next
      rw [levels_of_ok hlevel, hfault]
      exact ⟨fault, rfl⟩
    · rw [levels_of_skipped hlevel skipped]
      exact ih (hrest (not_stops_of_skipped hlevel skipped)) next
    · rw [levels_of_grave hlevel grave]
      exact ⟨fault, rfl⟩

/-- Each file without a level is noted, if none stops. -/
theorem skipNote_mem_levels {fs : List LevelFile} (h : ∀ f ∈ fs, ¬ f.Stops) {f : LevelFile} (mem : f ∈ fs) {g g' : σ}
    {fault : LevelFileFault} (refused : (f.level g').1 = .error fault) : f.skipNote fault ∈ (levels fs g).2 := by
  induction fs generalizing g with
  | nil => cases mem
  | cons f' fs ih =>
    have hrest := ih fun f' hf' => h f' (List.mem_cons_of_mem _ hf')
    rcases f'.level_cases g with ⟨spec, next, notes, hlevel⟩ | ⟨cause, next, notes, hlevel, skipped⟩ | ⟨stops, -⟩
    · rw [levels_of_ok hlevel]
      rcases List.mem_cons.1 mem with rfl | mem
      · have hsame := level_error refused g
        rw [hlevel] at hsame
        cases hsame
      · exact List.mem_append_right _ (hrest mem)
    · rw [levels_of_skipped hlevel skipped]
      refine List.mem_append_right _ ?_
      rcases List.mem_cons.1 mem with rfl | mem
      · have hsame := level_error refused g
        rw [hlevel] at hsame
        cases hsame
        exact List.mem_cons_self
      · exact List.mem_cons_of_mem _ (hrest mem)
    · exact absurd stops (h f' List.mem_cons_self)

end LevelFile

namespace LevelFolder

variable {σ : Type} [WordSource σ] {d : Disk} {folder : Path} {paths : List Path} {notes : List Log.Entry}

/-- Loading a folder whose order of play is known makes the levels of the files that its paths lead to. -/
theorem load_run (order : (files folder : StateM Disk _).run d = ((.ok paths, notes), d)) (g : σ) :
    ∃ loaded, (load folder g : StateM Disk _).run d =
      (((LevelFile.levels (paths.map d.levelFile) g).1,
        notes ++ (LevelFile.levels (paths.map d.levelFile) g).2 ++ loaded), d) := by
  have hread : ∀ p : Path, (readFile p : StateM Disk LevelFile).run d = (d.levelFile p, d) := by
    intro p
    rw [readFile, stateM_run_bind, Disk.text_run]
    rfl
  unfold load
  rw [stateM_run_bind, order]
  dsimp only
  rw [stateM_run_bind, stateM_run_mapM hread]
  exact ⟨_, rfl⟩

/-- The levels of a folder are had exactly if no file of it stops. Then they are those of the files that give one,
in the order of play, and each of the other files is noted as skipped. -/
theorem load_fails_iff_stops (order : (files folder : StateM Disk _).run d = ((.ok paths, notes), d)) (g : σ) :
    ∃ outcome more, (load folder g : StateM Disk _).run d = ((outcome, more), d) ∧
      ((∃ fault, outcome = .error fault) ↔ ∃ f ∈ paths.map d.levelFile, f.Stops) ∧
      ∀ levels, outcome = .ok levels →
        levels = (LevelFile.converted (paths.map d.levelFile) g).map Prod.snd ∧
        (LevelFile.converted (paths.map d.levelFile) g).map Prod.fst =
          (paths.map d.levelFile).filter (fun f => (f.level g).1.isOk) ∧
        (∀ made ∈ LevelFile.converted (paths.map d.levelFile) g, ∃ g' : σ, (made.1.level g').1 = .ok made.2) ∧
        ∀ f ∈ paths.map d.levelFile, ∀ fault, (f.level g).1 = .error fault → f.skipNote fault ∈ more := by
  obtain ⟨loaded, hload⟩ := load_run order g
  refine ⟨_, _, hload, ⟨?_, ?_⟩, ?_⟩
  · rintro ⟨fault, hfault⟩
    by_contra hnone
    rw [LevelFile.levels_of_none_stops (by simpa using hnone)] at hfault
    cases hfault
  · rintro ⟨f, hf, stops⟩
    exact LevelFile.levels_of_stops hf stops g
  · intro levels hlevels
    have hnone : ∀ f ∈ paths.map d.levelFile, ¬ f.Stops := by
      intro f hf stops
      obtain ⟨fault, hfault⟩ := LevelFile.levels_of_stops hf stops g
      rw [hlevels] at hfault
      cases hfault
    rw [LevelFile.levels_of_none_stops hnone] at hlevels
    cases hlevels
    refine ⟨rfl, LevelFile.converted_files _ g g, fun made hmade => LevelFile.of_mem_converted hmade, ?_⟩
    intro f hf fault hfault
    exact List.mem_append_left _ (List.mem_append_right _
      (LevelFile.skipNote_mem_levels hnone hf hfault))

/-! ### A folder with a level and something else -/

/-- The document of a small level with an obstacle somewhere. -/
def meadowText : String := "\x7b\"name\": \"Meadow\", \"grid_size\": \"3x3\", \"obstacles\": 1\x7d"

/-- The document of a level with more obstacles than there are numbers. -/
def thicketText : String := "\x7b\"name\": \"Thicket\", \"grid_size\": \"3x3\", \"obstacles\": 1e400\x7d"

/-- A disk with a folder of two files, the small level last. -/
def folderWith (text : String) : Disk where
  here := []
  entries := [(["levels"], .directory), (["levels", "order.txt"], .file "other.json\nmeadow.json".toUTF8),
    (["levels", "meadow.json"], .file meadowText.toUTF8), (["levels", "other.json"], .file text.toUTF8)]

/-- The paths of the two files. -/
def twoPaths : List Path := [⟨"", ["levels", "other.json"]⟩, ⟨"", ["levels", "meadow.json"]⟩]

/-- A source of random numbers that are zero, but for the first. -/
def someWords : Random.Twister := ⟨(Vector.replicate _ 0).set 0 0x40000000, 0⟩

/-- The order of play does not depend on what the file with the other name says. -/
theorem files_folderWith (text : String) : (files (.ofString "levels") : StateM Disk _).run (folderWith text) =
    ((.ok twoPaths, []), folderWith text) := by
  apply Prod.ext
  · exact Prod.ext rfl rfl
  · rfl

/-- The file with the small level. -/
def meadowFile : LevelFile := ⟨⟨"", ["levels", "meadow.json"]⟩, .ok meadowText⟩

/-- The file with something else. -/
def otherFile (text : String) : LevelFile := ⟨⟨"", ["levels", "other.json"]⟩, .ok text⟩

theorem levelFile_meadow (text : String) :
    (folderWith text).levelFile ⟨"", ["levels", "meadow.json"]⟩ = meadowFile := by
  rw [Disk.levelFile, Disk.text_of_plain rfl (by decide +kernel : '\r' ∉ meadowText.toList)]
  rfl

theorem levelFile_other {text : String} (plain : '\r' ∉ text.toList) :
    (folderWith text).levelFile ⟨"", ["levels", "other.json"]⟩ = otherFile text := by
  rw [Disk.levelFile, Disk.text_of_plain rfl plain]
  rfl

theorem levelFiles_folderWith {text : String} (plain : '\r' ∉ text.toList) :
    twoPaths.map (folderWith text).levelFile = [otherFile text, meadowFile] :=
  congrArg₂ (fun other meadow => [other, meadow]) (levelFile_other plain) (levelFile_meadow text)

theorem load_folderWith {text : String} (plain : '\r' ∉ text.toList) (g : σ) :
    ((load (.ofString "levels") g : StateM Disk _).run (folderWith text)).1.1 =
      (LevelFile.levels [otherFile text, meadowFile] g).1 := by
  obtain ⟨_, hload⟩ := load_run (files_folderWith text) g
  rw [hload, levelFiles_folderWith plain]

theorem load_fails_iff_stops_meadow :
    (files (.ofString "levels") : StateM Disk _).run (folderWith "[") = ((.ok twoPaths, []), folderWith "[") ∧
      ∃ levels more, (load (.ofString "levels") someWords : StateM Disk _).run (folderWith "[") =
        ((.ok levels, more), folderWith "[") ∧
        levels = (LevelFile.converted (twoPaths.map (folderWith "[").levelFile) someWords).map Prod.snd ∧
        (LevelFile.converted (twoPaths.map (folderWith "[").levelFile) someWords).map (·.1.path) =
          [⟨"", ["levels", "meadow.json"]⟩] := by
  have plain : '\r' ∉ "[".toList := by decide +kernel
  obtain ⟨outcome, more, hload, -, hlevels⟩ := load_fails_iff_stops (files_folderWith "[") someWords
  have hloaded := load_folderWith plain someWords
  have hisOk : (LevelFile.levels [otherFile "[", meadowFile] someWords).1.isOk = true := by decide +kernel
  rw [← hloaded, hload] at hisOk
  cases outcome with
  | error fault => cases hisOk
  | ok levels =>
    obtain ⟨heq, hfiles, -⟩ := hlevels levels rfl
    refine ⟨files_folderWith "[", levels, more, hload, heq, ?_⟩
    have hpaths := congrArg (List.map LevelFile.path) hfiles
    rw [List.map_map, levelFiles_folderWith plain] at hpaths
    rw [levelFiles_folderWith plain]
    exact hpaths.trans (by decide +kernel)

/-- One file with an infinite number takes away the level of the other. -/
theorem meadow_unloaded :
    ((folderWith thicketText).levelFile ⟨"", ["levels", "meadow.json"]⟩ |>.level someWords).1.isOk = true ∧
      ((load (.ofString "levels") someWords : StateM Disk _).run (folderWith thicketText)).1.1 =
        .error (.level .infinite) := by
  constructor
  · rw [levelFile_meadow]
    decide +kernel
  · rw [load_folderWith (by decide +kernel)]
    rfl

end LevelFolder

end ScriptedRobot
