import ScriptedRobot.Proofs.Level.Loading
import ScriptedRobot.Proofs.Level.Ordering

/-!
# What a skipped file leaves behind

All files of a folder draw from one source of random numbers. A file that is skipped may have used some of them up
before it was refused, and then the obstacles and items of the levels after it lie elsewhere than without it. That
is all: `LevelFolder.load_without` says which levels there are, in which order, and that they are the same but for
what is left to chance. They are the same altogether if they come before the skipped file, or nothing was drawn
for it.
-/

namespace ScriptedRobot

theorem ItemEntry.specs_settled {σ : Type} [WordSource σ] (width height : Int) {es : List ItemEntry}
    (h : ∀ e ∈ es, e.random.truthy = false) (taken : List Position) (g : σ) :
    (specs width height es taken g).2 = g := by
  induction es generalizing taken with
  | nil => rfl
  | cons e es ih =>
    have hplace : e.drawPlace width height taken g = (.ok e.place, g) := by
      rw [drawPlace, h e List.mem_cons_self]
      rfl
    rw [specs, hplace]
    simp only
    cases e.spec e.place with
    | invalid issues => rfl
    | valid item =>
      have hrest := ih (fun e' he' => h e' (List.mem_cons_of_mem e he')) (e.place.toList ++ taken)
      simp only
      generalize specs width height es (e.place.toList ++ taken) g = made at hrest ⊢
      obtain ⟨outcome, next⟩ := made
      cases outcome <;> exact hrest

namespace LevelFile

variable {σ : Type} [WordSource σ]

/-- A file with what it says of its level: all but what is left to chance. -/
def said (made : LevelFile × LevelSpec) : LevelFile × LevelDraft := (made.1, made.1.authored made.2)

theorem level_source {f : LevelFile} {d : LevelDocument} (reads : f.document = .ok d) (g : σ) :
    (f.level g).2.1 = (d.level g).2.1 := by
  rw [level, reads]

/-- Nothing is drawn for the file, whatever the source of random numbers. -/
def DrawsNothing (f : LevelFile) : Prop := ∀ {σ : Type} [WordSource σ] (g : σ), (f.level g).2.1 = g

/-- A file without a document is refused before anything is drawn. -/
theorem drawsNothing_of_document {f : LevelFile} {fault : LevelFileFault} (h : f.document = .error fault) :
    f.DrawsNothing := by
  intro σ _ g
  unfold level
  rw [h]

/-- So is one without a size. -/
theorem drawsNothing_of_boardSize {f : LevelFile} {d : LevelDocument} {fault : LevelFault}
    (reads : f.document = .ok d) (size : d.boardSize = .error fault) : f.DrawsNothing := by
  intro σ _ g
  rw [level_source reads, LevelDocument.level, size]

/-- A file that leaves nothing to chance may be refused at any point. -/
theorem drawsNothing_of_settled {f : LevelFile} {d : LevelDocument} (reads : f.document = .ok d)
    (obstacles : d.obstacles ≤ 0) (items : ∀ e ∈ d.items, e.random.truthy = false) : f.DrawsNothing := by
  intro σ _ g
  rw [level_source reads, LevelDocument.level, Int.toNat_of_nonpos obstacles]
  cases d.boardSize with
  | error fault => rfl
  | ok size =>
    obtain ⟨width, height⟩ := size
    simp only [drawFreeTiles]
    cases d.enemies.mapM fun e => e.spec.orFault with
    | error fault => rfl
    | ok enemies =>
      have hsource := ItemEntry.specs_settled width height items ([] ++ d.placed) g
      simp only
      generalize ItemEntry.specs width height d.items ([] ++ d.placed) g = made at hsource ⊢
      obtain ⟨outcome, next⟩ := made
      cases outcome <;> exact hsource

/-- The source of random numbers that some files leave. -/
def sourceAfter (fs : List LevelFile) (g : σ) : σ := fs.foldl (fun g f => (f.level g).2.1) g

theorem converted_append (fs rest : List LevelFile) (g : σ) :
    converted (fs ++ rest) g = converted fs g ++ converted rest (sourceAfter fs g) := by
  induction fs generalizing g with
  | nil => rfl
  | cons f fs ih =>
    rw [List.cons_append, sourceAfter, List.foldl_cons]
    rcases hlevel : f.level g with ⟨fault | spec, next, notes⟩
    · rw [converted_of_error hlevel, converted_of_error hlevel]
      exact ih next
    · rw [converted_of_ok hlevel, converted_of_ok hlevel]
      exact congrArg ((f, spec) :: ·) (ih next)

/-! ## Leaving files out -/

/-- The file gives no level and does not stop. -/
def IsSkipped (f : LevelFile) (g : σ) : Prop := ∃ fault, (f.level g).1 = .error fault ∧ fault.isSkipped = true

instance (f : LevelFile) (g : σ) : Decidable (f.IsSkipped g) :=
  match h : (f.level g).1 with
  | .ok _ => isFalse fun ⟨_, hfault, _⟩ => nomatch h.symm.trans hfault
  | .error fault => decidable_of_iff (fault.isSkipped = true)
      ⟨fun skipped => ⟨fault, h, skipped⟩, fun ⟨_, hfault, skipped⟩ => Except.error.inj (h.symm.trans hfault) ▸ skipped⟩

theorem IsSkipped.any {f : LevelFile} {g : σ} (h : f.IsSkipped g) (g' : σ) : f.IsSkipped g' := by
  obtain ⟨fault, hfault, skipped⟩ := h
  exact ⟨fault, level_error hfault g', skipped⟩

variable {fs : List LevelFile} {keep : LevelFile → Bool}

/-- Without some files that are skipped, files fail for the same reason, or give levels of the same files that say the
same. -/
theorem levels_filter (left_out : ∀ f ∈ fs, keep f = false → ∃ g : σ, f.IsSkipped g) (g g' : σ) :
    Parallel (fun specs specs' => specs = (converted fs g).map Prod.snd ∧
        specs' = (converted (fs.filter keep) g').map Prod.snd ∧
        (converted fs g).map said = (converted (fs.filter keep) g').map said)
      (levels fs g).1 (levels (fs.filter keep) g').1 := by
  induction fs generalizing g g' with
  | nil => exact .ok ⟨rfl, rfl, rfl⟩
  | cons f fs ih =>
    have hrest := ih fun f' hf' => left_out f' (List.mem_cons_of_mem f hf')
    cases hkeep : keep f with
    | false =>
      obtain ⟨_, hskipped⟩ := left_out f List.mem_cons_self hkeep
      obtain ⟨fault, hfault, skipped⟩ := hskipped.any g
      rcases hlevel : f.level g with ⟨cause | spec, next, notes⟩
      · rw [hlevel] at hfault
        cases hfault
        rw [levels_of_skipped hlevel skipped, converted_of_error hlevel, List.filter_cons_of_neg (by rw [hkeep]; decide)]
        exact hrest next g'
      · rw [hlevel] at hfault
        cases hfault
    | true =>
      rw [List.filter_cons_of_pos hkeep]
      have hsame := f.level_parallel g g'
      rcases hlevel : f.level g with ⟨x, next, notes⟩
      rcases hlevel' : f.level g' with ⟨x', next', notes'⟩
      rw [hlevel, hlevel'] at hsame
      cases hsame with
      | error fault =>
        cases hskipped : fault.isSkipped with
        | true =>
          rw [levels_of_skipped hlevel hskipped, levels_of_skipped hlevel' hskipped, converted_of_error hlevel,
            converted_of_error hlevel']
          exact hrest next next'
        | false =>
          rw [levels_of_grave hlevel hskipped, levels_of_grave hlevel' hskipped]
          exact .error fault
      | @ok spec spec' hsaid =>
        rw [levels_of_ok hlevel, levels_of_ok hlevel', converted_of_ok hlevel, converted_of_ok hlevel']
        have hlater := hrest next next'
        generalize (levels fs next).1 = y at hlater ⊢
        generalize (levels (fs.filter keep) next').1 = y' at hlater ⊢
        cases hlater with
        | error fault => exact .error fault
        | ok hlater =>
          obtain ⟨rfl, rfl, hsame⟩ := hlater
          refine .ok ⟨rfl, rfl, ?_⟩
          rw [List.map_cons, List.map_cons, hsame]
          exact congrArg (fun draft => (f, draft) :: _) hsaid

/-- Files that are skipped and for which nothing is drawn can be left out without any effect. -/
theorem converted_filter (left_out : ∀ f ∈ fs, keep f = false → (∃ g : σ, f.IsSkipped g) ∧ f.DrawsNothing) (g : σ) :
    converted fs g = converted (fs.filter keep) g := by
  induction fs generalizing g with
  | nil => rfl
  | cons f fs ih =>
    have hrest := ih fun f' hf' => left_out f' (List.mem_cons_of_mem f hf')
    rcases hlevel : f.level g with ⟨fault | spec, next, notes⟩
    · rw [converted_of_error hlevel]
      cases hkeep : keep f with
      | true => rw [List.filter_cons_of_pos hkeep, converted_of_error hlevel, hrest next]
      | false =>
        have hnothing : (f.level g).2.1 = g := (left_out f List.mem_cons_self hkeep).2 g
        rw [hlevel] at hnothing
        rw [List.filter_cons_of_neg (by rw [hkeep]; decide), hrest next]
        exact congrArg (converted (fs.filter keep)) hnothing
    · have hkeep : keep f = true := by
        by_contra hout
        obtain ⟨⟨_, hskipped⟩, -⟩ := left_out f List.mem_cons_self (Bool.eq_false_of_not_eq_true hout)
        obtain ⟨fault, hfault, -⟩ := hskipped.any g
        rw [hlevel] at hfault
        cases hfault
      rw [List.filter_cons_of_pos hkeep, converted_of_ok hlevel, converted_of_ok hlevel, hrest next]

/-- Two files with the same text, if it can be had at all, are made into levels in the same way. -/
theorem level_of_text {f f' : LevelFile} (same : f.text = f'.text) (had : ∀ fault, f.text ≠ .error (.storage fault))
    (g : σ) : f.level g = f'.level g := by
  have hdocument : f.document = f'.document := by
    rw [document_eq, document_eq, ← same]
    cases htext : f.text with
    | ok text => rfl
    | error fault =>
      cases fault with
      | undecodable => rfl
      | storage fault => exact absurd htext (had fault)
  rw [level, level, hdocument]

/-- What is skipped has a text, or one that is not UTF-8, or a path that no file can have. -/
theorem IsSkipped.text {f : LevelFile} {g : σ} (h : f.IsSkipped g) {fault : StorageFault}
    (reads : f.text = .error (.storage fault)) : fault = .nullInPath := by
  obtain ⟨cause, hcause, skipped⟩ := h
  by_contra hother
  obtain ⟨grave, hgrave, hnot⟩ := (Stops.unavailable reads hother).level g
  rw [hcause] at hgrave
  cases hgrave
  rw [skipped] at hnot
  cases hnot

end LevelFile

namespace LevelFolder

variable {σ : Type} [WordSource σ] {d : Disk} {folder f : Path} {paths : List Path} {notes : List Log.Entry}
  {spot : Place} {g : σ}

/-- A file on the disk that is skipped is there. -/
theorem file_of_isSkipped (leads : d.place f = .ok spot) (skipped : (d.levelFile f).IsSkipped g) :
    ∃ bytes, d.content? spot = some (.file bytes) := by
  have htext : ∀ fault, d.bytes f = .error fault → (d.levelFile f).text = .error (.storage fault) := by
    intro fault h
    rw [Disk.levelFile, Disk.text, h]
  rw [Disk.bytes_eq, leads] at htext
  simp only at htext
  cases hcontent : d.content? spot with
  | none =>
    rw [hcontent] at htext
    cases skipped.text (htext _ rfl)
  | some content =>
    cases content with
    | file bytes => exact ⟨bytes, rfl⟩
    | directory =>
      rw [hcontent] at htext
      cases skipped.text (htext _ rfl)

/-- All paths to a file are made into levels in the same way. -/
theorem level_of_place {p : Path} {bytes : ByteArray} (leads : d.place f = .ok spot) (leads' : d.place p = .ok spot)
    (file : d.content? spot = some (.file bytes)) (g : σ) : (d.levelFile p).level g = (d.levelFile f).level g := by
  have htext : (d.levelFile p).text = (textOfBytes? bytes).elim (.error .undecodable) .ok :=
    Disk.text_of_place leads' file
  refine LevelFile.level_of_text (htext.trans (Disk.text_of_place leads file).symm) (fun fault => ?_) g
  rw [htext]
  cases textOfBytes? bytes <;> exact nofun

/-- The files at paths that lead elsewhere say the same without the file. -/
theorem map_levelFile_without (same : ∀ p ∈ paths, (d.without spot).place p = d.place p) :
    (paths.filter fun p => d.place p ≠ .ok spot).map (d.without spot).levelFile =
      (paths.map d.levelFile).filter fun f => d.place f.path ≠ .ok spot := by
  have hstay : (paths.filter fun p => d.place p ≠ .ok spot).map (d.without spot).levelFile =
      (paths.filter fun p => d.place p ≠ .ok spot).map d.levelFile := by
    refine List.map_congr_left fun p hp => ?_
    obtain ⟨hp, helsewhere⟩ := List.mem_filter.1 hp
    rw [Disk.levelFile, Disk.levelFile, Disk.text_without (same p hp) (by simpa using helsewhere)]
  rw [hstay, List.filter_map]
  rfl

/-- A folder and the same folder without a file of it that is skipped: if one of them cannot be loaded then neither can
the other. Else they have levels of the same files in the same order, which are the same but for what is left to
chance. Those before the file are the same in that too, and all are if nothing is drawn for the file. -/
theorem load_without (named : d.Named) (order : (files folder : StateM Disk _).run d = ((.ok paths, notes), d))
    (mem : f ∈ paths) (leads : d.place f = .ok spot) (not_order : d.place (folder.child orderFile) ≠ .ok spot)
    (skipped : (d.levelFile f).IsSkipped g) :
    ∃ made made', made = LevelFile.converted (paths.map d.levelFile) g ∧
      made' = LevelFile.converted ((paths.map d.levelFile).filter fun f => d.place f.path ≠ .ok spot) g ∧
      Parallel (fun levels levels' => levels = made.map Prod.snd ∧ levels' = made'.map Prod.snd ∧
          made.map LevelFile.said = made'.map LevelFile.said)
        ((load folder g : StateM Disk _).run d).1.1 ((load folder g : StateM Disk _).run (d.without spot)).1.1 ∧
      (∀ before after, paths = before ++ f :: after → (∀ p ∈ before, d.place p ≠ .ok spot) →
        LevelFile.converted (before.map d.levelFile) g <+: made ∧
          LevelFile.converted (before.map d.levelFile) g <+: made') ∧
      ((d.levelFile f).DrawsNothing → made = made') := by
  obtain ⟨bytes, hfile⟩ := file_of_isSkipped leads skipped
  obtain ⟨more, order', hplaces⟩ := files_without named order mem leads hfile not_order
  -- what leaves the order of play with the file are other paths to it, and these are skipped as it is
  have hsame : ∀ f' ∈ paths.map d.levelFile, decide (d.place f'.path ≠ .ok spot) = false →
      ∀ {τ : Type} [WordSource τ] (g : τ), f'.level g = (d.levelFile f).level g := by
    intro f' hf' hgone τ _ g
    obtain ⟨p, hp, rfl⟩ := List.mem_map.1 hf'
    rw [decide_eq_false_iff_not, not_not] at hgone
    exact level_of_place leads hgone hfile g
  have hskipped : ∀ f' ∈ paths.map d.levelFile, decide (d.place f'.path ≠ .ok spot) = false →
      ∃ g : σ, f'.IsSkipped g := by
    intro f' hf' hgone
    refine ⟨g, ?_⟩
    rw [LevelFile.IsSkipped, hsame f' hf' hgone g]
    exact skipped
  refine ⟨_, _, rfl, rfl, ?_, ?_, ?_⟩
  · obtain ⟨_, hload⟩ := load_run order g
    obtain ⟨_, hload'⟩ := load_run order' g
    rw [hload, hload', map_levelFile_without hplaces]
    exact LevelFile.levels_filter hskipped g g
  · rintro before after rfl hbefore
    have hkept : (before.map d.levelFile).filter (fun f => d.place f.path ≠ .ok spot) = before.map d.levelFile := by
      refine List.filter_eq_self.2 fun f' hf' => ?_
      obtain ⟨p, hp, rfl⟩ := List.mem_map.1 hf'
      exact decide_eq_true (hbefore p hp)
    rw [List.map_append, List.filter_append, hkept, LevelFile.converted_append, LevelFile.converted_append]
    exact ⟨List.prefix_append _ _, List.prefix_append _ _⟩
  · intro nothing
    refine LevelFile.converted_filter (fun f' hf' hgone => ⟨hskipped f' hf' hgone, ?_⟩) g
    intro τ _ g
    rw [hsame f' hf' hgone g]
    exact nothing g

/-! ### A folder with a level that is refused late -/

/-- The document of a level that is refused after its obstacle has been drawn. -/
def mineText : String := "\x7b\"name\": \"Mine\", \"grid_size\": \"3x3\", \"obstacles\": 1, \"max_turns\": -1\x7d"

/-- The path of that document. -/
def minePath : Path := ⟨"", ["levels", "other.json"]⟩

/-- A disk with a folder whose order file lists itself. -/
def selfListed : Disk where
  here := []
  entries := [(["levels"], .directory), (["levels", "order.txt"], .file "order.txt".toUTF8),
    (["levels", "meadow.json"], .file meadowText.toUTF8)]

theorem mine_plain : '\r' ∉ mineText.toList := by decide +kernel

theorem mine_isSkipped : ((folderWith mineText).levelFile minePath).IsSkipped someWords := by
  rw [minePath, levelFile_other mine_plain]
  decide +kernel

theorem mine_loads : ((load (.ofString "levels") someWords : StateM Disk _).run (folderWith mineText)).1.1.map
    (·.map (·.blockers)) = .ok [[⟨0, 0⟩]] := by
  rw [load_folderWith mine_plain]
  decide +kernel

theorem load_without_mine :
    (folderWith mineText).Named ∧ (folderWith mineText).place minePath = .ok minePath.names ∧
      ((folderWith mineText).levelFile minePath).IsSkipped someWords ∧
      ∃ made made' : List (LevelFile × LevelSpec),
        ((load (.ofString "levels") someWords : StateM Disk _).run (folderWith mineText)).1.1 =
          .ok (made.map Prod.snd) ∧
        ((load (.ofString "levels") someWords : StateM Disk _).run ((folderWith mineText).without minePath.names)).1.1 =
          .ok (made'.map Prod.snd) ∧
        made.map LevelFile.said = made'.map LevelFile.said := by
  have named : (folderWith mineText).Named := by
    unfold Disk.Named
    decide +kernel
  have leads : (folderWith mineText).place minePath = .ok minePath.names := by decide +kernel
  obtain ⟨made, made', -, -, hparallel, -⟩ :=
    load_without named (files_folderWith mineText) (by decide : minePath ∈ twoPaths) leads (by decide +kernel) mine_isSkipped
  refine ⟨named, leads, mine_isSkipped, made, made', ?_⟩
  have hloads := mine_loads
  generalize ((load (.ofString "levels") someWords : StateM Disk _).run (folderWith mineText)).1.1 = x at hparallel hloads ⊢
  generalize ((load (.ofString "levels") someWords : StateM Disk _).run
    ((folderWith mineText).without minePath.names)).1.1 = x' at hparallel ⊢
  cases hparallel with
  | error fault => cases hloads
  | ok hlevels =>
    obtain ⟨rfl, rfl, hsaid⟩ := hlevels
    exact ⟨rfl, rfl, hsaid⟩

/-- A file that is refused late moves the obstacle of the next level; and an order file may be a level file that is
skipped, but without it there are other levels. -/
theorem mine_felt :
    (((folderWith mineText).levelFile minePath).IsSkipped someWords ∧
      ((load (.ofString "levels") someWords : StateM Disk _).run (folderWith mineText)).1.1.map
        (·.map (·.blockers)) = .ok [[⟨0, 0⟩]] ∧
      ((load (.ofString "levels") someWords : StateM Disk _).run ((folderWith mineText).without minePath.names)).1.1.map
        (·.map (·.blockers)) = .ok [[⟨1, 0⟩]]) ∧
      ((load (.ofString "levels") someWords : StateM Disk _).run selfListed).1.1.map (·.length) = .ok 0 ∧
      ((load (.ofString "levels") someWords : StateM Disk _).run (selfListed.without ["levels", "order.txt"])).1.1.map
        (·.length) = .ok 1 := by
  refine ⟨⟨mine_isSkipped, mine_loads, by decide +kernel⟩, by decide +kernel, ?_⟩
  have hnames : sortedNames ["meadow.json"] = ["meadow.json"] := List.mergeSort_of_pairwise (by decide)
  have dir : (selfListed.without ["levels", "order.txt"]).kind? (.ofString "levels") = .ok (some .directory) := by
    decide +kernel
  have holds : (selfListed.without ["levels", "order.txt"]).names (.ofString "levels") = .ok ["meadow.json"] := by
    decide +kernel
  have order := files_sorted dir (by decide +kernel) holds
  rw [hnames] at order
  obtain ⟨_, hload⟩ := load_run order someWords
  have hlevels : (LevelFile.levels ((["meadow.json"].map (Path.ofString "levels").child).map
      (selfListed.without ["levels", "order.txt"]).levelFile) someWords).1.map (·.length) = .ok 1 := by decide +kernel
  rw [hload]
  dsimp only
  exact hlevels

end LevelFolder

end ScriptedRobot
