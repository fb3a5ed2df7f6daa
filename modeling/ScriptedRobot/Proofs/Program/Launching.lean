import Mathlib
import ScriptedRobot.Proofs.Level.Loading
import ScriptedRobot.Proofs.Program.Effects
import ScriptedRobot.Proofs.RunLog.Listing

/-!
# Launching runs

A run starts its session, makes its folder, writes the header of its log and reads its scripts, in this order, before it
runs the first batch (`runFiles_eq`). So what a run leaves behind that fails before its first batch rests on the step
that fails (`launch_cases`): a session that cannot be started leaves the disk as it is, but a script that cannot be read
is only noticed when the log has its header (`runFiles_unlaunched`).
-/

namespace ScriptedRobot

namespace Program

/-- A run that is ready for its first batch. -/
structure Launch where
  /-- The session. -/
  session : Game
  /-- The number of the level that it has started on. -/
  number : Int
  /-- The folder of the run. -/
  folder : Path
  /-- The scripts that have been read. -/
  sources : List String

section Launch

variable {m : Type → Type} [Monad m] [Host m]

/-- Reads the scripts of a run. -/
def readScripts (scripts : List Path) : Program m (List String) :=
  scripts.mapM fun p => do attempt .script (← Storage.text p)

/-- Makes the folder of a run that starts at a moment, and writes the header of its log. -/
def openLog (base : Path) (now : Moment) (scripts : List Path) (number : Int) (s : Game) : Program m Path := do
  let folder ← attempt .storage (← RunLog.makeFolder base now)
  attempt .record (← RunLog.add (RunLog.inFolder folder) (header folder number s.spec.name scripts))
  return folder

/-- What a run does before its first batch. -/
def launch (runs : Choice Path) (scripts : List Path) (o : Opening) : Program m Launch := do
  let s ← startSession o
  let number ← levelNumber o.level
  let now ← Host.now
  let base ← runsFolder (.blank .runs) runs
  let folder ← openLog base now scripts number s
  let sources ← readScripts scripts
  return ⟨s, number, folder, sources⟩

/-- A run is launched, and then its batches are run. -/
theorem runFiles_eq [LawfulMonad m] (runs : Choice Path) (scripts : List Path) (o : Opening) (watched : Bool) :
    (runFiles runs scripts o watched : Program m Path) = do
      let l ← launch runs scripts o
      runBatches (RunLog.inFolder l.folder) watched l.sources l.session
      return l.folder := by
  simp only [runFiles, launch, openLog, readScripts, bind_assoc, pure_bind]

end Launch

variable {w w' : World} {runs : Choice Path} {scripts : List Path} {o : Opening} {failure : Failure} {s : Game}
  {base : Path}

theorem text_on (p : Path) (w : World) :
    (Storage.text p : Program (StateM World) (Except TextFault String)).on w = (.ok (w.disk.text p), w) := by
  rw [(reads_text p).on_eq, Disk.text_run]

theorem readScripts_cons (p : Path) (scripts : List Path) :
    (readScripts (p :: scripts) : Program (StateM World) _) = do
      let text ← attempt .script (← Storage.text p)
      let texts ← readScripts scripts
      return text :: texts := by
  rw [readScripts, List.mapM_cons, bind_assoc]
  rfl

/-- Only a script that cannot be read makes reading the scripts fail. -/
theorem readScripts_error (h : (readScripts scripts : Program (StateM World) _).on w = (.error failure, w')) :
    w' = w ∧ ∃ p ∈ scripts, ∃ fault, w.disk.text p = .error fault ∧ failure = .script fault := by
  induction scripts with
  | nil => cases h
  | cons p scripts ih =>
    rw [readScripts_cons, on_bind_of_ok (text_on p w)] at h
    rcases on_bind_error h with hp | ⟨text, mid, hp, hmore⟩
    · obtain ⟨fault, hfault, rfl, rfl⟩ := attempt_error hp
      exact ⟨rfl, p, List.mem_cons_self, fault, hfault, rfl⟩
    · obtain ⟨-, rfl⟩ := attempt_ok hp
      rcases on_bind_error hmore with hrest | ⟨texts, mid', -, hlast⟩
      · obtain ⟨hsame, q, hq, hfault⟩ := ih hrest
        exact ⟨hsame, q, List.mem_cons_of_mem _ hq, hfault⟩
      · cases hlast

theorem readScripts_ok {sources : List String}
    (h : (readScripts scripts : Program (StateM World) _).on w = (.ok sources, w')) :
    w' = w ∧ scripts.map w.disk.text = sources.map .ok := by
  induction scripts generalizing sources w' with
  | nil =>
    cases h
    exact ⟨rfl, rfl⟩
  | cons p scripts ih =>
    rw [readScripts_cons, on_bind_of_ok (text_on p w)] at h
    obtain ⟨text, mid, hp, hmore⟩ := on_bind_ok h
    obtain ⟨htext, rfl⟩ := attempt_ok hp
    obtain ⟨texts, mid', hrest, hlast⟩ := on_bind_ok hmore
    obtain ⟨rfl, htexts⟩ := ih hrest
    cases hlast
    exact ⟨rfl, by rw [List.map_cons, List.map_cons, htext, htexts]⟩

/-- A session is only started at a level that has a number. -/
theorem levelNumber_of_startSession (h : (startSession o : Program (StateM World) Game).on w = (.ok s, w')) :
    ∃ number, (levelNumber o.level : Program (StateM World) Int) = pure number := by
  obtain ⟨folder, mid, -, h⟩ := on_bind_ok h
  obtain ⟨levels, mid, -, h⟩ := on_bind_ok h
  obtain ⟨number, mid, hnumber, -⟩ := on_bind_ok h
  revert hnumber
  cases o.level with
  | absent => exact fun _ => ⟨_, rfl⟩
  | blank => exact nofun
  | value n => exact fun _ => ⟨_, rfl⟩

/-- The base of the runs, unless it is left blank. -/
def base? : Choice Path → Option Path
  | .absent => some defaultRuns
  | .blank => none
  | .value base => some base

theorem runsFolder_eq (h : base? runs = some base) :
    (runsFolder (.blank .runs) runs : Program (StateM World) Path) = pure base := by
  cases runs with
  | blank => cases h
  | absent =>
    cases h
    rfl
  | value base =>
    cases h
    rfl

theorem runsFolder_blank (h : base? runs = none) (w : World) :
    (runsFolder (.blank .runs) runs : Program (StateM World) Path).on w = (.error (.blank .runs), w) := by
  cases runs with
  | blank => rfl
  | absent => cases h
  | value base => cases h

/-- The folder of a run may not be made, and the header not be added. Else it is the last line of the log, and no other
file has changed. -/
theorem openLog_cases {now : Moment} {number : Int} {outcome : Except Failure Path}
    (h : (openLog base now scripts number s).on w = (outcome, w')) :
    w'.now = w.now ∧
      ((∃ fault, outcome = .error (.storage fault) ∧ w'.disk.kind? (base.child now.runName) ≠ .ok (some .directory) ∧
          w.disk.Grows ∅ w'.disk) ∨
        (∃ fault, outcome = .error (.record fault) ∧ w'.disk.kind? (base.child now.runName) = .ok (some .directory) ∧
          ∀ spot, w'.disk.heldAt spot = w.disk.heldAt spot) ∨
        ∃ spot, outcome = .ok (base.child now.runName) ∧ w'.disk.place (RunLog.logAt base now) = .ok spot ∧
          w'.disk.content? spot = some (.file (w.disk.heldAt spot ++
            (header (base.child now.runName) number s.spec.name scripts).line.toUTF8)) ∧
          w.disk.Grows {spot} w'.disk) := by
  have hgrows := RunLog.makeFolder_grows base now w.disk
  obtain ⟨tried, made, -, hmake⟩ := RunLog.makeFolder_cases base now w.disk
  rw [openLog, on_bind_of_ok (actsOnDisk_makeFolder base now w), hmake] at h
  rw [hmake] at hgrows
  cases tried with
  | error fault =>
    cases h
    exact ⟨rfl, .inl ⟨fault, rfl, RunLog.makeFolder_fails hmake, hgrows⟩⟩
  | ok _ =>
    have hthere := (RunLog.makeFolder_ok hmake).2
    have hadds := RunLog.add_grows (RunLog.inFolder (base.child now.runName))
      (header (base.child now.runName) number s.spec.name scripts) made
    rw [on_bind_of_ok (on_attempt _ _ _), on_bind_of_ok (actsOnDisk_add _ _ _)] at h
    rcases hadd : (RunLog.add (RunLog.inFolder (base.child now.runName))
        (header (base.child now.runName) number s.spec.name scripts) :
        StateM Disk (Except RunLog.WriteFault Unit)).run made with ⟨fault | ⟨⟩, next⟩
    · rw [hadd] at h
      cases h
      rw [hadd] at hadds
      refine ⟨rfl, .inr (.inl ⟨fault, rfl, hadds.kind? hthere, fun spot => ?_⟩)⟩
      exact (RunLog.add_error hadd spot).trans (hgrows.heldAt (Set.notMem_empty spot))
    · rw [hadd, on_bind_of_ok (on_attempt _ _ _)] at h
      cases h
      obtain ⟨spot, hplace, hchanged, hfile⟩ := RunLog.add_ok hadd
      rw [hgrows.heldAt (Set.notMem_empty spot)] at hfile
      exact ⟨rfl, .inr (.inr ⟨spot, rfl, hplace, hfile, (hgrows.mono (Set.empty_subset _)).trans hchanged⟩)⟩

/-- The log of a run has been opened: its last line is the header, and no other file has changed. -/
structure Opened (base : Path) (scripts : List Path) (o : Opening) (w : World) (number : Int) (s : Game) (spot : Place)
    (w' : World) : Prop where
  start : ∃ mid, (startSession o).on w = (.ok s, mid)
  level : (levelNumber o.level : Program (StateM World) Int) = pure number
  now : w'.now = w.now
  leads : w'.disk.place (RunLog.logAt base w.now) = .ok spot
  holds : w'.disk.content? spot = some (.file (w.disk.heldAt spot ++
    (header (base.child w.now.runName) number s.spec.name scripts).line.toUTF8))
  grows : w.disk.Grows {spot} w'.disk

/-- What a run leaves behind that fails before its first batch. -/
inductive Remains (runs : Choice Path) (scripts : List Path) (o : Opening) (w : World) : Failure → World → Prop where
  /-- Without a session nothing is left. -/
  | unstarted {failure : Failure} {w' : World} (fails : (startSession o).on w = (.error failure, w'))
      (disk : w'.disk = w.disk) : Remains runs scripts o w failure w'
  /-- Without a base neither. -/
  | blank {w' : World} (given : base? runs = none) (disk : w'.disk = w.disk) :
      Remains runs scripts o w (.blank .runs) w'
  /-- If the folder of the run cannot be made, it is not there, and no file has changed. -/
  | folder {base : Path} {fault : StorageFault} {w' : World} (given : base? runs = some base)
      (missing : w'.disk.kind? (base.child w.now.runName) ≠ .ok (some .directory)) (grows : w.disk.Grows ∅ w'.disk) :
      Remains runs scripts o w (.storage fault) w'
  /-- If the header cannot be added, the folder of the run stays, but nothing has been added to any file. -/
  | header {base : Path} {fault : RunLog.WriteFault} {w' : World} (given : base? runs = some base)
      (folder : w'.disk.kind? (base.child w.now.runName) = .ok (some .directory))
      (held : ∀ spot, w'.disk.heldAt spot = w.disk.heldAt spot) : Remains runs scripts o w (.record fault) w'
  /-- If a script cannot be read, the log has already been opened. -/
  | script {base p : Path} {spot : Place} {number : Int} {s : Game} {fault : TextFault} {w' : World}
      (given : base? runs = some base) (opened : Opened base scripts o w number s spot w') (mem : p ∈ scripts)
      (unreadable : w'.disk.text p = .error fault) : Remains runs scripts o w (.script fault) w'

/-- Opening the log of a session that has been started fails as said, or opens it. -/
theorem openLog_outcome {mid : World} {number : Int} {outcome : Except Failure Path}
    (start : (startSession o).on w = (.ok s, mid))
    (level : (levelNumber o.level : Program (StateM World) Int) = pure number) (given : base? runs = some base)
    (h : (openLog base w.now scripts number s).on mid = (outcome, w')) :
    (∃ failure, outcome = .error failure ∧ Remains runs scripts o w failure w') ∨
    ∃ spot, outcome = .ok (base.child w.now.runName) ∧ Opened base scripts o w number s spot w' := by
  have hdisk := (keeps_startSession o).disk start
  have hnow := (keeps_startSession o).now start
  obtain ⟨hclock, ⟨fault, rfl, hmissing, hgrows⟩ | ⟨fault, rfl, hthere, hheld⟩ | ⟨spot, rfl, hplace, hfile, hgrows⟩⟩ :=
    openLog_cases h
  · rw [hdisk] at hgrows
    exact .inl ⟨_, rfl, .folder given hmissing hgrows⟩
  · rw [hdisk] at hheld
    exact .inl ⟨_, rfl, .header given hthere hheld⟩
  · rw [hdisk] at hfile hgrows
    exact .inr ⟨spot, rfl, ⟨mid, start⟩, level, hclock.trans hnow, hplace, hfile, hgrows⟩

/-- A run fails before its first batch, or its log is opened and all scripts are read. -/
theorem launch_cases {outcome : Except Failure Launch} (h : (launch runs scripts o).on w = (outcome, w')) :
    (∃ failure, outcome = .error failure ∧ Remains runs scripts o w failure w') ∨
    ∃ base number s spot sources, base? runs = some base ∧
      outcome = .ok ⟨s, number, base.child w.now.runName, sources⟩ ∧
      Opened base scripts o w number s spot w' ∧ scripts.map w'.disk.text = sources.map .ok := by
  rw [launch] at h
  rcases hstart : (startSession o).on w with ⟨failure | s, mid⟩
  · rw [on_bind_of_error hstart] at h
    cases h
    exact .inl ⟨failure, rfl, .unstarted hstart ((keeps_startSession o).disk hstart)⟩
  obtain ⟨number, hnumber⟩ := levelNumber_of_startSession hstart
  have hclock : (Host.now : Program (StateM World) Moment).on mid = (.ok mid.now, mid) := rfl
  rw [on_bind_of_ok hstart, hnumber, pure_bind, on_bind_of_ok hclock, (keeps_startSession o).now hstart] at h
  cases hbase : base? runs with
  | none =>
    rw [on_bind_of_error (runsFolder_blank hbase mid)] at h
    cases h
    exact .inl ⟨_, rfl, .blank hbase ((keeps_startSession o).disk hstart)⟩
  | some base =>
    rw [runsFolder_eq hbase, pure_bind] at h
    rcases hopen : (openLog base w.now scripts number s).on mid with ⟨outcome, next⟩
    rcases openLog_outcome hstart hnumber hbase hopen with ⟨failure, rfl, hremains⟩ | ⟨spot, rfl, hopened⟩
    · rw [on_bind_of_error hopen] at h
      cases h
      exact .inl ⟨failure, rfl, hremains⟩
    · rw [on_bind_of_ok hopen] at h
      rcases hread : (readScripts scripts).on next with ⟨failure | sources, last⟩
      · rw [on_bind_of_error hread] at h
        cases h
        obtain ⟨rfl, p, hp, fault, hfault, rfl⟩ := readScripts_error hread
        exact .inl ⟨_, rfl, .script hbase hopened hp hfault⟩
      · rw [on_bind_of_ok hread] at h
        cases h
        obtain ⟨rfl, htexts⟩ := readScripts_ok hread
        exact .inr ⟨base, number, s, spot, sources, rfl, rfl, hopened, htexts⟩

/-! ## Runs that are launched -/

theorem noteAll_on (entries : List Log.Entry) (w : World) :
    ∃ mid, (noteAll entries : Program (StateM World) Unit).on w = (.ok (), mid) := by
  induction entries generalizing w with
  | nil => exact ⟨w, rfl⟩
  | cons e entries ih =>
    obtain ⟨mid, hmid⟩ := ih (w.note e)
    have hnote : (Host.note e : Program (StateM World) Unit).on w = (.ok (), w.note e) := rfl
    exact ⟨mid, (on_bind_of_ok hnote).trans hmid⟩

theorem readResources_on (root : Path) (levels : List LevelSpec) (w : World) :
    ∃ loader, (readResources root levels : Program (StateM World) Loader).on w = (.ok loader, w) := by
  have hreads := reads_mapM
    (fun p => (reads_text p).bind fun text => reads_pure (p, text.mapError TextFault.asResource))
    (levels.flatMap (resourcesOf root)).eraseDups
  exact ⟨_, on_bind_of_ok (hreads.on_eq w)⟩

/-- A session is started if the levels are loaded, and the one with the number can be entered whatever its files say. -/
theorem startSession_ok {folder : Path} {levels : List LevelSpec} {notes : List Log.Entry} {number n k : Int}
    (given : o = { levels := .value folder, level := .value number, seed := .value n, levelSeed := some k })
    (named : '\x00' ∉ folder.text.toList)
    (load : (LevelFolder.load folder (Random.Twister.ofSeed k) : StateM Disk _).run w.disk =
      ((.ok levels, notes), w.disk))
    (range : 1 ≤ number ∧ number ≤ levels.length)
    (enters : ∀ loader root, ∃ s later,
      Session.start ⟨levels, loader, root⟩ (Random.Twister.ofSeed n) (number - 1) = (.ok s, later)) :
    ∃ s mid, (startSession o : Program (StateM World) Game).on w = (.ok s, mid) := by
  subst given
  have hload : (LevelFolder.load folder (Random.Twister.ofSeed k) : Program (StateM World) _).on w =
      (.ok (.ok levels, notes), w) := by rw [(reads_load _ _).on_eq, load]
  obtain ⟨mid, hnote⟩ := noteAll_on notes w
  have hlevels : (loadLevels folder (some k) : Program (StateM World) _).on w = (.ok levels, mid) := by
    have hseed : (levelSeed (some k) : Program (StateM World) Int) = pure k := rfl
    rw [loadLevels, hseed, pure_bind, on_bind_of_ok hload, on_bind_of_ok hnote, on_attempt]
    rfl
  have hresolved : (Storage.resolved folder : Program (StateM World) _).on mid =
      (.ok (.ok (folder.resolved mid.disk.herePath)), mid) := by
    rw [Storage.resolved, if_neg (by simpa using named)]
    rfl
  obtain ⟨loader, hresources⟩ := readResources_on (folder.resolved mid.disk.herePath).parent levels mid
  obtain ⟨s, later, hstart⟩ := enters loader (some (folder.resolved mid.disk.herePath).parent)
  obtain ⟨last, hlast⟩ := noteAll_on later mid
  have hrange : ¬ (number < 1 ∨ ((max levels.length 1 : Nat) : Int) < number) := by omega
  have hsome : ¬ levels.isEmpty = true := by
    rw [List.isEmpty_iff]
    rintro rfl
    simp only [List.length_nil] at range
    omega
  have hnumber : (levelNumber (.value number) : Program (StateM World) Int) = pure number := rfl
  have hseed : (sessionSeed (.value n) : Program (StateM World) (Option Int)) = pure (some n) := rfl
  refine ⟨{ s with log := [] }, last, ?_⟩
  rw [startSession, levelsFolder, pure_bind, on_bind_of_ok hlevels, hnumber, pure_bind]
  simp only [if_neg hrange, hseed, pure_bind]
  rw [on_bind_of_ok hresolved, on_bind_of_ok (on_attempt _ _ _)]
  simp only [if_neg hsome]
  rw [on_bind_of_ok hresources, hstart]
  simp only
  rw [on_bind_of_ok hlast, on_bind_of_ok (on_attempt _ _ _)]
  rfl

/-- The header of a run can be written if the number of its level can. -/
theorem header_canWrite {number : Int} (h : Text.Numeral.isWritable number = true) (folder : Path) (name : String)
    (scripts : List Path) : (header folder number name scripts).CanWrite := by
  have hscripts : (Json.strings (scripts.map Path.text)).nesting ≤ 0 + 1 := by
    rw [Json.strings, List.map_map]
    exact Json.nesting_array_le (List.forall_mem_map.2 fun _ _ => Nat.le_refl 0)
  have hwritable : ∀ texts : List String, (Json.strings texts).isWritable = true := by
    intro texts
    induction texts with
    | nil => rfl
    | cons text rest ih =>
      rw [Json.strings, Json.isWritable] at ih ⊢
      rw [List.map_cons, Json.areWritable, ih]
      rfl
  refine RunLog.canWrite_header ?_ ?_
  · refine Nat.lt_of_le_of_lt (Json.nesting_object_le (n := 1) ?_) (by decide)
    simp only [List.forall_mem_cons, Json.nesting_int, Json.nesting_str]
    exact ⟨Nat.zero_le _, Nat.zero_le _, Nat.zero_le _, Nat.zero_le _, hscripts, nofun⟩
  · rw [Json.isWritable]
    simp only [Json.fieldsAreWritable, Json.isWritable, h, hwritable, Bool.and_self]

/-- A run whose folder is made and whose header is added goes on to read its scripts. -/
theorem launch_on {number : Int} {mid : World} {made next : Disk} {folder : Path}
    (start : (startSession o).on w = (.ok s, mid))
    (level : (levelNumber o.level : Program (StateM World) Int) = pure number) (given : base? runs = some base)
    (makes : (RunLog.makeFolder base w.now : StateM Disk (Except StorageFault Path)).run w.disk = (.ok folder, made))
    (adds : (RunLog.add (RunLog.inFolder folder) (header folder number s.spec.name scripts) :
      StateM Disk (Except RunLog.WriteFault Unit)).run made = (.ok (), next)) :
    (launch runs scripts o).on w =
      (do
        let sources ← readScripts scripts
        return ⟨s, number, folder, sources⟩ : Program (StateM World) Launch).on { mid with disk := next } := by
  have hdisk := (keeps_startSession o).disk start
  have hnow := (keeps_startSession o).now start
  have hclock : (Host.now : Program (StateM World) Moment).on mid = (.ok mid.now, mid) := rfl
  rw [← hnow] at makes
  have hopen : (openLog base mid.now scripts number s).on mid = (.ok folder, { mid with disk := next }) := by
    rw [openLog, on_bind_of_ok (actsOnDisk_makeFolder base mid.now mid), hdisk, makes, on_bind_of_ok (on_attempt _ _ _),
      on_bind_of_ok (actsOnDisk_add _ _ _), adds, on_bind_of_ok (on_attempt _ _ _)]
    rfl
  rw [launch, on_bind_of_ok start, level, pure_bind, on_bind_of_ok hclock, runsFolder_eq given, pure_bind,
    on_bind_of_ok hopen]

/-! ## A lawn without a script -/

def lawnText : String := "\x7b\"name\": \"Lawn\", \"grid_size\": \"3x3\"\x7d"

def lawnFile : LevelFile := ⟨⟨"", ["levels", "lawn.json"]⟩, .ok lawnText⟩

/-- A disk with a folder of one level, and with more on it. -/
def lawnDisk (more : List (Place × FileContent)) : Disk where
  here := []
  entries := [(["levels"], .directory), (["levels", "order.txt"], .file "lawn.json".toUTF8),
    (["levels", "lawn.json"], .file lawnText.toUTF8)] ++ more

/-- What the player starts with there. -/
def lawnOpening : Opening :=
  { levels := .value ⟨"", ["levels"]⟩, level := .value 1, seed := .value 1, levelSeed := some 1 }

variable {more : List (Place × FileContent)}

theorem files_lawn (more : List (Place × FileContent)) :
    (LevelFolder.files ⟨"", ["levels"]⟩ : StateM Disk _).run (lawnDisk more) =
      ((.ok [⟨"", ["levels", "lawn.json"]⟩], []), lawnDisk more) := by
  apply Prod.ext
  · exact Prod.ext rfl rfl
  · rfl

theorem levelFile_lawn (more : List (Place × FileContent)) :
    (lawnDisk more).levelFile ⟨"", ["levels", "lawn.json"]⟩ = lawnFile := by
  rw [Disk.levelFile, Disk.text_of_plain rfl (by decide +kernel : '\r' ∉ lawnText.toList)]
  rfl

/-- The level has neither enemies nor items, so nothing is read for it. -/
theorem levels_lawn : ∃ spec, (LevelFile.levels [lawnFile] (Random.Twister.ofSeed 1)).1 = .ok [spec] ∧
    spec.enemies = [] ∧ spec.items = [] := by
  have hplain : (LevelFile.levels [lawnFile] (Random.Twister.ofSeed 1)).1.map
      (fun levels => levels.map fun spec => (spec.enemies, spec.items)) = .ok [([], [])] := by
    decide +kernel
  cases hlevels : (LevelFile.levels [lawnFile] (Random.Twister.ofSeed 1)).1 with
  | error fault =>
    rw [hlevels] at hplain
    cases hplain
  | ok levels =>
    rw [hlevels] at hplain
    obtain ⟨spec, rfl, hspec⟩ := List.map_eq_singleton_iff.1 (Except.ok.inj hplain)
    exact ⟨spec, rfl, (Prod.mk.inj hspec).1, (Prod.mk.inj hspec).2⟩

theorem startSession_lawn (disk : w.disk = lawnDisk more) :
    ∃ s mid, (startSession lawnOpening : Program (StateM World) Game).on w = (.ok s, mid) := by
  obtain ⟨spec, hlevels, henemies, hitems⟩ := levels_lawn
  obtain ⟨loaded, hload⟩ := LevelFolder.load_run (files_lawn more) (Random.Twister.ofSeed 1)
  rw [List.map_singleton, levelFile_lawn, hlevels, ← disk] at hload
  refine startSession_ok rfl (by decide) hload ⟨le_refl 1, by simp⟩ fun loader root => ?_
  have hlevel : (⟨[spec], loader, root⟩ : Campaign).level? 0 = some spec := rfl
  rcases hstart : Session.start ⟨[spec], loader, root⟩ (Random.Twister.ofSeed 1) 0 with ⟨failure | s, notes⟩
  · simp only [Session.start, Campaign.enter, hlevel, henemies, hitems, Board.enemiesFrom, Campaign.placeItems]
      at hstart
    cases hstart
  · exact ⟨s, notes, hstart⟩

/-- A run there gets to reading its scripts if its folder is made and its log is no directory. -/
theorem launch_lawn (made : Disk) (spot : Place) (scripts : List Path) (disk : w.disk = lawnDisk more)
    (makes : (RunLog.makeFolder defaultRuns w.now : StateM Disk (Except StorageFault Path)).run (lawnDisk more) =
      (.ok (defaultRuns.child w.now.runName), made))
    (folder : made.kind? (RunLog.logAt defaultRuns w.now).parent = .ok (some .directory))
    (leads : made.place (RunLog.logAt defaultRuns w.now) = .ok spot) (free : made.content? spot ≠ some .directory) :
    ∃ (s : Game) (mid : World) (bytes : ByteArray), (launch .absent scripts lawnOpening).on w =
      (do
        let sources ← readScripts scripts
        return ⟨s, 1, defaultRuns.child w.now.runName, sources⟩ : Program (StateM World) Launch).on
          { mid with disk := made.put spot (.file bytes) } := by
  obtain ⟨s, mid, hstart⟩ := startSession_lawn disk
  have hwrite : (header (defaultRuns.child w.now.runName) 1 s.spec.name scripts).CanWrite :=
    header_canWrite (by decide +kernel) _ _ _
  rw [← disk] at makes
  exact ⟨s, mid, _, launch_on hstart rfl rfl makes (RunLog.add_put folder leads free hwrite)⟩

def lawn : World where
  disk := lawnDisk []
  now := RunLog.newYear

/-- The folder of a run there. -/
def runFolder : List (Place × FileContent) :=
  [(["replay"], .directory), (["replay", "2000-01-01T00-00-00Z"], .directory)]

/-- Where the log of that run is. -/
def logSpot : Place := ["replay", "2000-01-01T00-00-00Z", "run.jsonl"]

def gone : Path := ⟨"", ["gone.rs"]⟩

/-- There is no such script. -/
theorem launch_gone : ∃ w' bytes, (launch .absent [gone] lawnOpening).on lawn =
    (.error (.script (.storage (.notFound gone))), w') ∧ w'.disk = (lawnDisk runFolder).put logSpot (.file bytes) := by
  obtain ⟨s, mid, bytes, hlaunch⟩ :=
    launch_lawn (w := lawn) (lawnDisk runFolder) logSpot [gone] rfl rfl rfl rfl nofun
  exact ⟨{ mid with disk := (lawnDisk runFolder).put logSpot (.file bytes) }, bytes, hlaunch, rfl⟩

/-! ## Runs that fail -/

/-- A run that fails before its first batch adds nothing to any file if its session cannot be started, its folder cannot
be made or its header cannot be added. But it leaves a header without turns behind if a script cannot be read. -/
theorem runFiles_unlaunched (watched : Bool) (h : (launch runs scripts o).on w = (.error failure, w')) :
    (runFiles runs scripts o watched).on w = (.error failure, w') ∧ Remains runs scripts o w failure w' := by
  constructor
  · rw [runFiles_eq, on_bind_of_error h]
  · rcases launch_cases h with ⟨failure, hfailure, hremains⟩ | ⟨_, _, _, _, _, -, hok, -⟩
    · cases hfailure
      exact hremains
    · cases hok

/-- The session is started, but the script cannot be read. -/
theorem runFiles_unlaunched_gone : ∃ w', (launch .absent [gone] lawnOpening).on lawn =
    (.error (.script (.storage (.notFound gone))), w') ∧
      (runFiles .absent [gone] lawnOpening false).on lawn = (.error (.script (.storage (.notFound gone))), w') ∧
      Remains .absent [gone] lawnOpening lawn (.script (.storage (.notFound gone))) w' := by
  obtain ⟨w', bytes, hlaunch, -⟩ := launch_gone
  exact ⟨w', hlaunch, runFiles_unlaunched false hlaunch⟩

/-- The script is not there, so that no batch is run. But the log of the run, which was not there before, is. -/
theorem runFiles_gone : ∃ failure w', (launch .absent [gone] lawnOpening).on lawn = (.error failure, w') ∧
    (runFiles .absent [gone] lawnOpening false).on lawn = (.error failure, w') ∧
    lawn.disk.kind? (RunLog.logAt defaultRuns lawn.now) = .ok none ∧
    w'.disk.kind? (RunLog.logAt defaultRuns lawn.now) = .ok (some .file) := by
  obtain ⟨w', bytes, hlaunch, hdisk⟩ := launch_gone
  refine ⟨_, w', hlaunch, ?_, rfl, ?_⟩
  · rw [runFiles_eq, on_bind_of_error hlaunch]
  · rw [hdisk]
    rfl

end Program

end ScriptedRobot
