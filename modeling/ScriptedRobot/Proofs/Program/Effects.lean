import Mathlib
import ScriptedRobot.Proofs.Storage.Removal

/-!
# What programs do to the world

A program that fails leaves the world as it is at that point. Most of what programs do keeps the disk and the clock
(`Program.Keeps`), and what only works with storage does to the disk what it does by itself (`Program.ActsOnDisk`).
-/

namespace ScriptedRobot

namespace Program

variable {α β : Type} {w w' : World}

/-- A program in a world: its outcome and the world after it. -/
def on (step : Program (StateM World) α) (w : World) : Except Failure α × World := step.run.run w

variable {step : Program (StateM World) α} {next : α → Program (StateM World) β}

theorem on_bind (step : Program (StateM World) α) (next : α → Program (StateM World) β) (w : World) :
    (step >>= next).on w = match step.on w with
      | (.ok a, w') => (next a).on w'
      | (.error failure, w') => (.error failure, w') := by
  simp only [on, ExceptT.run_bind, StateT.run_bind]
  rcases step.run.run w with ⟨_ | _, _⟩ <;> rfl

theorem on_bind_of_ok {a : α} (h : step.on w = (.ok a, w')) : (step >>= next).on w = (next a).on w' := by
  rw [on_bind, h]

theorem on_bind_of_error {failure : Failure} (h : step.on w = (.error failure, w')) :
    (step >>= next).on w = (.error failure, w') := by
  rw [on_bind, h]

/-- Two steps succeed only if the first one does and then the second one. -/
theorem on_bind_ok {b : β} (h : (step >>= next).on w = (.ok b, w')) :
    ∃ a mid, step.on w = (.ok a, mid) ∧ (next a).on mid = (.ok b, w') := by
  rw [on_bind] at h
  rcases hstep : step.on w with ⟨failure | a, mid⟩
  · rw [hstep] at h
    cases h
  · rw [hstep] at h
    exact ⟨a, mid, rfl, h⟩

/-- Two steps fail if the first one does, or the second one after it. -/
theorem on_bind_error {failure : Failure} (h : (step >>= next).on w = (.error failure, w')) :
    step.on w = (.error failure, w') ∨ ∃ a mid, step.on w = (.ok a, mid) ∧ (next a).on mid = (.error failure, w') := by
  rw [on_bind] at h
  rcases hstep : step.on w with ⟨cause | a, mid⟩
  · rw [hstep] at h
    cases h
    exact .inl rfl
  · rw [hstep] at h
    exact .inr ⟨a, mid, rfl, h⟩

theorem on_attempt {ε : Type} (asFailure : ε → Failure) (outcome : Except ε α) (w : World) :
    (attempt asFailure outcome : Program (StateM World) α).on w = (outcome.mapError asFailure, w) := rfl

theorem attempt_ok {ε : Type} {asFailure : ε → Failure} {outcome : Except ε α} {a : α}
    (h : (attempt asFailure outcome : Program (StateM World) α).on w = (.ok a, w')) : outcome = .ok a ∧ w' = w := by
  cases outcome with
  | error e => cases h
  | ok b =>
    cases h
    exact ⟨rfl, rfl⟩

theorem attempt_error {ε : Type} {asFailure : ε → Failure} {outcome : Except ε α} {failure : Failure}
    (h : (attempt asFailure outcome : Program (StateM World) α).on w = (.error failure, w')) :
    ∃ e, outcome = .error e ∧ failure = asFailure e ∧ w' = w := by
  cases outcome with
  | ok b => cases h
  | error e =>
    cases h
    exact ⟨e, rfl, rfl, rfl⟩

/-! ## Programs that keep the disk -/

/-- Whatever the outcome, neither the disk nor the clock changes. -/
def Keeps (step : Program (StateM World) α) : Prop :=
  ∀ w, (step.on w).2.disk = w.disk ∧ (step.on w).2.now = w.now

theorem keeps_pure (a : α) : (pure a : Program (StateM World) α).Keeps := fun _ => ⟨rfl, rfl⟩

theorem keeps_throw (failure : Failure) : (throw failure : Program (StateM World) α).Keeps := fun _ => ⟨rfl, rfl⟩

theorem keeps_attempt {ε : Type} (asFailure : ε → Failure) (outcome : Except ε α) :
    (attempt asFailure outcome : Program (StateM World) α).Keeps := fun _ => ⟨rfl, rfl⟩

theorem Keeps.bind (h : step.Keeps) (h' : ∀ a, (next a).Keeps) : (step >>= next).Keeps := by
  intro w
  rw [on_bind]
  have hfirst := h w
  rcases hstep : step.on w with ⟨failure | a, mid⟩
  · rw [hstep] at hfirst
    exact hfirst
  · rw [hstep] at hfirst
    exact ⟨(h' a mid).1.trans hfirst.1, (h' a mid).2.trans hfirst.2⟩

theorem keeps_mapM {f : α → Program (StateM World) β} (h : ∀ a, (f a).Keeps) (as : List α) : (as.mapM f).Keeps := by
  induction as with
  | nil => exact keeps_pure []
  | cons a as ih =>
    rw [List.mapM_cons]
    exact (h a).bind fun b => ih.bind fun bs => keeps_pure (b :: bs)

theorem keeps_forM {f : α → Program (StateM World) Unit} (h : ∀ a, (f a).Keeps) (as : List α) : (as.forM f).Keeps := by
  induction as with
  | nil => exact keeps_pure ()
  | cons a as ih => exact (h a).bind fun _ => ih

theorem Keeps.disk {outcome : Except Failure α} (h : step.Keeps) (run : step.on w = (outcome, w')) :
    w'.disk = w.disk := by
  have hdisk := (h w).1
  rwa [run] at hdisk

theorem Keeps.now {outcome : Except Failure α} (h : step.Keeps) (run : step.on w = (outcome, w')) :
    w'.now = w.now := by
  have hnow := (h w).2
  rwa [run] at hnow

/-! ## Programs that look at the disk or work on it -/

/-- The program succeeds, and does to the disk of the world what a step does to a disk. -/
def ActsOnDisk (step : Program (StateM World) α) (act : StateM Disk α) : Prop :=
  ∀ w, step.on w = (.ok (act.run w.disk).1, { w with disk := (act.run w.disk).2 })

theorem actsOnDisk_pure (a : α) : (pure a : Program (StateM World) α).ActsOnDisk (pure a) := fun _ => rfl

theorem ActsOnDisk.bind {act : StateM Disk α} {more : α → StateM Disk β} (h : step.ActsOnDisk act)
    (h' : ∀ a, (next a).ActsOnDisk (more a)) : (step >>= next).ActsOnDisk (act >>= more) := by
  intro w
  rw [on_bind_of_ok (h w), h']
  rfl

/-- The program looks at the disk of the world and says what the step says of a disk, and neither changes it. -/
def Reads (step : Program (StateM World) α) (act : StateM Disk α) : Prop :=
  ∃ look : Disk → α, (∀ d, act.run d = (look d, d)) ∧ ∀ w, step.on w = (.ok (look w.disk), w)

theorem reads_pure (a : α) : (pure a : Program (StateM World) α).Reads (pure a) :=
  ⟨fun _ => a, fun _ => rfl, fun _ => rfl⟩

theorem Reads.bind {act : StateM Disk α} {more : α → StateM Disk β} (h : step.Reads act)
    (h' : ∀ a, (next a).Reads (more a)) : (step >>= next).Reads (act >>= more) := by
  obtain ⟨look, hact, hstep⟩ := h
  choose look' hmore hnext using h'
  refine ⟨fun d => look' (look d) d, fun d => ?_, fun w => ?_⟩
  · rw [stateM_run_bind, hact, hmore]
  · rw [on_bind_of_ok (hstep w), hnext]

theorem reads_mapM {f : α → Program (StateM World) β} {f' : α → StateM Disk β} (h : ∀ a, (f a).Reads (f' a))
    (as : List α) : (as.mapM f).Reads (as.mapM f') := by
  induction as with
  | nil => exact reads_pure []
  | cons a as ih =>
    rw [List.mapM_cons, List.mapM_cons]
    exact (h a).bind fun b => ih.bind fun bs => reads_pure (b :: bs)

theorem Reads.on_eq {act : StateM Disk α} (h : step.Reads act) (w : World) :
    step.on w = (.ok (act.run w.disk).1, w) := by
  obtain ⟨look, hact, hstep⟩ := h
  rw [hstep, hact]

theorem Reads.keeps {act : StateM Disk α} (h : step.Reads act) : step.Keeps := by
  intro w
  rw [h.on_eq]
  exact ⟨rfl, rfl⟩

theorem Reads.actsOnDisk {act : StateM Disk α} (h : step.Reads act) : step.ActsOnDisk act := by
  intro w
  obtain ⟨look, hact, hstep⟩ := h
  rw [hstep, hact]

theorem reads_names (p : Path) : (Storage.names p : Program (StateM World) _).Reads (Storage.names p) :=
  ⟨fun d => d.names p, fun _ => rfl, fun _ => rfl⟩

theorem reads_kind? (p : Path) : (Storage.kind? p : Program (StateM World) _).Reads (Storage.kind? p) := by
  have hkind : (Storage.kind p : Program (StateM World) _).Reads (Storage.kind p) :=
    ⟨fun d => d.kind p, fun _ => rfl, fun _ => rfl⟩
  refine hkind.bind fun outcome => ?_
  cases outcome with
  | ok kind => exact reads_pure _
  | error fault => exact reads_pure _

theorem reads_isDirectory (p : Path) :
    (Storage.isDirectory p : Program (StateM World) _).Reads (Storage.isDirectory p) :=
  (reads_kind? p).bind fun _ => reads_pure _

theorem reads_isThere (p : Path) : (Storage.isThere p : Program (StateM World) _).Reads (Storage.isThere p) :=
  (reads_kind? p).bind fun _ => reads_pure _

theorem reads_text (p : Path) : (Storage.text p : Program (StateM World) _).Reads (Storage.text p) := by
  have hbytes : (Storage.bytes p : Program (StateM World) _).Reads (Storage.bytes p) :=
    ⟨fun d => d.bytes p, fun _ => rfl, fun _ => rfl⟩
  refine hbytes.bind fun outcome => ?_
  cases outcome with
  | ok bytes => exact reads_pure _
  | error fault => exact reads_pure _

theorem reads_listedFiles (folder : Path) (names : List String) :
    (LevelFolder.listedFiles folder names : Program (StateM World) _).Reads (LevelFolder.listedFiles folder names) := by
  induction names with
  | nil => exact reads_pure _
  | cons name names ih =>
    refine (reads_isThere _).bind fun outcome => ?_
    split
    · exact reads_pure _
    · refine ih.bind fun found => ?_
      rcases found with ⟨files, notes⟩
      simp only
      split <;> exact reads_pure _

theorem reads_files (folder : Path) :
    (LevelFolder.files folder : Program (StateM World) _).Reads (LevelFolder.files folder) := by
  refine (reads_isDirectory folder).bind fun outcome => ?_
  split
  · exact reads_pure _
  · exact reads_pure _
  · refine (reads_isThere _).bind fun outcome => ?_
    split
    · exact reads_pure _
    · refine (reads_text _).bind fun outcome => ?_
      split
      · exact reads_pure _
      · exact reads_listedFiles _ _
    · refine (reads_names folder).bind fun outcome => ?_
      split <;> exact reads_pure _

/-- Loading levels only looks at the disk. -/
theorem reads_load (folder : Path) (g : Random.Twister) :
    (LevelFolder.load folder g : Program (StateM World) _).Reads (LevelFolder.load folder g) := by
  refine (reads_files folder).bind fun outcome => ?_
  split
  · exact reads_pure _
  · refine (reads_mapM (fun p => (reads_text p).bind fun _ => reads_pure _) _).bind fun files => ?_
    exact reads_pure _

/-! ## Making directories and adding records -/

theorem actsOnDisk_makeDirectory (p : Path) :
    (Storage.makeDirectory p : Program (StateM World) _).ActsOnDisk (Storage.makeDirectory p) := fun _ => rfl

theorem actsOnDisk_append (p : Path) (bytes : ByteArray) :
    (Storage.append p bytes : Program (StateM World) _).ActsOnDisk (Storage.append p bytes) := fun _ => rfl

theorem actsOnDisk_ensureDirectory (p : Path) :
    (Storage.ensureDirectory p : Program (StateM World) _).ActsOnDisk (Storage.ensureDirectory p) := by
  refine (actsOnDisk_makeDirectory p).bind fun outcome => ?_
  split
  · exact actsOnDisk_pure _
  · exact actsOnDisk_pure _
  · refine (reads_isDirectory p).actsOnDisk.bind fun outcome => ?_
    split <;> exact actsOnDisk_pure _

theorem actsOnDisk_ensureDirectories (depth : Nat) (p : Path) :
    (Storage.ensureDirectories depth p : Program (StateM World) _).ActsOnDisk (Storage.ensureDirectories depth p) := by
  induction depth generalizing p with
  | zero => exact actsOnDisk_ensureDirectory p
  | succ depth ih =>
    refine (actsOnDisk_ensureDirectory p).bind fun outcome => ?_
    split
    · split
      · exact actsOnDisk_pure _
      · refine (ih p.parent).bind fun outcome => ?_
        split
        · exact actsOnDisk_pure _
        · exact actsOnDisk_ensureDirectory p
    · exact actsOnDisk_pure _

theorem actsOnDisk_makeFolder (base : Path) (t : Moment) :
    (RunLog.makeFolder base t : Program (StateM World) _).ActsOnDisk (RunLog.makeFolder base t) :=
  (actsOnDisk_ensureDirectories _ _).bind fun _ => actsOnDisk_pure _

theorem actsOnDisk_add (log : Path) (r : RunLog.Record) :
    (RunLog.add log r : Program (StateM World) _).ActsOnDisk (RunLog.add log r) := by
  unfold RunLog.add
  split
  · exact actsOnDisk_pure _
  · refine (actsOnDisk_ensureDirectories _ _).bind fun outcome => ?_
    split
    · exact actsOnDisk_pure _
    · refine (actsOnDisk_append log _).bind fun outcome => ?_
      split <;> exact actsOnDisk_pure _

/-! ## What only looks at the disk -/

theorem keeps_resolved (p : Path) : (Storage.resolved p : Program (StateM World) _).Keeps := by
  unfold Storage.resolved
  split
  · exact keeps_pure _
  · have hhere : (Storage.here : Program (StateM World) _).Keeps := fun _ => ⟨rfl, rfl⟩
    exact hhere.bind fun _ => keeps_pure _

theorem keeps_noteAll (entries : List Log.Entry) : (noteAll entries : Program (StateM World) _).Keeps :=
  keeps_forM (fun _ _ => ⟨rfl, rfl⟩) entries

theorem keeps_setting? (name : String) : (setting? name : Program (StateM World) _).Keeps := by
  have hsetting : (Host.setting? name : Program (StateM World) _).Keeps := fun _ => ⟨rfl, rfl⟩
  exact hsetting.bind fun _ => keeps_pure _

theorem keeps_levelsFolder (given : Choice Path) : (levelsFolder given : Program (StateM World) _).Keeps := by
  cases given with
  | value folder => exact keeps_pure folder
  | absent => exact (keeps_setting? _).bind fun _ => keeps_pure _
  | blank => exact (keeps_setting? _).bind fun _ => keeps_pure _

theorem keeps_seed (given : Option Int) (name : String) : (seed given name : Program (StateM World) _).Keeps := by
  cases given with
  | some n => exact keeps_pure n
  | none =>
    refine (keeps_setting? name).bind fun text => ?_
    split
    · exact keeps_pure _
    · split
      · exact keeps_pure _
      · exact keeps_throw _

theorem keeps_sessionSeed (given : Choice Int) : (sessionSeed given : Program (StateM World) _).Keeps := by
  cases given with
  | value n => exact keeps_pure _
  | absent => exact (keeps_seed _ _).bind fun _ => keeps_pure _
  | blank => exact keeps_pure _

theorem keeps_levelNumber (given : Choice Int) : (levelNumber given : Program (StateM World) _).Keeps := by
  cases given with
  | value n => exact keeps_pure _
  | absent => exact keeps_pure _
  | blank => exact keeps_throw _

theorem keeps_loadLevels (folder : Path) (givenSeed : Option Int) :
    (loadLevels folder givenSeed : Program (StateM World) _).Keeps := by
  refine (keeps_seed _ _).bind fun n => (reads_load folder _).keeps.bind fun loaded => ?_
  exact (keeps_noteAll _).bind fun _ => keeps_attempt _ _

theorem keeps_readResources (root : Path) (levels : List LevelSpec) :
    (readResources root levels : Program (StateM World) _).Keeps :=
  (keeps_mapM (fun p => (reads_text p).keeps.bind fun _ => keeps_pure _) _).bind fun _ => keeps_pure _

/-- Starting a session only looks at the disk. -/
theorem keeps_startSession (o : Opening) : (startSession o : Program (StateM World) Game).Keeps := by
  refine (keeps_levelsFolder _).bind fun folder => (keeps_loadLevels _ _).bind fun levels => ?_
  refine (keeps_levelNumber _).bind fun number => ?_
  extract_lets proceed
  have hproceed : ∀ r, (proceed r).Keeps := by
    intro r
    refine (keeps_sessionSeed _).bind fun seed => (keeps_resolved _).bind fun outcome => ?_
    refine (keeps_attempt _ _).bind fun folder => ?_
    extract_lets root enter
    have henter : ∀ r, (enter r).Keeps := by
      intro r
      cases seed with
      | none => exact keeps_throw _
      | some n =>
        refine (keeps_readResources _ _).bind fun loader => ?_
        exact (keeps_noteAll _).bind fun _ => (keeps_attempt _ _).bind fun _ => keeps_pure _
    split
    · exact (keeps_throw _).bind henter
    · exact henter ()
  split
  · exact (keeps_throw _).bind hproceed
  · exact hproceed ()

theorem keeps_runScript (s : Game) (code : String) : (runScript s code : Program (StateM World) Game).Keeps := by
  have hfresh : (withFreshResources s : Program (StateM World) Game).Keeps := by
    unfold withFreshResources
    split
    · exact (keeps_readResources _ _).bind fun _ => keeps_pure _
    · exact keeps_pure _
  refine hfresh.bind fun fresh => (keeps_noteAll _).bind fun _ => ?_
  exact (keeps_attempt _ _).bind fun _ => keeps_pure _

theorem keeps_showTurn (p : TurnPayload) : (showTurn p : Program (StateM World) Unit).Keeps :=
  (keeps_attempt _ _).bind fun _ _ => ⟨rfl, rfl⟩

theorem keeps_waitIfSlow (s : Game) : (waitIfSlow s : Program (StateM World) Unit).Keeps := by
  unfold waitIfSlow
  split
  · exact (keeps_attempt _ _).bind fun _ _ => ⟨rfl, rfl⟩
  · exact keeps_pure _

end Program

end ScriptedRobot
