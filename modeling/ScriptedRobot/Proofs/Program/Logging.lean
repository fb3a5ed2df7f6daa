import Mathlib
import ScriptedRobot.Proofs.Program.Launching

/-!
# Logs of runs

A run that succeeds puts its header and one turn for each of its batches behind what its log has held, and changes no
other file (`runFiles_ok`). The name of a log is that of a second. So runs that start in different seconds have logs of
their own, and runs that start in one second share one (`logs_apart`).
-/

namespace ScriptedRobot

namespace RunLog

theorem stored_append (rs more : List Record) : stored (rs ++ more) = stored rs ++ stored more := by
  rw [stored, text, List.flatMap_append, String.ofList_append]
  rfl

theorem append_stored_ne (bytes : ByteArray) (r : Record) (rs : List Record) : bytes ++ stored (r :: rs) ≠ bytes := by
  have hline : 0 < r.line.toUTF8.size := by
    show 0 < (r.json.render ++ "\n").utf8ByteSize
    rw [String.utf8ByteSize_append]
    exact Nat.lt_of_lt_of_le (by decide) (Nat.le_add_left "\n".utf8ByteSize _)
  intro hsame
  have hsize := congrArg ByteArray.size hsame
  rw [stored_cons, ByteArray.size_append, ByteArray.size_append] at hsize
  omega

end RunLog

open RunLog (Record logAt stored)

namespace Program

section Recording

variable {m : Type → Type} [Monad m] [Host m]

/-- Shows a turn and waits, if that is wanted. -/
def watch (s : Game) : Bool → Program m Unit
  | true => do
    showTurn s.payload
    waitIfSlow s
  | false => return ()

/-- Runs scripts as one batch each, and gives what they lead to. -/
def playBatches (log : Path) (watched : Bool) : List String → Game → Program m (List Game)
  | [], _ => return []
  | code :: rest, s => do
    let s ← runScript s code
    attempt .record (← RunLog.add log (.turn s.payload))
    watch s watched
    return s :: (← playBatches log watched rest s)

/-- Runs script files, and gives the folder of the run with the records that its log gets. -/
def recordFiles (runs : Choice Path) (scripts : List Path) (o : Opening) (watched : Bool) :
    Program m (Path × List Record) := do
  let l ← launch runs scripts o
  let games ← playBatches (RunLog.inFolder l.folder) watched l.sources l.session
  return (l.folder, header l.folder l.number l.session.spec.name scripts :: games.map fun s => .turn s.payload)

variable [LawfulMonad m]

theorem runBatches_eq (log : Path) (watched : Bool) (sources : List String) (s : Game) :
    (runBatches log watched sources s : Program m Unit) = (fun _ => ()) <$> playBatches log watched sources s := by
  induction sources generalizing s with
  | nil => simp only [runBatches, playBatches, map_pure]
  | cons code rest ih =>
    cases watched with
    | false =>
      simp only [runBatches, playBatches, watch, ih, map_bind, pure_bind, bind_pure_comp, Functor.map_map,
        Bool.false_eq_true, if_false]
    | true =>
      simp only [runBatches, playBatches, watch, ih, map_bind, bind_assoc, bind_pure_comp, Functor.map_map,
        if_true]

theorem runFiles_eq_recordFiles (runs : Choice Path) (scripts : List Path) (o : Opening) (watched : Bool) :
    (runFiles runs scripts o watched : Program m Path) = Prod.fst <$> recordFiles runs scripts o watched := by
  rw [runFiles_eq, recordFiles]
  simp only [runBatches_eq, map_bind, bind_map_left, map_pure]

end Recording

variable {w w' : World} {runs : Choice Path} {scripts sources : List String} {o : Opening} {watched : Bool} {s : Game}
  {base folder log : Path} {spot : Place}

theorem keeps_watch (s : Game) (watched : Bool) : (watch s watched : Program (StateM World) Unit).Keeps := by
  cases watched with
  | false => exact keeps_pure ()
  | true => exact (keeps_showTurn _).bind fun _ => keeps_waitIfSlow s

/-- Batches that are run put their turns behind what the log holds, one after another, and change no other file. -/
theorem playBatches_ok {bytes : ByteArray} {games : List Game} (leads : w.disk.place log = .ok spot)
    (holds : w.disk.content? spot = some (.file bytes))
    (h : (playBatches log watched sources s).on w = (.ok games, w')) :
    w'.disk.content? spot = some (.file (bytes ++ stored (games.map fun s => .turn s.payload))) ∧
      w.disk.Grows {spot} w'.disk := by
  induction sources generalizing s w bytes games with
  | nil =>
    cases h
    have hnone : bytes ++ stored [] = bytes := ByteArray.append_empty
    rw [List.map_nil, hnone]
    exact ⟨holds, .refl _ _⟩
  | cons code rest ih =>
    obtain ⟨next, played, hplay, hplayed⟩ := on_bind_ok h
    have hdisk := (keeps_runScript s code).disk hplay
    rw [on_bind_of_ok (actsOnDisk_add log _ played), hdisk] at hplayed
    rcases hadd : (RunLog.add log (.turn next.payload) : StateM Disk (Except RunLog.WriteFault Unit)).run w.disk with
      ⟨fault | ⟨⟩, added⟩
    · rw [hadd] at hplayed
      cases hplayed
    · rw [hadd, on_bind_of_ok (on_attempt _ _ _)] at hplayed
      obtain ⟨⟨⟩, watched', hwatch, hwatched⟩ := on_bind_ok hplayed
      obtain ⟨rest', last, hrest, hlast⟩ := on_bind_ok hwatched
      cases hlast
      -- the log is where it has been
      obtain ⟨spot', hplace, hgrows, hfile⟩ := RunLog.add_ok hadd
      obtain rfl := Except.ok.inj ((hgrows.place leads).symm.trans hplace)
      rw [Disk.heldAt_of_file holds] at hfile
      have hkept : watched'.disk = added := (keeps_watch next watched).disk hwatch
      rw [← hkept] at hplace hgrows hfile
      obtain ⟨hmore, hgrows'⟩ := ih hplace hfile hrest
      refine ⟨?_, hgrows.trans hgrows'⟩
      rw [hmore, List.map_cons, RunLog.stored_cons, ByteArray.append_assoc]

/-- The records of a run: the header, and a turn for each batch. -/
def records (runs : Choice Path) (scripts : List Path) (o : Opening) (watched : Bool) (w : World) : List Record :=
  match (recordFiles runs scripts o watched).on w with
  | (.ok (_, records), _) => records
  | (.error _, _) => []

/-- A run that succeeds has put its records behind what its log has held, and changed no other file. -/
theorem runFiles_ok {scripts : List Path} (given : base? runs = some base)
    (h : (runFiles runs scripts o watched).on w = (.ok folder, w')) :
    folder = base.child w.now.runName ∧
      (∃ (metadata : Json) (payloads : List TurnPayload),
        records runs scripts o watched w = .header metadata :: payloads.map .turn) ∧
      ∃ spot, w'.disk.place (logAt base w.now) = .ok spot ∧
        w'.disk.content? spot = some (.file (w.disk.heldAt spot ++ stored (records runs scripts o watched w))) ∧
        w.disk.Grows {spot} w'.disk := by
  rw [runFiles_eq_recordFiles, ← bind_pure_comp] at h
  obtain ⟨⟨folder', written⟩, mid, hrecord, hlast⟩ := on_bind_ok h
  cases hlast
  have hrecords : records runs scripts o watched w = written := by rw [records, hrecord]
  rw [hrecords]
  obtain ⟨l, launched, hlaunch, hplay⟩ := on_bind_ok hrecord
  obtain ⟨games, played, hgames, hlast⟩ := on_bind_ok hplay
  cases hlast
  rcases launch_cases hlaunch with ⟨failure, hfailure, -⟩ | ⟨base', number, s, spot, sources, hbase, hl, hopened, -⟩
  · cases hfailure
  · obtain rfl := Option.some.inj (given.symm.trans hbase)
    obtain rfl := Except.ok.inj hl
    obtain ⟨hmore, hgrows⟩ := playBatches_ok hopened.leads hopened.holds hgames
    refine ⟨rfl, ⟨_, games.map Session.payload, by rw [List.map_map]; rfl⟩, spot, hgrows.place hopened.leads, ?_,
      hopened.grows.trans hgrows⟩
    rw [hmore, RunLog.stored_cons, ByteArray.append_assoc]

/-- A run adds to the log of its second if it is there. -/
theorem runFiles_adds {scripts : List Path} {bytes : ByteArray} (given : base? runs = some base)
    (h : (runFiles runs scripts o watched).on w = (.ok folder, w')) (leads : w.disk.place (logAt base w.now) = .ok spot)
    (holds : w.disk.content? spot = some (.file bytes)) :
    w'.disk.content? spot ≠ some (.file bytes) ∧
      w'.disk.content? spot = some (.file (bytes ++ stored (records runs scripts o watched w))) := by
  obtain ⟨-, ⟨metadata, payloads, hrecords⟩, spot', hleads, hholds, hgrows⟩ := runFiles_ok given h
  obtain rfl := Except.ok.inj (hleads.symm.trans (hgrows.place leads))
  rw [Disk.heldAt_of_file holds] at hholds
  refine ⟨?_, hholds⟩
  rw [hholds, hrecords]
  intro hunchanged
  exact RunLog.append_stored_ne _ _ _ (FileContent.file.inj (Option.some.inj hunchanged))

/-! ## Runs one after another -/

/-- A run that has succeeded: when it has started, and what it has recorded. -/
structure Run where
  /-- When the folder of the run was made. -/
  start : Moment
  /-- The records of the run. -/
  records : List Record

/-- Some runs have succeeded one after another, each of them in a world of its own with the disk that the one before it
has left. All have the same base. -/
inductive Series (base : Path) (d : Disk) : List Run → Disk → Prop where
  | none : Series base d [] d
  | run {past : List Run} {runs : Choice Path} {scripts : List Path} {o : Opening} {watched : Bool} {folder : Path}
      {w w' : World} (h : Series base d past w.disk) (given : base? runs = some base)
      (succeeds : (runFiles runs scripts o watched).on w = (.ok folder, w')) :
      Series base d (past ++ [⟨w.now, records runs scripts o watched w⟩]) w'.disk

/-- The records of all runs that have started in a second. -/
def startedAt (t : Moment) (past : List Run) : List Record := (past.filter (·.start = t)).flatMap Run.records

variable {d last : Disk} {past : List Run} {run : Run} {t : Moment}

theorem startedAt_append (t : Moment) (past more : List Run) :
    startedAt t (past ++ more) = startedAt t past ++ startedAt t more := by
  rw [startedAt, List.filter_append, List.flatMap_append]
  rfl

theorem startedAt_self (run : Run) : startedAt run.start [run] = run.records := by
  simp [startedAt]

theorem startedAt_of_ne (h : ∀ run ∈ past, run.start ≠ t) : startedAt t past = [] := by
  have hnone : past.filter (·.start = t) = [] := by simpa using h
  rw [startedAt, hnone]
  rfl

theorem startedAt_of_nodup (nodup : (past.map Run.start).Nodup) (mem : run ∈ past) :
    startedAt run.start past = run.records := by
  obtain ⟨front, back, rfl⟩ := List.append_of_mem mem
  rw [List.map_append, List.map_cons, List.nodup_middle, List.nodup_cons, List.mem_append, not_or] at nodup
  obtain ⟨⟨hfront, hback⟩, -⟩ := nodup
  have hnone : ∀ {more : List Run}, run.start ∉ more.map Run.start → startedAt run.start more = [] :=
    fun hmore => startedAt_of_ne fun other hother hstart => hmore (List.mem_map.2 ⟨other, hother, hstart⟩)
  have hsplit : front ++ run :: back = front ++ ([run] ++ back) := rfl
  rw [hsplit, startedAt_append, startedAt_append, hnone hfront, hnone hback, startedAt_self, List.nil_append,
    List.append_nil]

/-- What runs leave on a disk: each log holds the records of the runs that have started in its second, behind what it
has held before, and no other file has changed. -/
structure Logged (base : Path) (d : Disk) (past : List Run) (last : Disk) : Prop where
  log : ∀ run ∈ past, ∃ spot, last.place (logAt base run.start) = .ok spot ∧
    last.content? spot = some (.file (d.heldAt spot ++ stored (startedAt run.start past)))
  other : ∀ spot, (∀ run ∈ past, last.place (logAt base run.start) ≠ .ok spot) → last.heldAt spot = d.heldAt spot

theorem Logged.heldAt_of_next {next : Disk} (h : Logged base d past last)
    (leads : next.place (logAt base run.start) = .ok spot) (grows : last.Grows {spot} next) :
    last.heldAt spot = d.heldAt spot ++ stored (startedAt run.start past) := by
  by_cases hpast : ∃ other ∈ past, other.start = run.start
  · obtain ⟨other, hother, hstart⟩ := hpast
    obtain ⟨spot', hplace, hfile⟩ := h.log other hother
    rw [hstart] at hplace hfile
    obtain rfl := Except.ok.inj ((grows.place hplace).symm.trans leads)
    exact Disk.heldAt_of_file hfile
  · have hnone : startedAt run.start past = [] :=
      startedAt_of_ne fun other hother hstart => hpast ⟨other, hother, hstart⟩
    have hempty : d.heldAt spot ++ stored [] = d.heldAt spot := ByteArray.append_empty
    rw [hnone, hempty]
    refine h.other spot fun other hother hplace => hpast ⟨other, hother, ?_⟩
    exact RunLog.log_unique (grows.place hplace) leads

/-- One more run keeps that up. -/
theorem Logged.next {next : Disk} (h : Logged base d past last) (leads : next.place (logAt base run.start) = .ok spot)
    (holds : next.content? spot = some (.file (last.heldAt spot ++ stored run.records)))
    (grows : last.Grows {spot} next) : Logged base d (past ++ [run]) next := by
  constructor
  · intro other hother
    rw [startedAt_append]
    by_cases hstart : other.start = run.start
    · refine ⟨spot, by rw [hstart, leads], ?_⟩
      rw [holds, hstart, startedAt_self, RunLog.stored_append, ← ByteArray.append_assoc, h.heldAt_of_next leads grows]
    · have hpast : other ∈ past := by
        rcases List.mem_append.1 hother with hpast | hrun
        · exact hpast
        · exact absurd (congrArg Run.start (List.mem_singleton.1 hrun)) hstart
      obtain ⟨spot', hplace, hfile⟩ := h.log other hpast
      have hspot : spot' ∉ ({spot} : Set Place) := by
        rintro rfl
        exact hstart (RunLog.log_unique (grows.place hplace) leads)
      have hnone : startedAt other.start [run] = [] :=
        startedAt_of_ne (List.forall_mem_singleton.2 fun heq => hstart heq.symm)
      rw [hnone, List.append_nil]
      exact ⟨spot', grows.place hplace, (grows.file spot' hspot _).2 hfile⟩
  · intro spot' hother
    have hspot : spot' ∉ ({spot} : Set Place) := by
      rintro rfl
      exact hother run (List.mem_append_right _ (List.mem_singleton_self run)) leads
    rw [grows.heldAt hspot]
    exact h.other spot' fun other hpast hplace =>
      hother other (List.mem_append_left _ hpast) (grows.place hplace)

theorem Series.logged (h : Series base d past last) : Logged base d past last := by
  induction h with
  | none => exact ⟨nofun, fun _ _ => rfl⟩
  | run h given succeeds ih =>
    obtain ⟨-, -, spot, hleads, hholds, hgrows⟩ := runFiles_ok given succeeds
    exact ih.next hleads hholds hgrows

/-- A run records its header and a turn for each batch. -/
theorem Series.records_eq (h : Series base d past last) : ∀ run ∈ past,
    ∃ (metadata : Json) (payloads : List TurnPayload), run.records = .header metadata :: payloads.map .turn := by
  induction h with
  | none => exact nofun
  | run h given succeeds ih =>
    obtain ⟨-, hrecords, -⟩ := runFiles_ok given succeeds
    intro run hrun
    rcases List.mem_append.1 hrun with hpast | hlast
    · exact ih run hpast
    · rw [List.mem_singleton.1 hlast]
      exact hrecords

/-! ## Runs on the lawn -/

/-- A run there without scripts succeeds if its folder is made and its log is no directory. -/
theorem runFiles_lawn {more : List (Place × FileContent)} (t : Moment) (made : Disk) (spot : Place) (now : w.now = t)
    (disk : w.disk = lawnDisk more)
    (makes : (RunLog.makeFolder defaultRuns t : StateM Disk (Except StorageFault Path)).run (lawnDisk more) =
      (.ok (defaultRuns.child t.runName), made))
    (folder : made.kind? (logAt defaultRuns t).parent = .ok (some .directory))
    (leads : made.place (logAt defaultRuns t) = .ok spot) (free : made.content? spot ≠ some .directory) :
    ∃ w' bytes, (runFiles .absent [] lawnOpening false).on w = (.ok (defaultRuns.child t.runName), w') ∧
      w'.disk = made.put spot (.file bytes) := by
  subst now
  obtain ⟨s, mid, bytes, hlaunch⟩ := launch_lawn made spot [] disk makes folder leads free
  refine ⟨{ mid with disk := made.put spot (.file bytes) }, bytes, ?_, rfl⟩
  rw [runFiles_eq, on_bind_of_ok hlaunch]
  rfl

theorem runFiles_first : ∃ w' bytes,
    (runFiles .absent [] lawnOpening false).on lawn = (.ok (defaultRuns.child RunLog.newYear.runName), w') ∧
      w'.disk = lawnDisk (runFolder ++ [(logSpot, .file bytes)]) :=
  runFiles_lawn RunLog.newYear (lawnDisk runFolder) logSpot rfl rfl rfl rfl rfl nofun

/-! ## Logs for each second -/

/-- After any number of runs with one base, the log of each run holds the records of the runs of its second one after
another. One more run leaves that log byte for byte as it is exactly if it starts in another second. So if all runs have
started in different seconds, each log that is new holds one header and the turns of its run. -/
theorem logs_apart (before : Series base d past w.disk) (mem : run ∈ past) {scripts : List Path}
    (given : base? runs = some base) (succeeds : (runFiles runs scripts o watched).on w = (.ok folder, w')) :
    ∃ spot bytes, w.disk.place (logAt base run.start) = .ok spot ∧ w.disk.content? spot = some (.file bytes) ∧
      bytes = d.heldAt spot ++ stored (startedAt run.start past) ∧
      w'.disk.place (logAt base run.start) = .ok spot ∧
      (w.now ≠ run.start → w'.disk.content? spot = some (.file bytes)) ∧
      (w.now = run.start → w'.disk.content? spot ≠ some (.file bytes) ∧
        w'.disk.content? spot = some (.file (bytes ++ stored (records runs scripts o watched w)))) ∧
      ((past.map Run.start).Nodup → d.heldAt spot = .empty → ∃ (metadata : Json) (payloads : List TurnPayload),
        run.records = .header metadata :: payloads.map .turn ∧ bytes = stored run.records) := by
  obtain ⟨spot, hplace, hfile⟩ := before.logged.log run mem
  obtain ⟨-, -, spot', hleads, -, hgrows⟩ := runFiles_ok given succeeds
  refine ⟨spot, _, hplace, hfile, rfl, hgrows.place hplace, ?_, ?_, ?_⟩
  · intro hlater
    have hspot : spot ∉ ({spot'} : Set Place) := by
      rintro rfl
      exact hlater (RunLog.log_unique hleads (hgrows.place hplace))
    exact (hgrows.file spot hspot _).2 hfile
  · intro hsame
    rw [← hsame] at hplace
    exact runFiles_adds given succeeds hplace hfile
  · intro hnodup hnew
    obtain ⟨metadata', payloads', hrun⟩ := before.records_eq run mem
    refine ⟨metadata', payloads', hrun, ?_⟩
    rw [hnew, startedAt_of_nodup hnodup mem, ByteArray.empty_append]

/-- A run that starts an hour after another leaves its log as it is. -/
theorem logs_apart_lawn : ∃ w' spot bytes w'',
    (runFiles .absent [] lawnOpening false).on lawn = (.ok (defaultRuns.child RunLog.newYear.runName), w') ∧
      (runFiles .absent [] lawnOpening false).on { lawn with disk := w'.disk, now := RunLog.firstHour } =
        (.ok (defaultRuns.child RunLog.firstHour.runName), w'') ∧
      w'.disk.place (logAt defaultRuns RunLog.newYear) = .ok spot ∧ w'.disk.content? spot = some (.file bytes) ∧
      w''.disk.content? spot = some (.file bytes) := by
  obtain ⟨w', bytes, hfirst, hdisk⟩ := runFiles_first
  obtain ⟨w'', -, hsecond, -⟩ := runFiles_lawn (w := { lawn with disk := w'.disk, now := RunLog.firstHour })
    RunLog.firstHour
    (lawnDisk (runFolder ++ [(logSpot, .file bytes), (["replay", "2000-01-01T01-00-00Z"], .directory)]))
    ["replay", "2000-01-01T01-00-00Z", "run.jsonl"] rfl hdisk rfl rfl rfl nofun
  have hseries : Series defaultRuns lawn.disk ([] ++ [⟨lawn.now, records .absent [] lawnOpening false lawn⟩]) w'.disk :=
    .run .none rfl hfirst
  obtain ⟨spot, bytes, hplace, hfile, -, -, hlater, -⟩ :=
    logs_apart (w := { lawn with disk := w'.disk, now := RunLog.firstHour }) hseries (List.mem_singleton_self _) rfl
      hsecond
  have hmoments : RunLog.firstHour ≠ RunLog.newYear := by decide
  exact ⟨w', spot, bytes, w'', hfirst, hsecond, hplace, hfile, hlater hmoments⟩

/-- A run that starts in the same second adds to it. -/
theorem runFiles_sharing : ∃ w' bytes w'',
    (runFiles .absent [] lawnOpening false).on lawn = (.ok (defaultRuns.child RunLog.newYear.runName), w') ∧
      w'.disk.place (logAt defaultRuns RunLog.newYear) = .ok logSpot ∧ w'.disk.content? logSpot = some (.file bytes) ∧
      (runFiles .absent [] lawnOpening false).on { lawn with disk := w'.disk } =
        (.ok (defaultRuns.child RunLog.newYear.runName), w'') ∧
      w''.disk.content? logSpot ≠ some (.file bytes) := by
  obtain ⟨w', bytes, hfirst, hdisk⟩ := runFiles_first
  obtain ⟨w'', -, hsecond, -⟩ := runFiles_lawn (w := { lawn with disk := w'.disk }) RunLog.newYear
    (lawnDisk (runFolder ++ [(logSpot, .file bytes)])) logSpot rfl hdisk rfl rfl rfl nofun
  have hplace : w'.disk.place (logAt defaultRuns RunLog.newYear) = .ok logSpot := by
    rw [hdisk]
    rfl
  have hfile : w'.disk.content? logSpot = some (.file bytes) := by
    rw [hdisk]
    rfl
  exact ⟨w', bytes, w'', hfirst, hplace, hfile, hsecond, (runFiles_adds rfl hsecond hplace hfile).1⟩

end Program

end ScriptedRobot
