import Mathlib
import ScriptedRobot.Proofs.RunLog.Folders
import ScriptedRobot.Proofs.RunLog.RoundTrip

/-!
# Listing runs

The listing of runs looks into every folder of a base once, keeps those with a log in them, and sorts their names. After
any number of runs have been started, it gives each run that has a log exactly once, and of two runs the one that has
started in a later second first (`RunLog.runs_listed`).
-/

namespace ScriptedRobot

namespace Moment

theorem utf8Len_of_ascii {cs : List Char} (h : ∀ c ∈ cs, c.utf8Size = 1) : String.utf8Len cs = cs.length := by
  induction cs with
  | nil => rfl
  | cons c cs ih =>
    obtain ⟨hc, hcs⟩ := List.forall_mem_cons.1 h
    rw [String.utf8Len_cons, hc, ih hcs, List.length_cons]

theorem utf8Size_of_mem_pair (n : Nat) : ∀ c ∈ pair n, c.utf8Size = 1 := by
  have hdigit : ∀ m < 10, (Nat.digitChar m).utf8Size = 1 := by decide
  intro c hc
  rcases List.mem_cons.1 hc with rfl | hc
  · exact hdigit _ (Nat.mod_lt _ (by decide))
  · rw [List.mem_singleton.1 hc]
    exact hdigit _ (Nat.mod_lt _ (by decide))

/-- The names of runs are all of the same size. -/
theorem utf8ByteSize_runName {t : Moment} (h : t.HasFourDigitYear) : t.runName.utf8ByteSize = 20 := by
  have hlist : t.runName.toList = pair (t.year / 100) ++ pair (t.year % 100) ++ t.nameTail := by
    rw [toList_runName, toDigits_of_four h.le_year h.year_le]
  rw [← String.ofList_toList (s := t.runName), String.utf8ByteSize_ofList, hlist, utf8Len_of_ascii]
  · rfl
  · intro c hc
    simp only [nameTail, List.mem_append, List.mem_cons, List.not_mem_nil, or_false] at hc
    have hpair := utf8Size_of_mem_pair
    rcases hc with (hc | hc) | rfl | hc | rfl | hc | rfl | hc | rfl | hc | rfl | hc | rfl
    all_goals first | exact hpair _ _ hc | decide

end Moment

namespace Path

variable {folder : Path} {name : String}

theorem IsName.name_child (h : IsName name) : (folder.child name).name = name := by
  rw [h.child_eq, Path.name, List.getLast?_concat]
  rfl

theorem IsName.inFolder_child (h : IsName name) :
    RunLog.inFolder (folder.child name) = ⟨folder.root, folder.names ++ [name, RunLog.fileName]⟩ := by
  rw [RunLog.inFolder, RunLog.fileName_isName.child_eq, h.child_eq]
  exact congrArg _ (List.append_assoc _ _ _)

end Path

namespace Disk

/-- There is a log in the folder. -/
def HasLog (d : Disk) (folder : Path) : Prop := ∃ kind, d.kind? (RunLog.inFolder folder) = .ok (some kind)

/-- A listing can look into every folder of the base, since no path is too long. -/
structure Listable (d : Disk) (base : Path) : Prop where
  start : ∃ kind, d.kind? base = .ok kind
  log : ∀ names, d.names base = .ok names → ∀ name ∈ names,
    ∃ kind, d.kind? (RunLog.inFolder (base.child name)) = .ok kind

variable {d d' : Disk} {changed : Set Place} {folder p : Path} {spot here : Place} {name : String}

theorem hasLog_iff :
    d.HasLog folder ↔ ∃ spot, d.place (RunLog.inFolder folder) = .ok spot ∧ d.content? spot ≠ none := by
  constructor
  · rintro ⟨kind, hkind⟩
    obtain ⟨spot, hplace, hspot⟩ := place_of_kind? hkind
    refine ⟨spot, hplace, ?_⟩
    intro hnone
    rw [kindAt, hnone] at hspot
    cases hspot
  · rintro ⟨spot, hplace, hspot⟩
    obtain ⟨content, hcontent⟩ := Option.ne_none_iff_exists'.1 hspot
    have hkind := kind?_eq d (RunLog.inFolder folder)
    rw [hplace] at hkind
    simp only [kindAt, hcontent, Option.map_some] at hkind
    exact ⟨_, hkind⟩

/-- What is on a disk is still there when it has grown. -/
theorem Grows.hasLog (h : d.Grows changed d') (isThere : d.HasLog folder)
    (kept : ∀ spot ∈ changed, d'.content? spot ≠ none) : d'.HasLog folder := by
  obtain ⟨spot, hplace, hspot⟩ := hasLog_iff.1 isThere
  refine hasLog_iff.2 ⟨spot, h.place hplace, ?_⟩
  by_cases hchanged : spot ∈ changed
  · exact kept spot hchanged
  · obtain ⟨content, hcontent⟩ := Option.ne_none_iff_exists'.1 hspot
    cases content with
    | directory => simp [h.directory spot hcontent]
    | file bytes => simp [(h.file spot hchanged bytes).2 hcontent]

theorem fits_of_place (leads : d.place p = .ok spot) : p.text.utf8ByteSize ≤ longestPath := by
  by_contra hlong
  unfold place at leads
  split at leads
  · cases leads
  · rw [if_pos (Nat.lt_of_not_le hlong)] at leads
    cases leads

/-- Names that are not too long lead on as far as there are directories. -/
theorem kind?_log (leads : d.place p = .ok here) (directory : d.content? here = some .directory) (h : Path.IsName name)
    (short : name.utf8ByteSize ≤ longestName)
    (fits : (RunLog.inFolder (p.child name)).text.utf8ByteSize ≤ longestPath) :
    ∃ kind, d.kind? (RunLog.inFolder (p.child name)) = .ok kind := by
  rw [h.inFolder_child] at fits ⊢
  have hroot : (⟨p.root, p.names ++ [name, RunLog.fileName]⟩ : Path).isAbsolute = p.isAbsolute := rfl
  have hnames : (⟨p.root, p.names ++ [name, RunLog.fileName]⟩ : Path).names = p.names ++ [name, RunLog.fileName] := rfl
  generalize (⟨p.root, p.names ++ [name, RunLog.fileName]⟩ : Path) = log at hroot hnames fits ⊢
  have hstep : d.step log here name = .ok (here ++ [name]) := by
    rw [step, directory]
    simp only [if_neg h.ne_above, if_neg (Nat.not_lt.2 short)]
  by_cases hnull : log.text.toList.contains '\x00' = true
  · exact ⟨none, by rw [kind?_eq, place, if_pos hnull]; rfl⟩
  · have hplace : d.place log = d.step log (here ++ [name]) RunLog.fileName := by
      rw [place, if_neg hnull, if_neg (Nat.not_lt.2 fits), hnames, hroot, List.foldlM_append,
        follow_eq_ok (follow_of_place leads)]
      show [name, RunLog.fileName].foldlM (d.step log) here = _
      rw [List.foldlM_cons, hstep]
      exact bind_pure (d.step log (here ++ [name]) RunLog.fileName)
    rw [kind?_eq, hplace, step]
    cases d.content? (here ++ [name]) with
    | none => exact ⟨none, rfl⟩
    | some content =>
      cases content with
      | file bytes => exact ⟨none, rfl⟩
      | directory => exact ⟨_, rfl⟩

end Disk

namespace RunLog

variable {d next last : Disk} {base folder : Path} {made logged : List Moment} {s t : Moment} {name : String}
  {names : List String} {r : Record}

/-! ## Looking into folders -/

/-- Those names are kept that have a log. -/
theorem namesWithLog_run (h : ∀ name ∈ names, ∃ kind, d.kind? (inFolder (base.child name)) = .ok kind) :
    ∃ kept, (namesWithLog base names : StateM Disk (Except StorageFault (List String))).run d = (.ok kept, d) ∧
      kept.Sublist names ∧ ∀ name, name ∈ kept ↔ name ∈ names ∧ d.HasLog (base.child name) := by
  induction names with
  | nil => exact ⟨[], rfl, .slnil, by simp⟩
  | cons name names ih =>
    obtain ⟨⟨kind, hkind⟩, hrest⟩ := List.forall_mem_cons.1 h
    obtain ⟨kept, hrun, hsub, hmem⟩ := ih hrest
    have hhead : d.HasLog (base.child name) ↔ kind.isSome = true := by
      rw [Disk.HasLog, hkind, Option.isSome_iff_exists]
      simp only [Except.ok.injEq]
    rw [namesWithLog, stateM_run_bind, Disk.isThere_run, hkind]
    simp only [Except.map]
    rw [stateM_run_bind, hrun]
    by_cases hsome : kind.isSome = true
    · refine ⟨name :: kept, by rw [hsome]; rfl, hsub.cons_cons name, ?_⟩
      intro other
      rw [List.mem_cons, List.mem_cons, hmem]
      constructor
      · rintro (rfl | ⟨hother, hlog⟩)
        · exact ⟨.inl rfl, hhead.2 hsome⟩
        · exact ⟨.inr hother, hlog⟩
      · rintro ⟨rfl | hother, hlog⟩
        · exact .inl rfl
        · exact .inr ⟨hother, hlog⟩
    · refine ⟨kept, by rw [Bool.eq_false_iff.2 hsome]; rfl, hsub.cons name, ?_⟩
      intro other
      rw [List.mem_cons, hmem]
      constructor
      · rintro ⟨hother, hlog⟩
        exact ⟨.inr hother, hlog⟩
      · rintro ⟨rfl | hother, hlog⟩
        · exact absurd (hhead.1 hlog) hsome
        · exact ⟨hother, hlog⟩

/-- Names are sorted from the last to the first. -/
theorem pairwise_newestFirst (names : List String) : (newestFirst names).Pairwise fun a b => b ≤ a := by
  have hsorted : (newestFirst names).Pairwise fun a b => decide (b ≤ a) = true := by
    refine List.pairwise_mergeSort ?_ ?_ names
    · intro a b c hab hbc
      exact decide_eq_true (le_trans (of_decide_eq_true hbc) (of_decide_eq_true hab))
    · intro a b
      rw [Bool.or_eq_true, decide_eq_true_iff, decide_eq_true_iff]
      exact le_total b a
  exact hsorted.imp of_decide_eq_true

/-- What a listing of a base gives: the folders with a log, each of them once, from the last name to the first. -/
structure Lists (d : Disk) (base : Path) (found : List Path) : Prop where
  nodup : found.Nodup
  mem_iff : ∀ folder, folder ∈ found ↔ ∃ name, Path.IsName name ∧ folder = base.child name ∧ d.HasLog folder
  sorted : found.Pairwise fun folder next => next.name ≤ folder.name

theorem folder_of_hasLog (h : d.HasLog folder) : d.kind? folder = .ok (some .directory) := by
  obtain ⟨kind, hkind⟩ := h
  have hfolder := Disk.kind?_parent fileName_isName.names_ne_nil hkind
  rwa [fileName_isName.parent_child] at hfolder

theorem base_of_hasLog (hname : Path.IsName name) (h : d.HasLog (base.child name)) :
    d.kind? base = .ok (some .directory) := by
  have hbase := Disk.kind?_parent hname.names_ne_nil (folder_of_hasLog h)
  rwa [hname.parent_child] at hbase

/-- The folder of a log is found where the base leads to. -/
theorem mem_names_of_hasLog (hname : Path.IsName name) (h : d.HasLog (base.child name))
    (holds : d.names base = .ok names) : name ∈ names := by
  obtain ⟨spot, hplace, hspot⟩ := Disk.directory_of_kind? (folder_of_hasLog h)
  obtain ⟨here, hbase, hdirectory, rfl⟩ := Disk.place_of_child hname hplace
  refine (Disk.mem_names_iff hbase hdirectory holds).2 ?_
  rw [hspot]
  exact nofun

theorem lists_newestFirst (nodup : names.Nodup)
    (h : ∀ name, name ∈ names ↔ Path.IsName name ∧ d.HasLog (base.child name)) :
    Lists d base ((newestFirst names).map base.child) := by
  have hperm : (newestFirst names).Perm names := List.mergeSort_perm names _
  have hmem : ∀ name, name ∈ newestFirst names ↔ Path.IsName name ∧ d.HasLog (base.child name) :=
    fun name => hperm.mem_iff.trans (h name)
  refine ⟨?_, ?_, ?_⟩
  · refine (hperm.nodup_iff.2 nodup).map_on fun a ha b hb hsame => ?_
    exact ((hmem a).1 ha).1.child_inj ((hmem b).1 hb).1 hsame
  · intro folder
    rw [List.mem_map]
    constructor
    · rintro ⟨name, hname, rfl⟩
      exact ⟨name, ((hmem name).1 hname).1, rfl, ((hmem name).1 hname).2⟩
    · rintro ⟨name, hname, rfl, hlog⟩
      exact ⟨name, (hmem name).2 ⟨hname, hlog⟩, rfl⟩
  · refine List.pairwise_map.2 ((pairwise_newestFirst names).imp_of_mem fun ha hb hle => ?_)
    rwa [((hmem _).1 ha).1.name_child, ((hmem _).1 hb).1.name_child]

/-- A listing that can look into every folder is complete and sorted. -/
theorem folders_run (sound : d.Sound) (listable : d.Listable base) :
    ∃ found, (folders base : StateM Disk (Except StorageFault (List Path))).run d = (.ok found, d) ∧
      Lists d base found := by
  obtain ⟨kind, hkind⟩ := listable.start
  have hstart : (Storage.isDirectory base : StateM Disk (Except StorageFault Bool)).run d =
      (.ok (kind == some .directory), d) := by
    rw [Disk.isDirectory_run, hkind]
    rfl
  rw [folders, stateM_run_bind, hstart]
  by_cases hdirectory : kind = some .directory
  · subst hdirectory
    obtain ⟨here, hplace, hhere⟩ := Disk.directory_of_kind? hkind
    obtain ⟨names, hnames⟩ : ∃ names, d.names base = .ok names := ⟨_, Disk.names_eq hplace hhere⟩
    have hnamesRun : (Storage.names base : StateM Disk (Except StorageFault (List String))).run d = (d.names base, d) :=
      rfl
    obtain ⟨kept, hrun, hsub, hmem⟩ := namesWithLog_run (listable.log names hnames)
    refine ⟨(newestFirst kept).map base.child, ?_, lists_newestFirst ?_ ?_⟩
    · simp only [beq_self_eq_true]
      rw [stateM_run_bind, hnamesRun, hnames]
      simp only
      rw [stateM_run_bind, hrun]
      rfl
    · exact (sound.nodup_names hplace hhere hnames).sublist hsub
    · intro name
      rw [hmem]
      constructor
      · rintro ⟨hname, hlog⟩
        exact ⟨sound.isName_of_names hplace hhere hnames hname, hlog⟩
      · rintro ⟨hname, hlog⟩
        exact ⟨mem_names_of_hasLog hname hlog hnames, hlog⟩
  · refine ⟨[], ?_, .nil, ?_, .nil⟩
    · rw [beq_false_of_ne hdirectory]
      rfl
    · intro folder
      refine iff_of_false List.not_mem_nil ?_
      rintro ⟨name, hname, rfl, hlog⟩
      have hbase := base_of_hasLog hname hlog
      rw [hkind] at hbase
      exact hdirectory (Except.ok.inj hbase)

/-! ## Starting runs -/

/-- Some runs have been started one after another: for some moments a folder has been made, and for some of these
something has been added to the log in it. -/
inductive Started (base : Path) (d : Disk) : List Moment → List Moment → Disk → Prop where
  | none : Started base d [] [] d
  | folder {made logged : List Moment} {last : Disk} (next : Disk) (t : Moment) (folder : Path)
      (h : Started base d made logged next)
      (makes : (makeFolder base t : StateM Disk (Except StorageFault Path)).run next = (.ok folder, last)) :
      Started base d (t :: made) logged last
  | log {made logged : List Moment} {last : Disk} (next : Disk) (t : Moment) (r : Record)
      (h : Started base d made logged next) (mem : t ∈ made)
      (adds : (add (logAt base t) r : StateM Disk (Except WriteFault Unit)).run next = (.ok (), last)) :
      Started base d made (t :: logged) last

theorem Started.sound (h : Started base d made logged last) (sound : d.Sound) (proper : base.IsProper) :
    last.Sound := by
  induction h with
  | none => exact sound
  | folder next t folder h makes ih =>
    have hmade := makeFolder_sound ih proper t
    rwa [makes] at hmade
  | log next t r h mem adds ih =>
    have hproper : (logAt base t).IsProper := (proper.child t.runName_isName).child fileName_isName
    have hadded := add_sound (r := r) ih hproper
    rwa [adds] at hadded

/-- The logs of runs that were started stay there. -/
theorem Started.hasLog (h : Started base d made logged last) :
    ∀ t ∈ logged, t ∈ made ∧ last.HasLog (base.child t.runName) := by
  induction h with
  | none => exact nofun
  | folder next t folder h makes ih =>
    have hgrows := makeFolder_grows base t next
    rw [makes] at hgrows
    intro s hs
    obtain ⟨hmade, hlog⟩ := ih s hs
    exact ⟨List.mem_cons_of_mem _ hmade, hgrows.hasLog hlog nofun⟩
  | log next t r h mem adds ih =>
    obtain ⟨spot, hplace, hgrows, hfile⟩ := add_ok adds
    have hspot := Option.ne_none_iff_exists'.2 ⟨_, hfile⟩
    refine List.forall_mem_cons.2 ⟨⟨mem, Disk.hasLog_iff.2 ⟨spot, hplace, hspot⟩⟩, ?_⟩
    intro s hs
    obtain ⟨hmade, hlog⟩ := ih s hs
    exact ⟨hmade, hgrows.hasLog hlog fun other hother => Set.mem_singleton_iff.1 hother ▸ hspot⟩

/-- The paths to logs in a base only differ in the names of their folders. -/
theorem text_inFolder (base : Path) :
    ∃ front, ∀ name, Path.IsName name → (inFolder (base.child name)).text = front ++ name ++ "/" ++ fileName := by
  have hlast : ∀ name, "/".intercalate [name, fileName] = name ++ "/" ++ fileName := by
    intro name
    rfl
  have htext : ∀ name, Path.IsName name →
      (inFolder (base.child name)).text = base.root ++ "/".intercalate (base.names ++ [name, fileName]) := by
    intro name hname
    rw [hname.inFolder_child]
    exact if_neg fun hempty => List.append_ne_nil_of_right_ne_nil _ (List.cons_ne_nil _ _) hempty.2
  by_cases hnone : base.names = []
  · refine ⟨base.root, fun name hname => ?_⟩
    rw [htext name hname, hnone, List.nil_append, hlast]
    simp only [String.append_assoc]
  · refine ⟨base.root ++ "/".intercalate base.names ++ "/", fun name hname => ?_⟩
    rw [htext name hname, String.intercalate_append_of_ne_nil hnone (List.cons_ne_nil _ _), hlast]
    simp only [String.append_assoc]

/-- A listing can look into the folders of a base that has only runs in it, since the path to one log is as long as
that to another. -/
theorem listable_of_hasLog (years : ∀ t ∈ made, t.HasFourDigitYear) (mem : s ∈ made)
    (h : d.HasLog (base.child s.runName))
    (runs : ∀ names, d.names base = .ok names → ∀ name ∈ names, ∃ t ∈ made, name = t.runName) : d.Listable base := by
  have hbase := base_of_hasLog s.runName_isName h
  obtain ⟨here, hplace, hdirectory⟩ := Disk.directory_of_kind? hbase
  refine ⟨⟨_, hbase⟩, ?_⟩
  intro names hnames name hname
  obtain ⟨t, ht, rfl⟩ := runs names hnames name hname
  have hsize := Moment.utf8ByteSize_runName (years t ht)
  refine Disk.kind?_log hplace hdirectory t.runName_isName ?_ ?_
  · rw [hsize]
    decide
  · obtain ⟨spot, hlog, -⟩ := Disk.hasLog_iff.1 h
    have hfits := Disk.fits_of_place hlog
    obtain ⟨front, htext⟩ := text_inFolder base
    rw [htext _ s.runName_isName] at hfits
    rw [htext _ t.runName_isName]
    simp only [String.utf8ByteSize_append, hsize, Moment.utf8ByteSize_runName (years s mem)] at hfits ⊢
    exact hfits

/-- Of two elements of a list, the one that must not come second comes first. -/
theorem sublist_of_pairwise {α : Type} {r : α → α → Prop} {xs : List α} {a b : α} (h : xs.Pairwise r) (ha : a ∈ xs)
    (hb : b ∈ xs) (differ : a ≠ b) (never : ¬ r b a) : [a, b].Sublist xs := by
  obtain ⟨front, back, rfl⟩ := List.append_of_mem ha
  rcases List.mem_append.1 hb with hfront | hback
  · exact absurd ((List.pairwise_append.1 h).2.2 b hfront a List.mem_cons_self) never
  · have hmem : b ∈ back := (List.mem_cons.1 hback).resolve_left differ.symm
    exact ((List.singleton_sublist.2 hmem).cons_cons a).trans (List.sublist_append_right _ _)

/-- After any number of runs have been started, the listing of their base gives every folder with a log in it exactly
once and no other folder. Among them are all runs that something was added to the log of, and of two of these the one
that started in a later second comes first. A listing looks into every folder, which it can if there are only runs
there. -/
theorem runs_listed (sound : d.Sound) (proper : base.IsProper) (runs : Started base d made logged last)
    (dated : ∀ t ∈ made, t.IsDated) (years : ∀ t ∈ made, t.HasFourDigitYear) :
    (last.Listable base →
      ∃ found, (folders base : StateM Disk (Except StorageFault (List Path))).run last = (.ok found, last) ∧
        Lists last base found ∧ (∀ t ∈ logged, base.child t.runName ∈ found) ∧
        ∀ s ∈ logged, ∀ t ∈ logged, s.instant < t.instant →
          [base.child t.runName, base.child s.runName].Sublist found) ∧
      (logged ≠ [] → (∀ names, last.names base = .ok names → ∀ name ∈ names, ∃ t ∈ made, name = t.runName) →
        last.Listable base) := by
  have hlogs := runs.hasLog
  constructor
  · intro listable
    obtain ⟨found, hrun, hlists⟩ := folders_run (runs.sound sound proper) listable
    have hfound : ∀ t ∈ logged, base.child t.runName ∈ found :=
      fun t ht => (hlists.mem_iff _).2 ⟨_, t.runName_isName, rfl, (hlogs t ht).2⟩
    refine ⟨found, hrun, hlists, hfound, ?_⟩
    intro s hs t ht hlater
    have hmade := (hlogs s hs).1
    have hmade' := (hlogs t ht).1
    have hprecedes := (Moment.instant_lt_iff (dated s hmade) (dated t hmade')).1 hlater
    have hlt := Moment.runName_lt (years s hmade) (years t hmade') hprecedes
    refine sublist_of_pairwise hlists.sorted (hfound t ht) (hfound s hs) ?_ ?_
    · intro hsame
      exact hlt.ne' (t.runName_isName.child_inj s.runName_isName hsame)
    · rw [s.runName_isName.name_child, t.runName_isName.name_child]
      exact not_le_of_gt hlt
  · intro hsome honly
    obtain ⟨s, hs⟩ := List.exists_mem_of_ne_nil logged hsome
    exact listable_of_hasLog years (hlogs s hs).1 (hlogs s hs).2 honly

def yearsEnd : Moment := ⟨1999, 12, 31, 23, 59, 59, by decide, by decide, by decide, by decide, by decide⟩

def newYear : Moment := ⟨2000, 1, 1, 0, 0, 0, by decide, by decide, by decide, by decide, by decide⟩

def firstHour : Moment := ⟨2000, 1, 1, 1, 0, 0, by decide, by decide, by decide, by decide, by decide⟩

def replays : Path := ⟨"", ["replay"]⟩

/-- A disk on which runs are started at these moments, after some of the steps. -/
def turnOfYear (bytes : ByteArray) (steps : Nat) : Disk :=
  { here := []
    entries := [(["replay"], .directory), (["replay", "1999-12-31T23-59-59Z"], .directory),
      (["replay", "1999-12-31T23-59-59Z", "run.jsonl"], .file bytes), (["replay", "2000-01-01T01-00-00Z"], .directory),
      (["replay", "2000-01-01T00-00-00Z"], .directory),
      (["replay", "2000-01-01T00-00-00Z", "run.jsonl"], FileContent.file bytes)].take steps }

/-- The run that starts last has no log. -/
theorem started_turnOfYear (h : r.CanWrite) :
    Started replays (turnOfYear r.line.toUTF8 0) [newYear, firstHour, yearsEnd] [newYear, yearsEnd]
      (turnOfYear r.line.toUTF8 6) := by
  generalize hbytes : r.line.toUTF8 = bytes
  have hadd : ∀ (spot : Place) {d : Disk} {log : Path}, d.kind? log.parent = .ok (some .directory) →
      d.place log = .ok spot → d.content? spot = none →
      (add log r : StateM Disk (Except WriteFault Unit)).run d = (.ok (), d.put spot (.file bytes)) := by
    intro spot d log folder leads free
    rw [add_put folder leads (by simp [free]) h, hbytes, Disk.heldAt, free, ByteArray.empty_append]
  have hyearsEnd : Started replays (turnOfYear bytes 0) [yearsEnd] [] (turnOfYear bytes 2) :=
    .folder (turnOfYear bytes 0) yearsEnd (replays.child yearsEnd.runName) .none rfl
  have hyearsEnd : Started replays (turnOfYear bytes 0) [yearsEnd] [yearsEnd] (turnOfYear bytes 3) :=
    .log (turnOfYear bytes 2) yearsEnd r hyearsEnd List.mem_cons_self
      (hadd ["replay", "1999-12-31T23-59-59Z", "run.jsonl"] rfl rfl rfl)
  have hfirstHour : Started replays (turnOfYear bytes 0) [firstHour, yearsEnd] [yearsEnd] (turnOfYear bytes 4) :=
    .folder (turnOfYear bytes 3) firstHour (replays.child firstHour.runName) hyearsEnd rfl
  have hnewYear : Started replays (turnOfYear bytes 0) [newYear, firstHour, yearsEnd] [yearsEnd] (turnOfYear bytes 5) :=
    .folder (turnOfYear bytes 4) newYear (replays.child newYear.runName) hfirstHour rfl
  exact .log (turnOfYear bytes 5) newYear r hnewYear List.mem_cons_self
    (hadd ["replay", "2000-01-01T00-00-00Z", "run.jsonl"] rfl rfl rfl)

theorem runs_listed_turnOfYear :
    ∃ last found, Started replays emptyDisk [newYear, firstHour, yearsEnd] [newYear, yearsEnd] last ∧
      (folders replays : StateM Disk (Except StorageFault (List Path))).run last = (.ok found, last) ∧
      yearsEnd.instant < newYear.instant ∧
      [replays.child newYear.runName, replays.child yearsEnd.runName].Sublist found ∧
      replays.child firstHour.runName ∉ found := by
  have hwrite : (Record.header (.obj [])).CanWrite := canWrite_header (by decide) (by decide +kernel)
  have hstarted := started_turnOfYear hwrite
  generalize (Record.header (.obj [])).line.toUTF8 = bytes at hstarted
  have hlater : yearsEnd.instant < newYear.instant :=
    Moment.IsDated.instant_lt ⟨by decide, by decide⟩ (.inl (by decide))
  have hdated : ∀ t ∈ [newYear, firstHour, yearsEnd], t.IsDated := by
    simp only [List.forall_mem_cons]
    exact ⟨⟨by decide, by decide⟩, ⟨by decide, by decide⟩, ⟨by decide, by decide⟩, nofun⟩
  have hyears : ∀ t ∈ [newYear, firstHour, yearsEnd], t.HasFourDigitYear := by
    simp only [List.forall_mem_cons]
    exact ⟨⟨by decide, by decide⟩, ⟨by decide, by decide⟩, ⟨by decide, by decide⟩, nofun⟩
  have hsound : (turnOfYear bytes 0).Sound := ⟨.nil, nofun, nofun⟩
  have hproper : replays.IsProper := by
    intro name hname
    rw [List.mem_singleton.1 hname]
    exact .inr ⟨by decide, by decide, by decide, by decide⟩
  obtain ⟨hlists, hlistable⟩ := runs_listed hsound hproper hstarted hdated hyears
  have honly : ∀ names, (turnOfYear bytes 6).names replays = .ok names →
      ∀ name ∈ names, ∃ t ∈ [newYear, firstHour, yearsEnd], name = t.runName := by
    intro names hnames
    have heq : (turnOfYear bytes 6).names replays = .ok [yearsEnd.runName, firstHour.runName, newYear.runName] := rfl
    obtain rfl := Except.ok.inj (heq.symm.trans hnames)
    simp
  obtain ⟨found, hrun, hfound, -, hnewest⟩ := hlists (hlistable (List.cons_ne_nil _ _) honly)
  refine ⟨_, found, hstarted, hrun, hlater, ?_, ?_⟩
  · exact hnewest yearsEnd (by simp) newYear (by simp) hlater
  · intro hmem
    obtain ⟨name, -, -, kind, hkind⟩ := (hfound.mem_iff _).1 hmem
    have hnone : (turnOfYear bytes 6).kind? (inFolder (replays.child firstHour.runName)) = .ok none := rfl
    rw [hnone] at hkind
    cases hkind

end RunLog

end ScriptedRobot
