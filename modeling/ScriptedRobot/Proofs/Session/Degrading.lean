import Mathlib
import ScriptedRobot.Proofs.Session.Entering
import ScriptedRobot.Proofs.Session.Kinds
import ScriptedRobot.Proofs.Storage.Reading

/-!
# Files that cannot be used

A level refers to files that may be missing, may be directories, or may hold anything. `resources_degrade` says
what comes of that: an enemy whose pattern file does not name a kind bounces along its axis, an item whose file
cannot be read gives what an empty file would, and nothing fails. The exception is a file that is opened and
turns out not to be UTF-8, or a path with a null character: then the level cannot be entered.
-/

namespace ScriptedRobot

namespace Campaign

/-- The campaign's loader says what the disk says of every file that a level refers to. -/
def ReadsFrom (c : Campaign) (d : Disk) : Prop :=
  ∀ spec ∈ c.levels, ∀ p ∈ c.resources spec, c.loader p = d.loader p

variable {c : Campaign} {d : Disk}

theorem ReadsFrom.damaged_iff (h : c.ReadsFrom d) {spec : LevelSpec} (hspec : spec ∈ c.levels) {p : Path}
    (hp : p ∈ c.resources spec) : c.loader.Damaged p ↔ d.Damaged p := by
  rw [← Disk.loader_damaged_iff, Loader.Damaged, Loader.Damaged, Loader.faultAt?, Loader.faultAt?, h spec hspec p hp]

/-- A loader that asks the disk for every file reads from it. -/
theorem readsFrom_loader (levels : List LevelSpec) (d : Disk) (root : Option Path) :
    ReadsFrom ⟨levels, d.loader, root⟩ d := fun _ _ _ _ => rfl

/-- So does the loader for which all files are read in advance. -/
theorem readsFrom_readResources (root : Path) (levels : List LevelSpec) (w : World) :
    ReadsFrom ⟨levels, ((Program.readResources root levels : StateM World Loader).run w).1, some root⟩ w.disk := by
  intro spec hspec p hp
  apply Program.readResources_loader hspec
  unfold Program.resourcesOf
  rw [List.map_append, List.mem_append]
  rcases List.mem_append.1 hp with hp | hp
  · right
    obtain ⟨enemy, henemy, hfile⟩ := List.mem_filterMap.1 hp
    obtain ⟨q, hq, rfl⟩ := Option.map_eq_some_iff.1 hfile
    obtain ⟨pattern, hpattern, hpath⟩ := Option.bind_eq_some_iff.1 hq
    exact List.mem_map_of_mem
      (List.mem_filterMap.2 ⟨pattern, List.mem_filterMap.2 ⟨enemy, henemy, hpattern⟩, hpath⟩)
  · left
    obtain ⟨item, hitem, hfile⟩ := List.mem_filterMap.1 hp
    obtain ⟨file, hq, rfl⟩ := Option.map_eq_some_iff.1 hfile
    obtain ⟨hname, hne⟩ := Option.filter_eq_some_iff.1 hq
    have hmem : file ∈ (spec.items.filterMap (·.file)).filter (· ≠ "") :=
      List.mem_filter.2 ⟨List.mem_filterMap.2 ⟨item, hitem, hname⟩, hne⟩
    exact List.mem_map_of_mem (List.mem_map_of_mem hmem)

variable {σ : Type} [WordSource σ]

theorem ReadsFrom.enter_succeeds_iff (h : c.ReadsFrom d) {index : Int} {spec : LevelSpec}
    (hspec : c.level? index = some spec) (progress : Option Robot) (credits : Int) (g : σ) :
    (∃ play, (c.enter index progress credits g).1 = .ok play) ↔
      ∀ p ∈ c.filesRead ((Robot.carrying spec.start progress).hasItem Item.scannerName) spec, ¬ d.Damaged p := by
  rw [Campaign.enter_succeeds_iff hspec progress credits g]
  have hsame : ∀ p ∈ c.filesRead ((Robot.carrying spec.start progress).hasItem Item.scannerName) spec,
      (c.loader.Damaged p ↔ d.Damaged p) :=
    fun p hp => h.damaged_iff (mem_of_level? hspec) (c.filesRead_subset _ _ hp)
  exact forall₂_congr fun p hp => not_congr (hsame p hp)

end Campaign

namespace Session

variable {σ : Type} {d : Disk} {levels : List LevelSpec} {root : Option Path}

/-! ## Where the enemies and items of a board come from -/

/-- The listed enemies are on the board, apart from where they stand by now, and the items are those of the
entry, some of them collected. -/
structure Placed (s : Session σ) : Prop where
  enemies : ∃ more, s.play.board.enemies.map Enemy.identity = s.play.entry.enemies.map Enemy.identity ++ more
  items : List.Forall₂ Item.Becomes s.play.entry.items s.play.items.items

theorem Placed.of_play {s t : Session σ} (h : s.Placed) (play : t.play = s.play) : t.Placed := by
  refine ⟨?_, ?_⟩
  · rw [play]
    exact h.enemies
  · rw [play]
    exact h.items

theorem Placed.progress {s t : Session σ} (h : s.Placed) (k : Progress s t) : t.Placed := by
  refine ⟨?_, ?_⟩
  · rw [k.entry, k.board.enemies]
    exact h.enemies
  · rw [k.entry]
    exact Item.becomes_trans h.items k.items

/-- The session plays these levels, with files that say what the disk says, from an entry that they prepare. -/
structure OnDisk (d : Disk) (levels : List LevelSpec) (root : Option Path) (s : Session σ) : Prop where
  levels : s.campaign.levels = levels
  root : s.campaign.root = root
  reads : s.campaign.ReadsFrom d
  entry : s.play.entry.Prepared s.campaign
  placed : s.Placed

theorem OnDisk.of_play {s t : Session σ} (h : s.OnDisk d levels root) (campaign : t.campaign = s.campaign)
    (play : t.play = s.play) : t.OnDisk d levels root := by
  refine ⟨?_, ?_, ?_, ?_, h.placed.of_play play⟩
  · rw [campaign, h.levels]
  · rw [campaign, h.root]
  · rw [campaign]
    exact h.reads
  · rw [campaign, play]
    exact h.entry

theorem OnDisk.progress {s t : Session σ} (h : s.OnDisk d levels root) (k : Progress s t) :
    t.OnDisk d levels root := by
  refine ⟨?_, ?_, ?_, ?_, h.placed.progress k⟩
  · rw [k.campaign, h.levels]
  · rw [k.campaign, h.root]
  · rw [k.campaign]
    exact h.reads
  · rw [k.campaign, k.entry]
    exact h.entry

/-- Files that say what they said leave the level as it is being played. -/
theorem OnDisk.reread {s : Session σ} (h : s.OnDisk d levels root) {load : Loader}
    (reads : { s.campaign with loader := load }.ReadsFrom d) : (s.withLoader load).OnDisk d levels root := by
  have hspec : s.play.entry.spec ∈ s.campaign.levels := Campaign.mem_of_level? h.entry.level
  have hsame : ∀ p ∈ s.campaign.resources s.play.entry.spec, s.campaign.loader p = load p := fun p hp =>
    (h.reads _ hspec p hp).trans (reads _ hspec p hp).symm
  obtain ⟨hprepared, hrefresh⟩ := h.entry.reread hsame
  have hplay : (s.withLoader load).play = s.play := by
    simp only [withLoader, onPlay, hrefresh]
  refine ⟨h.levels, h.root, reads, ?_, h.placed.of_play hplay⟩
  rw [hplay]
  exact hprepared

theorem OnDisk.enemies_bounce {s : Session σ} (h : s.OnDisk d levels root) {i : Nat} {spec : EnemySpec} {p : Path}
    (listed : s.spec.enemies[i]? = some spec) (file : spec.file? s.campaign.root = some p)
    (unusable : ∀ content, d.text p = .ok content → Pattern.kindOf? content.toList = none) :
    (∃ e, s.play.entry.enemies[i]? = some e ∧ e.strategy = spec.axis.kind.start spec.positive) ∧
      ∃ e, s.play.board.enemies[i]? = some e ∧ e.strategy.tag = spec.axis.name := by
  have hloader : s.campaign.loader p = d.loader p := by
    refine h.reads _ (Campaign.mem_of_level? h.entry.level) p (List.mem_append_left _ ?_)
    exact List.mem_filterMap.2 ⟨spec, List.mem_of_getElem? listed, file⟩
  have hkind : spec.kind? s.campaign.loader s.campaign.root = none := by
    rw [EnemySpec.kind?_of_file file, Loader.kindAt?, hloader, Disk.loader]
    cases htext : d.text p with
    | error fault => rfl
    | ok content => exact unusable content htext
  have hentry : s.play.entry.enemies[i]? = some (spec.enemy s.campaign.loader s.campaign.root) := by
    have hspec : s.play.entry.spec.enemies[i]? = some spec := listed
    rw [h.entry.enemies_eq, List.getElem?_map, hspec]
    rfl
  have hstrategy : (spec.enemy s.campaign.loader s.campaign.root).strategy = spec.axis.kind.start spec.positive := by
    rw [EnemySpec.enemy, hkind]
    rfl
  refine ⟨⟨_, hentry, hstrategy⟩, ?_⟩
  obtain ⟨more, hboard⟩ := h.placed.enemies
  have hidentity : (s.play.board.enemies.map Enemy.identity)[i]? =
      some (spec.enemy s.campaign.loader s.campaign.root).identity := by
    have hmap : (s.play.entry.enemies.map Enemy.identity)[i]? = some _ :=
      List.getElem?_map.trans (congrArg (Option.map Enemy.identity) hentry)
    rw [hboard, List.getElem?_append_left (List.getElem?_eq_some_iff.1 hmap).1, hmap]
  rw [List.getElem?_map] at hidentity
  obtain ⟨e, he, hsame⟩ := Option.map_eq_some_iff.1 hidentity
  have htag : e.strategy.tag = (spec.enemy s.campaign.loader s.campaign.root).strategy.tag :=
    congrArg (·.2.2) hsame
  refine ⟨e, he, ?_⟩
  rw [htag, hstrategy, StrategyKind.tag_start]
  rfl

theorem OnDisk.items_plain {s : Session σ} (h : s.OnDisk d levels root) {spec : ItemSpec} {p : Path}
    {place : Position} (listed : spec ∈ s.spec.items)
    (placed : spec.place? (s.play.entry.robot.hasItem Item.scannerName) = some place)
    (file : spec.file? s.campaign.root = some p) (unreadable : ∀ content, d.text p ≠ .ok content) :
    ∃ i ∈ s.play.items.items, i.name = spec.name ∧ i.position = place ∧
      i.capabilities = ({} : Capabilities).override spec.overrides := by
  have hloader : s.campaign.loader p = d.loader p := by
    refine h.reads _ (Campaign.mem_of_level? h.entry.level) p (List.mem_append_right _ ?_)
    exact List.mem_filterMap.2 ⟨spec, listed, file⟩
  have hcapabilities : spec.capabilities s.campaign.loader s.campaign.root =
      ({} : Capabilities).override spec.overrides := by
    unfold ItemSpec.capabilities Loader.capabilitiesAt
    rw [file, Option.elim_some, hloader, Disk.loader]
    cases htext : d.text p with
    | error fault => rfl
    | ok content => exact absurd htext (unreadable content)
  have hentry : (⟨spec.name, place, ({} : Capabilities).override spec.overrides, false⟩ : Item) ∈
      s.play.entry.items := by
    rw [h.entry.items_eq]
    refine List.mem_filterMap.2 ⟨spec, listed, ?_⟩
    rw [ItemSpec.item?, placed, hcapabilities]
    rfl
  obtain ⟨n, hn, hget⟩ := List.mem_iff_getElem.1 hentry
  have hlength := List.Forall₂.length_eq h.placed.items
  have hbecomes : s.play.entry.items[n].Becomes s.play.items.items[n] := List.Forall₂.get h.placed.items hn _
  rw [hget] at hbecomes
  refine ⟨s.play.items.items[n], List.getElem_mem _, ?_⟩
  rcases hbecomes with he | he <;> rw [he] <;> exact ⟨rfl, rfl, rfl⟩

variable [WordSource σ]

theorem placed_of_begin {s : Session σ} {g : σ} (h : s.play = (s.play.entry.begin g).1) : s.Placed := by
  obtain ⟨new, hnew, -⟩ := s.play.entry.begin_enemies g
  refine ⟨⟨new.map Enemy.identity, ?_⟩, ?_⟩
  · rw [← List.map_append, ← hnew]
    exact congrArg (fun p : Play => p.board.enemies.map Enemy.identity) h
  · have hitems : s.play.items = ⟨s.play.entry.items⟩ := congrArg Play.items h
    rw [hitems]
    exact List.forall₂_same.2 fun _ _ => .inl rfl

/-- A level that begins from a prepared entry of the same campaign is on the same disk. -/
theorem OnDisk.begins {s t : Session σ} {g : σ} (h : s.OnDisk d levels root) (campaign : t.campaign = s.campaign)
    (entry : t.play.entry.Prepared t.campaign) (begun : t.play = (t.play.entry.begin g).1) :
    t.OnDisk d levels root := by
  refine ⟨?_, ?_, ?_, entry, placed_of_begin begun⟩
  · rw [campaign, h.levels]
  · rw [campaign, h.root]
  · rw [campaign]
    exact h.reads

theorem OnDisk.execute {s : Session σ} (h : s.OnDisk d levels root) (c : Command) :
    (s.execute c).1.OnDisk d levels root := by
  have hapart : s.apart.OnDisk d levels root := h.of_play rfl rfl
  have heffect := execute_effect s c
  generalize s.execute c = outcome at heffect ⊢
  cases heffect with
  | refused _ => exact hapart.of_play rfl rfl
  | failed _ load =>
    obtain ⟨hcampaign, -, hplay⟩ := load_error load
    exact hapart.of_play hcampaign hplay
  | @entered i t r _ load =>
    obtain ⟨hcampaign, -, hprepared, -, -, hbegun⟩ := load_ok load
    have ht := hapart.begins hcampaign hprepared hbegun
    exact (ht.progress (checkCompletion_steps t).progress).of_play rfl rfl
  | @settled t r _ _ steps =>
    have ht := hapart.progress steps.steps.progress
    exact (ht.progress (checkCompletion_steps t).progress).of_play rfl rfl
  | @met t u _ _ steps met =>
    have hu := (hapart.progress steps.steps.progress).progress met.progress
    exact hu.begins (g := u.rng) rfl hu.entry rfl

/-! ## Sessions on a disk -/

/-- The sessions that a list of levels can lead to while the files stay as they are on a disk. -/
inductive Played (d : Disk) (levels : List LevelSpec) (root : Option Path) : Session σ → Prop where
  /-- A session starts. -/
  | start {c : Campaign} {g : σ} {index : Int} {s : Session σ} (own : c.levels = levels) (here : c.root = root)
      (reads : c.ReadsFrom d) (starts : (start c g index).1 = .ok s) : Played d levels root s
  /-- A command is executed. -/
  | command {s : Session σ} (h : Played d levels root s) (c : Command) : Played d levels root (s.execute c).1
  /-- The files of the level are read once more. -/
  | reread {s : Session σ} (h : Played d levels root s) {load : Loader}
      (reads : { s.campaign with loader := load }.ReadsFrom d) : Played d levels root (s.withLoader load)
  /-- Only what is recorded about the session changes. -/
  | records {s t : Session σ} (h : Played d levels root s) (campaign : t.campaign = s.campaign)
      (play : t.play = s.play) (credits : t.credits = s.credits) : Played d levels root t

theorem Played.onDisk {s : Session σ} (h : Played d levels root s) : s.OnDisk d levels root := by
  induction h with
  | start own here reads starts =>
    obtain ⟨hcampaign, hprepared, -, -, hbegun⟩ := start_ok starts
    refine ⟨?_, ?_, ?_, ?_, placed_of_begin hbegun⟩
    · rw [hcampaign, own]
    · rw [hcampaign, here]
    · rw [hcampaign]
      exact reads
    · rw [hcampaign]
      exact hprepared
  | command _ c ih => exact ih.execute c
  | reread _ reads ih => exact ih.reread reads
  | records _ campaign play _ ih => exact ih.of_play campaign play

/-- What comes of the files on a disk in a session. -/
structure Degrades (d : Disk) (s : Session σ) : Prop where
  /-- A command is answered, unless it goes to a level for which a damaged file is read. -/
  answers : ∀ c : Command, (∃ t r, s.execute c = (t, .ok r)) ↔
    ∀ i spec, s.destination? c = some i → s.campaign.level? i = some spec →
      ∀ p ∈ s.campaign.filesRead (s.play.robot.hasItem Item.scannerName) spec, ¬ d.Damaged p
  /-- The level that a command goes to is one that there is. -/
  goes : ∀ {c : Command} {i : Int}, s.destination? c = some i → s.campaign.HasLevel i
  /-- A reset enters the level once more, files and all, as it was entered. -/
  resets : ∀ g : σ, s.campaign.enter s.level (some s.play.entry.robot) s.play.entry.credits g =
    (.ok (s.play.entry.begin g).1, (s.play.entry.begin g).2)
  /-- An enemy whose pattern file cannot be read, or does not name a kind, starts to bounce along its axis and
  never does anything else. -/
  enemies : ∀ {i : Nat} {spec : EnemySpec} {p : Path}, s.spec.enemies[i]? = some spec →
    spec.file? s.campaign.root = some p →
    (∀ content, d.text p = .ok content → Pattern.kindOf? content.toList = none) →
      (∃ e, s.play.entry.enemies[i]? = some e ∧ e.strategy = spec.axis.kind.start spec.positive) ∧
        ∃ e, s.play.board.enemies[i]? = some e ∧ e.strategy.tag = spec.axis.name
  /-- An item whose file cannot be read gives what an empty file would, and what the level overrides. -/
  items : ∀ {spec : ItemSpec} {p : Path} {place : Position}, spec ∈ s.spec.items →
    spec.place? (s.play.entry.robot.hasItem Item.scannerName) = some place →
    spec.file? s.campaign.root = some p → (∀ content, d.text p ≠ .ok content) →
      ∃ i ∈ s.play.items.items, i.name = spec.name ∧ i.position = place ∧
        i.capabilities = ({} : Capabilities).override spec.overrides

theorem OnDisk.degrades {s : Session σ} (h : s.OnDisk d levels root) : s.Degrades d where
  answers c := by
    have hhere : s.campaign.HasLevel s.level := Campaign.level?_eq_some_iff.1 ⟨_, h.entry.level⟩
    have hcarry : ∀ spec : LevelSpec, (Robot.carrying spec.start (some s.play.robot)).hasItem Item.scannerName =
        s.play.robot.hasItem Item.scannerName := fun _ => rfl
    rw [execute_succeeds_iff]
    constructor
    · intro henters i spec goes hspec
      have hintact := (h.reads.enter_succeeds_iff hspec _ _ _).1 (henters i goes)
      rwa [hcarry] at hintact
    · intro hintact i goes
      obtain ⟨spec, hspec⟩ := Campaign.level?_eq_some_iff.2 (hasLevel_of_destination hhere goes)
      refine (h.reads.enter_succeeds_iff hspec _ _ _).2 ?_
      rw [hcarry]
      exact hintact i spec goes hspec
  goes hd := hasLevel_of_destination (Campaign.level?_eq_some_iff.1 ⟨_, h.entry.level⟩) hd
  resets g := h.entry.enter g
  enemies listed file unusable := h.enemies_bounce listed file unusable
  items listed placed file unreadable := h.items_plain listed placed file unreadable

/-- Whatever the files on a disk are, a level is started on exactly if no file that is read for it is damaged, and
in every session that plays on from there files that cannot be used are done without. -/
theorem resources_degrade (d : Disk) (levels : List LevelSpec) (root : Option Path) :
    (∀ {c : Campaign}, c.ReadsFrom d → ∀ {index : Int} {spec : LevelSpec}, c.level? index = some spec → ∀ g : σ,
      ((∃ s, (start c g index).1 = .ok s) ↔ ∀ p ∈ c.filesRead false spec, ¬ d.Damaged p)) ∧
      ∀ s : Session σ, Played d levels root s → s.Degrades d := by
  refine ⟨?_, fun s h => h.onDisk.degrades⟩
  intro c reads index spec hspec g
  have hfresh : (Robot.carrying spec.start none).hasItem Item.scannerName = false := rfl
  have henter := reads.enter_succeeds_iff hspec none 0 g
  rw [hfresh] at henter
  exact (start_succeeds_iff (Campaign.level?_eq_some_iff.1 ⟨spec, hspec⟩) g).trans henter

/-! ### A yard whose files are gone or damaged -/

/-- A yard with an enemy and a coin that have files. -/
def yard : LevelSpec where
  name := "Yard"
  width := 4
  height := 3
  start := ⟨0, 0⟩
  enemies := [{ position := ⟨3, 2⟩, pattern := some "file:patterns/p.txt" }]
  items := [{ name := "coin", position := some ⟨0, 1⟩, file := some "items/coin.rs" }]
  width_pos := four_pos
  height_pos := courtyard.width_pos
  placed_inside := by decide

/-- A disk without the files of the yard, with a directory where one of them should be. -/
def bareDisk : Disk where
  here := []
  entries := [(["patterns"], .directory), (["patterns", "p.txt"], .directory)]

/-- A disk where the pattern file is a byte that is no text. -/
def damagedDisk : Disk where
  here := []
  entries := [(["patterns"], .directory), (["patterns", "p.txt"], .file ⟨#[0xff]⟩)]

/-- The yard on a disk. -/
def yardOn (d : Disk) : Campaign := ⟨[yard], d.loader, some (.ofString ".")⟩

/-- A source of random numbers. -/
def someNumbers : Random.Twister := ⟨Vector.replicate _ 0, 0⟩

theorem bareDisk_intact (p : Path) (h : p ∈ (yardOn bareDisk).filesRead false yard) : ¬ bareDisk.Damaged p := by
  have hfiles : (yardOn bareDisk).filesRead false yard =
      [⟨"", ["patterns", "p.txt"]⟩, ⟨"", ["items", "coin.rs"]⟩] := rfl
  rw [hfiles] at h
  rw [← Disk.loader_damaged_iff]
  rcases List.mem_cons.1 h with rfl | h
  · decide
  · rw [List.mem_singleton.1 h]
    decide

theorem resources_degrade_yard :
    (yardOn bareDisk).ReadsFrom bareDisk ∧ (yardOn bareDisk).level? 0 = some yard ∧
      ∃ s, (start (yardOn bareDisk) someNumbers 0).1 = .ok s ∧ s.Degrades bareDisk := by
  have reads : (yardOn bareDisk).ReadsFrom bareDisk := Campaign.readsFrom_loader _ _ _
  have hyard : (yardOn bareDisk).level? 0 = some yard := rfl
  obtain ⟨starts, degrades⟩ := resources_degrade (σ := Random.Twister) bareDisk [yard] (some (.ofString "."))
  obtain ⟨s, hs⟩ := (starts reads hyard someNumbers).2 bareDisk_intact
  exact ⟨reads, hyard, s, hs, degrades s (.start rfl rfl reads hs)⟩

/-- A pattern file that is no text does not leave its enemy to bounce: the level is not entered at all. -/
theorem yard_unstarted : (start (yardOn damagedDisk) someNumbers 0).1 =
    .error (.entry (.resource .undecodable)) := rfl

end Session

end ScriptedRobot
