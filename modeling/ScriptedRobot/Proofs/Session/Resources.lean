import ScriptedRobot.Proofs.Session.Entry
import ScriptedRobot.Proofs.Text.Numerals

/-!
# What the files of a level decide

A level refers to files in two places: an enemy may name its strategy in one, an item may list its
capabilities in one. `EnemySpec.enemy` and `ItemSpec.item?` say what comes of each. A file that is missing
counts as one that says nothing. Only a file that is `Damaged` keeps a level from being entered: the files are
read one after the other, and entering fails with what goes wrong first (`Campaign.enter_fails`). So a level is
entered exactly if none of the files read for it is damaged (`Campaign.enter_succeeds_iff`).
-/

namespace ScriptedRobot

open Log.Noting

namespace Loader

/-- What goes wrong with reading a file. That it is not available does not count. -/
def faultAt? (load : Loader) (p : Path) : Option ReadFailure :=
  match load p with
  | .ok _ => none
  | .error (.unavailable _) => none
  | .error failure => some failure

/-- Reading the file goes wrong: there is a file but no text in it, or there cannot be a file at such a path, or the
loader gives up. -/
def Damaged (load : Loader) (p : Path) : Prop := (load.faultAt? p).isSome = true

instance (load : Loader) (p : Path) : Decidable (load.Damaged p) :=
  inferInstanceAs (Decidable ((load.faultAt? p).isSome = true))

/-- What goes wrong first when some files are read one after the other. -/
def fault? (load : Loader) (ps : List Path) : Option ReadFailure := ps.findSome? load.faultAt?

theorem fault?_eq_none_iff {load : Loader} {ps : List Path} :
    load.fault? ps = none ↔ ∀ p ∈ ps, ¬ load.Damaged p := by
  simp [fault?, Damaged]

theorem fault?_append (load : Loader) (ps qs : List Path) :
    load.fault? (ps ++ qs) = (load.fault? ps).or (load.fault? qs) := List.findSome?_append

theorem fault?_filterMap_cons {α : Type} (load : Loader) (file? : α → Option Path) (a : α) (as : List α) :
    load.fault? ((a :: as).filterMap file?) = ((file? a).bind load.faultAt?).or (load.fault? (as.filterMap file?)) := by
  unfold fault?
  cases hfile : file? a with
  | none => rw [List.filterMap_cons_none hfile, Option.bind_none, Option.none_or]
  | some p =>
    rw [List.filterMap_cons_some hfile, List.findSome?_cons, Option.bind_some]
    cases load.faultAt? p <;> rfl

/-- The kind of strategy that a pattern file names, if its text can be had and names one. -/
def kindAt? (load : Loader) (p : Path) : Option StrategyKind :=
  (load p).toOption.bind fun content => Pattern.kindOf? content.toList

/-- The capabilities that an item file lists. A file whose text cannot be had counts as an empty one. -/
def capabilitiesAt (load : Loader) (p : Path) : Capabilities :=
  ((load p).toOption.map fun content => (Capabilities.read content.toList).1).getD {}

end Loader

theorem forall_mem_filterMap_cons {α β : Type} {f : α → Option β} {P : β → Prop} {a : α} {as : List α} :
    (∀ b ∈ (a :: as).filterMap f, P b) ↔ (∀ b ∈ f a, P b) ∧ ∀ b ∈ as.filterMap f, P b := by
  cases h : f a with
  | none => simp [h]
  | some b => simp [h]

/-! ## What a level says -/

/-- The file that the pattern of an enemy names. -/
def EnemySpec.file? (root : Option Path) (spec : EnemySpec) : Option Path :=
  (spec.pattern.bind PatternRegistry.filePath?).map (resourcePath root)

/-- The kind of strategy that the pattern of an enemy names, in a file or by itself. -/
def EnemySpec.kind? (load : Loader) (root : Option Path) (spec : EnemySpec) : Option StrategyKind :=
  match spec.file? root with
  | some p => load.kindAt? p
  | none => spec.pattern.bind StrategyKind.ofName?

theorem EnemySpec.kind?_of_file {load : Loader} {root : Option Path} {spec : EnemySpec} {p : Path}
    (h : spec.file? root = some p) : spec.kind? load root = load.kindAt? p := by
  rw [EnemySpec.kind?, h]

/-- The enemy that a level describes. Without a usable pattern it bounces along its axis. -/
def EnemySpec.enemy (load : Loader) (root : Option Path) (spec : EnemySpec) : Enemy :=
  ⟨spec.position, spec.axis, spec.positive, spec.pattern,
    ((spec.kind? load root).getD spec.axis.kind).start spec.positive⟩

/-- The file that lists the capabilities of an item. -/
def ItemSpec.file? (root : Option Path) (spec : ItemSpec) : Option Path :=
  (spec.file.filter (· ≠ "")).map fun file => resourcePath root (.ofString file)

/-- What an item gives: what its file lists, or else what is usual for its name, with what the level
overrides. -/
def ItemSpec.capabilities (load : Loader) (root : Option Path) (spec : ItemSpec) : Capabilities :=
  ((spec.file? root).elim (Capabilities.standard spec.name) load.capabilitiesAt).override spec.overrides

/-- Where an item is placed, if it is. A robot that carries a scanner finds no other. -/
def ItemSpec.place? (hasScanner : Bool) (spec : ItemSpec) : Option Position :=
  if spec.name = Item.scannerName ∧ hasScanner then none else spec.position

/-- The file that is read to place an item. -/
def ItemSpec.fileRead? (root : Option Path) (hasScanner : Bool) (spec : ItemSpec) : Option Path :=
  (spec.place? hasScanner).bind fun _ => spec.file? root

/-- The item that a level describes, if it is placed. -/
def ItemSpec.item? (load : Loader) (root : Option Path) (hasScanner : Bool) (spec : ItemSpec) : Option Item :=
  (spec.place? hasScanner).map fun place => ⟨spec.name, place, spec.capabilities load root, false⟩

/-! ## Enemies and their pattern files -/

namespace PatternRegistry

theorem key_inj {i j : Nat} (h : key i = key j) : i = j := by
  have hkey : ∀ n : Nat, (key n).toList = "custom_".toList ++ Nat.toDigits 10 n := by
    intro n
    have hrepr : key n = "custom_" ++ n.repr := rfl
    rw [hrepr, String.toList_append, Nat.repr_eq_ofList_toDigits]
    exact congrArg _ String.toList_ofList
  have hdigits : Nat.toDigits 10 i = Nat.toDigits 10 j := by
    apply (List.append_right_inj "custom_".toList).1
    rw [← hkey, ← hkey, h]
  rw [← Text.decimal_toDigits i, hdigits, Text.decimal_toDigits]

theorem get?_register (r : PatternRegistry) (key other : String) (kind : StrategyKind) :
    (r.register key kind).get? other = if other = key then some kind else r.get? other := by
  have hfilter : ∀ entries : List (String × StrategyKind), other ≠ key →
      (entries.filter fun e => e.1 != key).lookup other = entries.lookup other := by
    intro entries hne
    induction entries with
    | nil => rfl
    | cons e entries ih =>
      by_cases he : e.1 = key
      · have hother : (other == e.1) = false := by simpa [he] using hne
        rw [List.filter_cons_of_neg (by simp [he]), ih, List.lookup_cons, hother]
      · rw [List.filter_cons_of_pos (by simp [he]), List.lookup_cons, List.lookup_cons, ih]
  unfold get? register
  rw [List.lookup_cons]
  by_cases h : other = key
  · rw [if_pos h, h, beq_self_eq_true]
  · have hother : (other == key) = false := beq_false_of_ne h
    rw [if_neg h, hfilter _ h, hother]

/-- A pattern that names a file names the kind that is registered for its enemy. -/
theorem kindFor_fst (r : PatternRegistry) (i : Int) (pattern : Option String) :
    (r.kindFor i pattern).1 = match pattern.bind filePath? with
      | some _ => r.get? (key i)
      | none => pattern.bind StrategyKind.ofName? := by
  cases pattern with
  | none => rfl
  | some pattern =>
    unfold kindFor
    simp only [Option.bind_some]
    cases filePath? pattern with
    | some p => rfl
    | none =>
      simp only [Option.isSome_none, Bool.false_eq_true, if_false]
      cases StrategyKind.ofName? pattern <;> rfl

/-- Nothing is registered for the enemies from an index on. -/
def FreeFrom (r : PatternRegistry) (i : Nat) : Prop := ∀ j : Nat, i ≤ j → r.get? (key j) = none

theorem freeFrom_empty : ({} : PatternRegistry).FreeFrom 0 := fun _ _ => rfl

theorem FreeFrom.register {r : PatternRegistry} {i : Nat} (h : r.FreeFrom i) (kind : StrategyKind) :
    (r.register (key i) kind).FreeFrom (i + 1) := by
  intro j hj
  have hne : key j ≠ key i := fun he => by
    have := key_inj he
    omega
  rw [get?_register, if_neg hne]
  exact h j (by omega)

theorem FreeFrom.succ {r : PatternRegistry} {i : Nat} (h : r.FreeFrom i) : r.FreeFrom (i + 1) :=
  fun j hj => h j (by omega)

variable {load : Loader}

/-- What is registered after a pattern file has been looked at: the kind that it names, if it names one. -/
theorem load_spec {r r' : PatternRegistry} {key : String} {p : Path} {named : Bool}
    (h : (r.load load key p).Yields (named, r')) : r' = ((load.kindAt? p).map (r.register key)).getD r := by
  unfold PatternRegistry.load at h
  unfold Loader.kindAt?
  split at h
  · rename_i reason he
    obtain ⟨_, -, h⟩ := yields_bind h
    cases yields_pure h
    simp [he, Except.toOption]
  · obtain ⟨before, after, h⟩ := h
    cases h
  · rename_i content he
    split at h
    · rename_i kind hkind
      cases yields_pure h
      simp [he, Except.toOption, hkind]
    · rename_i hkind
      obtain ⟨_, -, h⟩ := yields_bind h
      cases yields_pure h
      simp [he, Except.toOption, hkind]

theorem load_fails (r : PatternRegistry) (key : String) (p : Path) :
    (r.load load key p).FailsWith (load.faultAt? p) := by
  unfold PatternRegistry.load Loader.faultAt?
  cases load p with
  | error failure =>
    cases failure with
    | unavailable reason => exact failsWith_then (failsWith_note _) fun _ => failsWith_pure _
    | _ => exact failsWith_throw _
  | ok content =>
    simp only
    split
    · exact failsWith_pure _
    · exact failsWith_then (failsWith_note _) fun _ => failsWith_pure _

end PatternRegistry

namespace Board

variable {load : Loader} {root : Option Path}

/-- A listed enemy is the one that its description and its file say. -/
theorem enemyOf_enemy {i : Nat} {spec : EnemySpec} {r r' : PatternRegistry} {e : Enemy} (free : r.FreeFrom i)
    (h : (enemyOf load root i spec r).Yields (e, r')) :
    e = spec.enemy load root ∧ r'.FreeFrom (i + 1) := by
  unfold enemyOf at h
  unfold EnemySpec.enemy EnemySpec.kind? EnemySpec.file?
  cases hfile : spec.pattern.bind PatternRegistry.filePath? with
  | none =>
    simp only [hfile] at h
    obtain ⟨_, hr, h⟩ := yields_bind h
    cases yields_pure hr
    obtain ⟨_, -, h⟩ := yields_bind h
    cases yields_pure h
    refine ⟨?_, free.succ⟩
    simp only [PatternRegistry.resolve, PatternRegistry.kindFor_fst, hfile, Option.map_none]
  | some p =>
    simp only [hfile] at h
    obtain ⟨⟨named, r₁⟩, hload, h⟩ := yields_bind h
    obtain ⟨_, hr, h⟩ := yields_bind h
    cases yields_pure hr
    obtain ⟨_, -, h⟩ := yields_bind h
    cases yields_pure h
    obtain rfl := PatternRegistry.load_spec hload
    refine ⟨?_, ?_⟩
    · simp only [PatternRegistry.resolve, PatternRegistry.kindFor_fst, hfile, Option.map_some]
      cases load.kindAt? (resourcePath root p) with
      | none => simp [free i (Nat.le_refl i)]
      | some kind => simp [PatternRegistry.get?_register]
    · cases load.kindAt? (resourcePath root p) with
      | none => exact free.succ
      | some kind => exact free.register kind

theorem enemyOf_fails (i : Nat) (spec : EnemySpec) (r : PatternRegistry) :
    (enemyOf load root i spec r).FailsWith ((spec.file? root).bind load.faultAt?) := by
  unfold enemyOf EnemySpec.file?
  cases spec.pattern.bind PatternRegistry.filePath? with
  | none =>
    exact failsWith_bind (failsWith_pure _) fun _ => failsWith_then (failsWith_note _) fun _ => failsWith_pure _
  | some p =>
    refine failsWith_then (PatternRegistry.load_fails r _ _) fun _ => ?_
    exact failsWith_bind (failsWith_pure _) fun _ => failsWith_then (failsWith_note _) fun _ => failsWith_pure _

theorem enemyOf_congr {load' : Loader} {spec : EnemySpec} (h : ∀ p ∈ spec.file? root, load p = load' p)
    (i : Nat) (r : PatternRegistry) : enemyOf load root i spec r = enemyOf load' root i spec r := by
  unfold enemyOf
  unfold EnemySpec.file? at h
  cases hfile : spec.pattern.bind PatternRegistry.filePath? with
  | none => rfl
  | some p =>
    have same : load (resourcePath root p) = load' (resourcePath root p) := h _ (by rw [hfile]; rfl)
    simp only [PatternRegistry.load, same]

/-- The listed enemies are those that their descriptions and their files say. -/
theorem enemiesFrom_enemies {i : Nat} {specs : List EnemySpec} {r r' : PatternRegistry} {enemies : List Enemy}
    (free : r.FreeFrom i) (h : (enemiesFrom load root i specs r).Yields (enemies, r')) :
    enemies = specs.map (·.enemy load root) := by
  induction specs generalizing i r enemies with
  | nil =>
    cases yields_pure h
    rfl
  | cons spec specs ih =>
    unfold enemiesFrom at h
    obtain ⟨⟨e, r₁⟩, he, h⟩ := yields_bind h
    obtain ⟨⟨es, r₂⟩, hes, h⟩ := yields_bind h
    cases yields_pure h
    obtain ⟨rfl, free⟩ := enemyOf_enemy free he
    obtain rfl := ih free hes
    rfl

theorem enemiesFrom_fails (load : Loader) (root : Option Path) (i : Nat) (specs : List EnemySpec)
    (r : PatternRegistry) :
    (enemiesFrom load root i specs r).FailsWith (load.fault? (specs.filterMap (·.file? root))) := by
  induction specs generalizing i r with
  | nil => exact failsWith_pure _
  | cons spec specs ih =>
    rw [Loader.fault?_filterMap_cons]
    unfold enemiesFrom
    exact failsWith_bind (enemyOf_fails i spec r) fun _ => failsWith_then (ih _ _) fun _ => failsWith_pure _

theorem enemiesFrom_congr {load' : Loader} {specs : List EnemySpec}
    (h : ∀ p ∈ specs.filterMap (·.file? root), load p = load' p) (i : Nat) (r : PatternRegistry) :
    enemiesFrom load root i specs r = enemiesFrom load' root i specs r := by
  induction specs generalizing i r with
  | nil => rfl
  | cons spec specs ih =>
    obtain ⟨first, rest⟩ := forall_mem_filterMap_cons.1 h
    unfold enemiesFrom
    simp only [enemyOf_congr first, ih rest]

end Board

/-! ## Items and their files -/

namespace Item

variable {load : Loader} {root : Option Path} {spec : ItemSpec}

theorem loadCapabilities_spec {p : Path} {c : Capabilities} (h : (loadCapabilities load p).Yields c) :
    c = load.capabilitiesAt p := by
  unfold loadCapabilities at h
  unfold Loader.capabilitiesAt
  split at h
  · rename_i content he
    obtain ⟨_, -, h⟩ := yields_bind h
    rw [yields_pure h, he]
    rfl
  · rename_i reason he
    obtain ⟨_, -, h⟩ := yields_bind h
    rw [yields_pure h, he]
    rfl
  · obtain ⟨before, after, h⟩ := h
    cases h

theorem loadCapabilities_fails (p : Path) : (loadCapabilities load p).FailsWith (load.faultAt? p) := by
  unfold loadCapabilities Loader.faultAt?
  cases load p with
  | error failure =>
    cases failure with
    | unavailable reason => exact failsWith_then (failsWith_note _) fun _ => failsWith_pure _
    | _ => exact failsWith_throw _
  | ok content => exact failsWith_then (failsWith_note _) fun _ => failsWith_pure _

/-- An item without a file of its own gives what is usual for its name. -/
theorem baseCapabilities_eq : baseCapabilities load root spec =
    match spec.file? root with
    | none => pure (Capabilities.standard spec.name)
    | some p => loadCapabilities load p := by
  unfold baseCapabilities ItemSpec.file?
  split
  · rename_i hfile
    rw [hfile]
    rfl
  · rename_i hfile
    rw [hfile]
    rfl
  · rename_i file hempty hfile
    have hne : decide (file ≠ "") = true := decide_eq_true fun he => hempty he
    rw [hfile, Option.filter_some, hne]
    rfl

/-- An item that is made is the one that its description and its file say. -/
theorem build_item {place : Position} {i : Item} (h : (build load root spec place).Yields i) :
    i = ⟨spec.name, place, spec.capabilities load root, false⟩ := by
  unfold build at h
  obtain ⟨base, hbase, h⟩ := yields_bind h
  cases yields_pure h
  rw [baseCapabilities_eq] at hbase
  unfold ItemSpec.capabilities
  cases hfile : spec.file? root with
  | none =>
    rw [hfile] at hbase
    cases yields_pure hbase
    rfl
  | some p =>
    rw [hfile] at hbase
    obtain rfl := loadCapabilities_spec hbase
    rfl

theorem build_fails (place : Position) :
    (build load root spec place).FailsWith ((spec.file? root).bind load.faultAt?) := by
  unfold build
  refine failsWith_then ?_ fun _ => failsWith_pure _
  rw [baseCapabilities_eq]
  cases spec.file? root with
  | none => exact failsWith_pure _
  | some p => exact loadCapabilities_fails p

theorem build_congr {load' : Loader} (h : ∀ p ∈ spec.file? root, load p = load' p) (place : Position) :
    build load root spec place = build load' root spec place := by
  unfold build
  rw [baseCapabilities_eq, baseCapabilities_eq]
  cases hfile : spec.file? root with
  | none => rfl
  | some p => simp only [loadCapabilities, h p hfile]

end Item

namespace Campaign

variable {c : Campaign}

theorem placeItems_cons_some {hasScanner : Bool} {spec : ItemSpec} {place : Position}
    (h : spec.place? hasScanner = some place) (specs : List ItemSpec) :
    c.placeItems hasScanner (spec :: specs) = do
      let item ← Item.build c.loader c.root spec place
      return item :: (← c.placeItems hasScanner specs) := by
  unfold ItemSpec.place? at h
  split at h
  · cases h
  · rename_i hother
    simp only [placeItems, h, if_neg hother]

/-- An item that is not placed is passed over, perhaps with a note. -/
theorem placeItems_cons_none {hasScanner : Bool} {spec : ItemSpec} (h : spec.place? hasScanner = none)
    (specs : List ItemSpec) :
    c.placeItems hasScanner (spec :: specs) = c.placeItems hasScanner specs ∨
      ∃ notes, c.placeItems hasScanner (spec :: specs) =
        Log.note notes >>= fun _ => c.placeItems hasScanner specs := by
  unfold ItemSpec.place? at h
  simp only [placeItems]
  split
  · exact .inr ⟨_, rfl⟩
  · rename_i place hplace
    split at h
    · rename_i hscanner
      rw [if_pos hscanner]
      exact .inl rfl
    · rw [hplace] at h
      cases h

/-- The items that are placed are those that their descriptions and their files say. -/
theorem placeItems_items {hasScanner : Bool} {specs : List ItemSpec} {items : List Item}
    (h : (c.placeItems hasScanner specs).Yields items) :
    items = specs.filterMap (·.item? c.loader c.root hasScanner) := by
  induction specs generalizing items with
  | nil =>
    cases yields_pure h
    rfl
  | cons spec specs ih =>
    cases hplace : spec.place? hasScanner with
    | none =>
      have later : (c.placeItems hasScanner specs).Yields items := by
        rcases placeItems_cons_none hplace specs with he | ⟨notes, he⟩
        · rwa [he] at h
        · rw [he] at h
          obtain ⟨_, -, h⟩ := yields_bind h
          exact h
      rw [List.filterMap_cons_none (by rw [ItemSpec.item?, hplace]; rfl), ih later]
    | some place =>
      rw [placeItems_cons_some hplace] at h
      obtain ⟨item, hitem, h⟩ := yields_bind h
      obtain ⟨items, later, h⟩ := yields_bind h
      cases yields_pure h
      rw [List.filterMap_cons_some (by rw [ItemSpec.item?, hplace]; rfl), Item.build_item hitem, ih later]

theorem placeItems_fails (hasScanner : Bool) (specs : List ItemSpec) :
    (c.placeItems hasScanner specs).FailsWith (c.loader.fault? (specs.filterMap (·.fileRead? c.root hasScanner))) := by
  induction specs with
  | nil => exact failsWith_pure _
  | cons spec specs ih =>
    rw [Loader.fault?_filterMap_cons, ItemSpec.fileRead?]
    cases hplace : spec.place? hasScanner with
    | none =>
      rw [Option.bind_none, Option.bind_none, Option.none_or]
      rcases placeItems_cons_none hplace specs with he | ⟨notes, he⟩
      · rw [he]
        exact ih
      · rw [he]
        exact failsWith_bind (failsWith_note notes) fun _ => ih
    | some place =>
      rw [placeItems_cons_some hplace]
      exact failsWith_bind (Item.build_fails place) fun _ => failsWith_then ih fun _ => failsWith_pure _

theorem placeItems_congr {load : Loader} {hasScanner : Bool} {specs : List ItemSpec}
    (h : ∀ p ∈ specs.filterMap (·.file? c.root), c.loader p = load p) :
    c.placeItems hasScanner specs = { c with loader := load }.placeItems hasScanner specs := by
  induction specs with
  | nil => rfl
  | cons spec specs ih =>
    obtain ⟨first, rest⟩ := forall_mem_filterMap_cons.1 h
    unfold placeItems
    simp only [Item.build_congr first, ih rest]

/-! ## Entering a level -/

/-- The files that are read when a level is entered by a robot with or without a scanner. -/
def filesRead (c : Campaign) (hasScanner : Bool) (spec : LevelSpec) : List Path :=
  spec.enemies.filterMap (·.file? c.root) ++ spec.items.filterMap (·.fileRead? c.root hasScanner)

/-- The files that a level refers to. -/
def resources (c : Campaign) (spec : LevelSpec) : List Path :=
  spec.enemies.filterMap (·.file? c.root) ++ spec.items.filterMap (·.file? c.root)

theorem filesRead_subset (hasScanner : Bool) (spec : LevelSpec) :
    c.filesRead hasScanner spec ⊆ c.resources spec := by
  have hitems : spec.items.filterMap (·.fileRead? c.root hasScanner) ⊆ spec.items.filterMap (·.file? c.root) := by
    intro p hp
    obtain ⟨item, hitem, hread⟩ := List.mem_filterMap.1 hp
    obtain ⟨_, -, hfile⟩ := Option.bind_eq_some_iff.1 hread
    exact List.mem_filterMap.2 ⟨item, hitem, hfile⟩
  exact List.append_subset.2 ⟨List.subset_append_left _ _, fun p hp => List.mem_append_right _ (hitems hp)⟩

variable {σ : Type} [WordSource σ]

/-- Entering a level fails with what goes wrong first with the files that are read for it. -/
theorem enter_fails {index : Int} {spec : LevelSpec} (h : c.level? index = some spec) (progress : Option Robot)
    (credits : Int) (g : σ) : failure? (c.enter index progress credits g).1 =
      (c.loader.fault? (c.filesRead ((Robot.carrying spec.start progress).hasItem Item.scannerName) spec)).map
        .resource := by
  have henemies := Board.enemiesFrom_fails c.loader c.root 0 spec.enemies {} []
  have hitems := c.placeItems_fails ((Robot.carrying spec.start progress).hasItem Item.scannerName) spec.items []
  unfold filesRead
  rw [Loader.fault?_append, ← henemies, ← hitems]
  unfold enter
  simp only [h, Log.Noting.outcome]
  rcases (Board.enemiesFrom c.loader c.root 0 spec.enemies {}).run.run [] with ⟨failure | enemies, boardNotes⟩
  · rfl
  · rcases (c.placeItems ((Robot.carrying spec.start progress).hasItem Item.scannerName) spec.items).run.run [] with
      ⟨failure | items, itemNotes⟩ <;> rfl

/-- A level is entered exactly if no file that is read for it is damaged. -/
theorem enter_succeeds_iff {index : Int} {spec : LevelSpec} (h : c.level? index = some spec)
    (progress : Option Robot) (credits : Int) (g : σ) :
    (∃ play, (c.enter index progress credits g).1 = .ok play) ↔
      ∀ p ∈ c.filesRead ((Robot.carrying spec.start progress).hasItem Item.scannerName) spec,
        ¬ c.loader.Damaged p := by
  rw [← Loader.fault?_eq_none_iff, ← Option.map_eq_none_iff, ← enter_fails h progress credits g]
  cases (c.enter index progress credits g).1 <;> simp [failure?]

end Campaign

namespace LevelEntry

variable {c : Campaign} {e : LevelEntry}

theorem Prepared.enemies_eq (h : e.Prepared c) : e.enemies = e.spec.enemies.map (·.enemy c.loader c.root) :=
  Board.enemiesFrom_enemies PatternRegistry.freeFrom_empty (yields_of_outcome h.enemies)

theorem Prepared.items_eq (h : e.Prepared c) :
    e.items = e.spec.items.filterMap (·.item? c.loader c.root (e.robot.hasItem Item.scannerName)) :=
  Campaign.placeItems_items (yields_of_outcome h.items)

/-- Reading the files anew changes nothing about an entry if they say what they said. -/
theorem Prepared.reread (h : e.Prepared c) {load : Loader}
    (same : ∀ p ∈ c.resources e.spec, c.loader p = load p) :
    e.Prepared { c with loader := load } ∧ Campaign.refresh { c with loader := load } e = e := by
  rw [Campaign.resources, List.forall_mem_append] at same
  have henemies := h.enemies
  have hitems := h.items
  rw [Board.enemiesFrom_congr same.1] at henemies
  rw [Campaign.placeItems_congr same.2] at hitems
  refine ⟨⟨h.level, henemies, hitems, h.robot⟩, ?_⟩
  unfold Campaign.refresh
  simp only [henemies, hitems]

end LevelEntry

end ScriptedRobot
