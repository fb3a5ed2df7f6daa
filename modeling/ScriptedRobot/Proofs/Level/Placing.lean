import Mathlib.Data.List.Forall2
import ScriptedRobot.Proofs.Level.Conversion
import ScriptedRobot.Proofs.Script.Reading
import ScriptedRobot.Random.Twister

/-!
# Where a level puts what its document leaves to chance

The obstacles of a document, and the items that it says to scatter, share the tiles that are left: none is drawn twice,
and none where the document itself puts anything. `LevelDocument.Places` says so of a level, together with what the
level takes over from its document, and `LevelDocument.level_places` shows it of every level that is made.
-/

namespace ScriptedRobot

/-! ## What a valid check was made of -/

namespace Schema.Checked

variable {α β : Type}

theorem seq_valid {f : Checked (α → β)} {x : Checked α} {b : β} (h : f <*> x = .valid b) :
    ∃ k a, f = .valid k ∧ x = .valid a ∧ k a = b := by
  cases f with
  | invalid issues => cases x <;> cases h
  | valid k =>
    cases x with
    | invalid issues => cases h
    | valid a =>
      cases h
      exact ⟨k, a, rfl, rfl, rfl⟩

theorem map_valid {f : α → β} {x : Checked α} {b : β} (h : f <$> x = .valid b) : ∃ a, x = .valid a ∧ f a = b := by
  obtain ⟨k, a, hk, hx, hb⟩ := seq_valid (f := .valid f) h
  cases hk
  exact ⟨a, hx, hb⟩

theorem seqLeft_valid {x : Checked α} {y : Checked β} {a : α} (h : x <* y = .valid a) : x = .valid a := by
  cases x with
  | invalid issues => cases y <;> cases h
  | valid b =>
    cases y with
    | invalid issues => cases h
    | valid c => exact h

theorem andThen_valid {x : Checked α} {f : α → Checked β} {b : β} (h : x.andThen f = .valid b) :
    ∃ a, x = .valid a ∧ f a = .valid b := by
  cases x with
  | invalid issues => cases h
  | valid a => exact ⟨a, rfl, h⟩

theorem orFault_ok {x : Checked α} {a : α} (h : x.orFault = .ok a) : x = .valid a := by
  cases x with
  | invalid issues => cases h
  | valid b =>
    cases h
    rfl

theorem size_valid {n : Int} {step : Step} {size : Size} (h : (integerAbove 0 (.int n)).within step = .valid size) :
    size.val = n := by
  have hsize := Parallel.size n step
  rw [h] at hsize
  cases hsize with
  | valid hval => exact hval.2

end Schema.Checked

/-- What a level's record gives it that has a place or a size. -/
structure Schema.LevelFields.Gives (f : LevelFields) (spec : LevelSpec) : Prop where
  width : ∃ size, f.width = .valid size ∧ size.val = spec.width
  height : ∃ size, f.height = .valid size ∧ size.val = spec.height
  start : f.start = .valid spec.start
  blockers : f.blockers = .valid spec.blockers
  doors : f.doors = .valid spec.doors
  enemies : f.enemies = .valid spec.enemies
  items : f.items = .valid spec.items

theorem Schema.LevelFields.level_valid {f : LevelFields} {spec : LevelSpec} (h : f.level = .valid spec) :
    f.Gives spec := by
  obtain ⟨⟨w, h, draft⟩, hdraft, hcheck⟩ := Checked.andThen_valid h
  -- one field after the other, from the last one back
  obtain ⟨_, texts, hdraft, -, htextsOf⟩ := Checked.seq_valid (Checked.seqLeft_valid hdraft)
  obtain ⟨_, income, hdraft, -, hincomeOf⟩ := Checked.seq_valid hdraft
  obtain ⟨_, turns, hdraft, -, hturnsOf⟩ := Checked.seq_valid hdraft
  obtain ⟨_, fog, hdraft, -, hfogOf⟩ := Checked.seq_valid hdraft
  obtain ⟨_, items, hdraft, hitems, hitemsOf⟩ := Checked.seq_valid hdraft
  obtain ⟨_, enemies, hdraft, henemies, henemiesOf⟩ := Checked.seq_valid hdraft
  obtain ⟨_, doors, hdraft, hdoors, hdoorsOf⟩ := Checked.seq_valid hdraft
  obtain ⟨_, blockers, hdraft, hblockers, hblockersOf⟩ := Checked.seq_valid hdraft
  obtain ⟨_, start, hdraft, hstart, hstartOf⟩ := Checked.seq_valid hdraft
  obtain ⟨_, height, hdraft, hheight, hheightOf⟩ := Checked.seq_valid hdraft
  obtain ⟨_, width, hdraft, hwidth, hwidthOf⟩ := Checked.seq_valid hdraft
  obtain ⟨name, -, hnameOf⟩ := Checked.map_valid hdraft
  subst hnameOf hwidthOf hheightOf hstartOf hblockersOf hdoorsOf henemiesOf hitemsOf hfogOf hturnsOf hincomeOf
  cases htextsOf
  simp only at hcheck
  cases hfound : LevelDraft.misplaced?
      ⟨name, w.val, h.val, start, blockers, doors, enemies, items, fog, turns, income, texts⟩ with
  | some what =>
    rw [LevelDraft.check_of_misplaced _ _ hfound] at hcheck
    cases hcheck
  | none =>
    obtain ⟨made, hmade, hsame⟩ := LevelDraft.check_of_placed w.property h.property hfound
    rw [hmade] at hcheck
    cases hcheck
    exact
      { width := ⟨w, hwidth, by rw [hsame]⟩
        height := ⟨h, hheight, by rw [hsame]⟩
        start := by rw [hsame, hstart]
        blockers := by rw [hsame, hblockers]
        doors := by rw [hsame, hdoors]
        enemies := by rw [hsame, henemies]
        items := by rw [hsame, hitems] }

/-! ## Tiles that were drawn -/

section Tiles

variable {σ : Type} [WordSource σ] {width height : Int} {taken : List Position} {g g' : σ}

theorem drawFreeTile_ok {place : Option Position}
    (h : drawFreeTile width height taken tileAttempts g = (.ok place, g')) : Fresh width height taken place.toList := by
  rcases drawFreeTile_outcome width height taken tileAttempts g with ⟨_, hdraw⟩ | ⟨_, _, hdraw, hfresh⟩
  · rw [hdraw] at h
    cases h
  · rw [hdraw] at h
    cases h
    exact hfresh

theorem drawFreeTiles_ok {count : Nat} {ps : List Position} {all : Bool}
    (h : drawFreeTiles width height count taken g = (.ok (ps, all), g')) :
    ps.length ≤ count ∧ Fresh width height taken ps := by
  rcases drawFreeTiles_outcome width height count taken g with ⟨_, hdraw⟩ | ⟨_, _, _, hdraw, hfound⟩
  · rw [hdraw] at h
    cases h
  · rw [hdraw] at h
    cases h
    exact hfound

end Tiles

/-! ## Enemies -/

namespace EnemyEntry

/-- The enemy is what the entry says. -/
structure Makes (e : EnemyEntry) (s : EnemySpec) : Prop where
  spec : e.spec = .valid s
  position : s.position = e.start

theorem makes_of_spec {e : EnemyEntry} {s : EnemySpec} (h : e.spec = .valid s) : e.Makes s := by
  refine ⟨h, ?_⟩
  unfold spec at h
  simp only at h
  split at h
  · obtain ⟨positive, -, rfl⟩ := Schema.Checked.map_valid h
    rfl
  · obtain ⟨make, pattern, hmake, -, rfl⟩ := Schema.Checked.seq_valid h
    obtain ⟨positive, -, rfl⟩ := Schema.Checked.map_valid hmake
    rfl

theorem specs_ok {es : List EnemyEntry} {enemies : List EnemySpec}
    (h : (es.mapM fun e => e.spec.orFault) = .ok enemies) : List.Forall₂ Makes es enemies := by
  induction es generalizing enemies with
  | nil =>
    cases h
    exact .nil
  | cons e es ih =>
    obtain ⟨s, rest, hs, hrest, rfl⟩ := Script.mapM_cons_ok h
    exact .cons (makes_of_spec (Schema.Checked.orFault_ok hs)) (ih hrest)

end EnemyEntry

/-! ## Items -/

namespace ItemEntry

/-- The item is what the entry says: all but its place, and its place too unless it is drawn. -/
structure Makes (e : ItemEntry) (i : ItemSpec) : Prop where
  spec : e.spec i.position = .valid i
  fixed : e.random.truthy = false → i.position = e.place

/-- The tile that was drawn for an item, if there is one. -/
def drawn (e : ItemEntry) (i : ItemSpec) : List Position := if e.random.truthy then i.position.toList else []

/-- The tiles that were drawn for items. -/
def allDrawn (es : List ItemEntry) (items : List ItemSpec) : List Position := (List.zipWith drawn es items).flatten

theorem allDrawn_cons (e : ItemEntry) (es : List ItemEntry) (i : ItemSpec) (items : List ItemSpec) :
    allDrawn (e :: es) (i :: items) = e.drawn i ++ allDrawn es items := rfl

variable {σ : Type} [WordSource σ] {width height : Int} {taken : List Position} {g g' : σ}

theorem position_of_spec {e : ItemEntry} {place : Option Position} {i : ItemSpec} (h : e.spec place = .valid i) :
    i.position = place := by
  have hspec := spec_parallel e place place
  rw [h] at hspec
  cases hspec with
  | valid hplace => exact hplace.1

theorem drawPlace_ok {e : ItemEntry} {place : Option Position} (h : e.drawPlace width height taken g = (.ok place, g')) :
    (e.random.truthy = false → place = e.place) ∧
      (e.random.truthy = true → Fresh width height taken place.toList) := by
  unfold drawPlace at h
  cases hrandom : e.random.truthy with
  | true =>
    rw [hrandom, if_pos rfl] at h
    exact ⟨nofun, fun _ => drawFreeTile_ok h⟩
  | false =>
    rw [hrandom] at h
    cases h
    exact ⟨fun _ => rfl, nofun⟩

/-- The items of a level are those of its document, one by one, and what is drawn for them is clear of what is taken
and of one another. -/
theorem specs_ok {es : List ItemEntry} {items : List ItemSpec}
    (h : specs width height es taken g = (.ok items, g')) :
    List.Forall₂ Makes es items ∧ Fresh width height taken (allDrawn es items) := by
  induction es generalizing taken g items with
  | nil =>
    cases h
    exact ⟨.nil, .nil⟩
  | cons e es ih =>
    unfold specs at h
    rcases hplace : e.drawPlace width height taken g with ⟨fault | place, g₁⟩
    · rw [hplace] at h
      cases h
    · rw [hplace] at h
      simp only at h
      cases hspec : e.spec place with
      | invalid issues =>
        rw [hspec] at h
        cases h
      | valid i =>
        rw [hspec] at h
        simp only at h
        rcases hrest : specs width height es (place.toList ++ taken) g₁ with ⟨fault | rest, g₂⟩
        · rw [hrest] at h
          cases h
        · rw [hrest] at h
          cases h
          obtain ⟨hmakes, hfresh⟩ := ih hrest
          obtain ⟨hgiven, hdrawn⟩ := drawPlace_ok hplace
          obtain rfl := position_of_spec hspec
          refine ⟨.cons ⟨hspec, hgiven⟩ hmakes, ?_⟩
          rw [allDrawn_cons, drawn]
          cases hrandom : e.random.truthy with
          | true => exact (hdrawn hrandom).append hfresh
          | false => exact hfresh.mono fun p hp => List.mem_append_right _ hp

end ItemEntry

/-! ## Levels -/

namespace LevelDocument

/-- What a level takes over from its document, and where it puts what the document leaves to chance. -/
structure Places (d : LevelDocument) (obstacles : List Position) (spec : LevelSpec) : Prop where
  size : d.boardSize = .ok (spec.width, spec.height)
  start : spec.start = d.start
  doors : spec.doors = d.doors
  /-- The blockers of the document come first. -/
  blockers : spec.blockers = d.blockers ++ obstacles
  obstacles_length : (obstacles.length : Int) ≤ max 0 d.obstacles
  /-- The enemies are those of the document, one by one. -/
  enemies : List.Forall₂ EnemyEntry.Makes d.enemies spec.enemies
  /-- So are the items, in the places that the document gives them unless it says to scatter them. -/
  items : List.Forall₂ ItemEntry.Makes d.items spec.items
  /-- Whatever is drawn lies on the board. -/
  inside : ∀ p ∈ obstacles ++ ItemEntry.allDrawn d.items spec.items, inside spec.width spec.height p = true
  /-- No tile is drawn twice. -/
  apart : (obstacles ++ ItemEntry.allDrawn d.items spec.items).Nodup
  /-- None is drawn where the document puts something. -/
  clear : ∀ p ∈ obstacles ++ ItemEntry.allDrawn d.items spec.items, p ≠ d.start ∧ p ∉ d.blockers ∧ p ∉ d.doors ∧
    (∀ e ∈ d.enemies, e.start ≠ p) ∧ ∀ e ∈ d.items, e.place ≠ some p

theorem not_mem_placed {d : LevelDocument} {p : Position} (h : p ∉ d.placed) : p ≠ d.start ∧ p ∉ d.blockers ∧
    p ∉ d.doors ∧ (∀ e ∈ d.enemies, e.start ≠ p) ∧ ∀ e ∈ d.items, e.place ≠ some p := by
  simp only [placed, List.cons_append, List.mem_cons, List.mem_append, List.mem_map, List.mem_filterMap, not_or,
    not_exists, not_and] at h
  obtain ⟨hstart, ⟨⟨hblockers, hdoors⟩, henemies⟩, hitems⟩ := h
  exact ⟨hstart, hblockers, hdoors, henemies, hitems⟩

variable {σ : Type} [WordSource σ] {d : LevelDocument} {g : σ} {spec : LevelSpec}

/-- The steps of making a level, each of which has succeeded. -/
theorem level_ok (h : (d.level g).1 = .ok spec) : ∃ width height obstacles all g₁ enemies items g₂,
    d.boardSize = .ok (width, height) ∧
    drawFreeTiles width height d.obstacles.toNat d.placed g = (.ok (obstacles, all), g₁) ∧
    (d.enemies.mapM fun e => e.spec.orFault) = .ok enemies ∧
    ItemEntry.specs width height d.items (obstacles ++ d.placed) g₁ = (.ok items, g₂) ∧
    d.spec width height (d.blockers ++ obstacles) enemies items = .valid spec := by
  unfold level at h
  rcases hsize : d.boardSize with fault | ⟨width, height⟩
  · rw [hsize] at h
    cases h
  rw [hsize] at h
  simp only at h
  rcases hobstacles : drawFreeTiles width height d.obstacles.toNat d.placed g with ⟨fault | ⟨obstacles, all⟩, g₁⟩
  · rw [hobstacles] at h
    cases h
  rw [hobstacles] at h
  simp only at h
  rcases henemies : d.enemies.mapM fun e => e.spec.orFault with fault | enemies
  · rw [henemies] at h
    cases h
  rw [henemies] at h
  simp only at h
  rcases hitems : ItemEntry.specs width height d.items (obstacles ++ d.placed) g₁ with ⟨fault | items, g₂⟩
  · rw [hitems] at h
    cases h
  rw [hitems] at h
  exact ⟨width, height, obstacles, all, g₁, enemies, items, g₂, rfl, hobstacles, henemies, hitems,
    Schema.Checked.orFault_ok h⟩

/-- Whatever is drawn, nothing that is placed at random falls on anything else. -/
theorem level_places (h : (d.level g).1 = .ok spec) : ∃ obstacles, d.Places obstacles spec := by
  obtain ⟨width, height, obstacles, all, g₁, enemies, items, g₂, hsize, hobstacles, henemies, hitems, hspec⟩ :=
    level_ok h
  obtain ⟨hlength, hfresh⟩ := drawFreeTiles_ok hobstacles
  obtain ⟨hmakes, hdrawn⟩ := ItemEntry.specs_ok hitems
  -- the tiles of the obstacles are taken when those of the items are drawn
  have hall := hfresh.append hdrawn
  have gives := Schema.LevelFields.level_valid hspec
  obtain ⟨w, hw, hwidth⟩ := gives.width
  obtain ⟨h, hh, hheight⟩ := gives.height
  obtain rfl := Schema.Checked.size_valid hw
  obtain rfl := Schema.Checked.size_valid hh
  have hplaced : enemies = spec.enemies := Schema.Checked.valid.inj gives.enemies
  have hscattered : items = spec.items := Schema.Checked.valid.inj gives.items
  rw [hscattered, hwidth, hheight] at hall
  exact ⟨obstacles,
    { size := by rw [hsize, hwidth, hheight]
      start := (Schema.Checked.valid.inj gives.start).symm
      doors := (Schema.Checked.valid.inj gives.doors).symm
      blockers := (Schema.Checked.valid.inj gives.blockers).symm
      obstacles_length := by omega
      enemies := hplaced ▸ EnemyEntry.specs_ok henemies
      items := hscattered ▸ hmakes
      inside := hall.inside
      apart := hall.nodup
      clear := fun p hp => not_mem_placed (hall.untaken p hp) }⟩

/-- A small board with two obstacles and two items, one of them to be scattered. -/
def burrow : LevelDocument where
  name := .str "Burrow"
  size := .str "4x2"
  obstacles := 2
  blockers := [⟨0, 0⟩]
  doors := [⟨2, 0⟩]
  enemies := [⟨⟨2, 1⟩, .str "vertical", .bool true⟩]
  items := [⟨.str "carrot", .null, .bool true, none, .obj []⟩, ⟨.str "key", .null, .bool false, some ⟨0, 1⟩, .obj []⟩]
  income := .int 1
  start := ⟨1, 1⟩
  maxTurns := .int 0
  fogOfWar := .bool true
  texts := []

/-- Words from which the tiles (0, 0), (1, 0), (3, 0), (1, 0) and (3, 1) are drawn on that board, in this order. -/
def burrowWords : Random.Twister :=
  ⟨(((((Vector.replicate _ 0).set 2 0x20000000).set 4 0x60000000).set 6 0x20000000).set 8 0x60000000).set 9 0x40000000,
    0⟩

theorem level_places_burrow : ∃ obstacles spec, (burrow.level burrowWords).1 = .ok spec ∧
    burrow.Places obstacles spec ∧ obstacles = [⟨1, 0⟩, ⟨3, 0⟩] ∧
      spec.items.map (·.position) = [some ⟨3, 1⟩, some ⟨0, 1⟩] := by
  have hblockers : (burrow.level burrowWords).1.toOption.map (·.blockers) = some [⟨0, 0⟩, ⟨1, 0⟩, ⟨3, 0⟩] := by
    decide +kernel
  have hitems : (burrow.level burrowWords).1.toOption.map (fun spec => spec.items.map (·.position)) =
      some [some ⟨3, 1⟩, some ⟨0, 1⟩] := by
    decide +kernel
  rcases hlevel : (burrow.level burrowWords).1 with fault | spec
  · rw [hlevel] at hblockers
    cases hblockers
  · rw [hlevel] at hblockers hitems
    obtain ⟨obstacles, hplaces⟩ := level_places hlevel
    have hall : burrow.blockers ++ obstacles = [⟨0, 0⟩, ⟨1, 0⟩, ⟨3, 0⟩] :=
      hplaces.blockers.symm.trans (Option.some.inj hblockers)
    exact ⟨obstacles, spec, rfl, hplaces, (List.cons.inj hall).2, Option.some.inj hitems⟩

end LevelDocument

end ScriptedRobot
