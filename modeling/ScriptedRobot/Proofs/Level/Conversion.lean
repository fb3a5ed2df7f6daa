import Mathlib.Data.List.Forall2
import ScriptedRobot.Level.Folder
import ScriptedRobot.Proofs.Board.Hazards

/-!
# What chance decides about a level

A document is made into a level with a source of random numbers. Two sources lead to the same fault, or to levels
that differ in nothing but what the document leaves to chance: the obstacles that are scattered, and where the
items lie that it says to scatter (`LevelFile.level_parallel`). What is drawn is always a tile of the board that is
not taken (`Fresh`), so nothing that is checked later depends on it.
-/

namespace ScriptedRobot

/-- Two outcomes that fail for the same reason, or succeed with values in a relation. -/
inductive Parallel {ε α β : Type} (R : α → β → Prop) : Except ε α → Except ε β → Prop where
  | error (e : ε) : Parallel R (.error e) (.error e)
  | ok {a : α} {b : β} (h : R a b) : Parallel R (.ok a) (.ok b)

namespace Parallel

variable {ε ε' α β : Type} {R : α → β → Prop} {x : Except ε α} {y : Except ε β}

theorem mapError (h : Parallel R x y) (f : ε → ε') : Parallel R (x.mapError f) (y.mapError f) := by
  cases h with
  | error e => exact .error (f e)
  | ok h => exact .ok h

theorem error_iff (h : Parallel R x y) {e : ε} : x = .error e ↔ y = .error e := by
  cases h with
  | error d => simp
  | ok h => simp

theorem isOk (h : Parallel R x y) : x.isOk = y.isOk := by
  cases h <;> rfl

end Parallel

namespace Schema.Checked

/-- Two checks that find the same issues, or none and values in a relation. -/
inductive Parallel {α β : Type} (R : α → β → Prop) : Checked α → Checked β → Prop where
  | invalid (issues : List Issue) : Parallel R (.invalid issues) (.invalid issues)
  | valid {a : α} {b : β} (h : R a b) : Parallel R (.valid a) (.valid b)

namespace Parallel

variable {α β γ δ : Type}

theorem refl {R : α → α → Prop} (h : ∀ a, R a a) (x : Checked α) : Parallel R x x := by
  cases x with
  | invalid issues => exact .invalid issues
  | valid a => exact .valid (h a)

/-- Checked functions applied to checked values. -/
theorem seq {R : β → δ → Prop} {Q : α → γ → Prop} {f : Checked (α → β)} {k : Checked (γ → δ)} {x : Checked α}
    {y : Checked γ} (hf : Parallel (fun f k => ∀ a c, Q a c → R (f a) (k c)) f k) (hx : Parallel Q x y) :
    Parallel R (f <*> x) (k <*> y) := by
  cases hf with
  | invalid issues =>
    cases hx with
    | invalid more => exact .invalid (issues ++ more)
    | valid hx => exact .invalid issues
  | valid hf =>
    cases hx with
    | invalid more => exact .invalid more
    | valid hx => exact .valid (hf _ _ hx)

/-- Checked functions applied to the same checked value. -/
theorem seqSame {R : β → δ → Prop} {f : Checked (α → β)} {k : Checked (α → δ)} {x : Checked α}
    (hf : Parallel (fun f k => ∀ a, R (f a) (k a)) f k) : Parallel R (f <*> x) (k <*> x) := by
  refine seq (Q := (· = ·)) ?_ (refl (fun _ => rfl) x)
  cases hf with
  | invalid issues => exact .invalid issues
  | valid hf =>
    refine .valid ?_
    rintro a c rfl
    exact hf a

theorem mapSame {R : β → δ → Prop} {f : α → β} {k : α → δ} {x : Checked α} (h : ∀ a, R (f a) (k a)) :
    Parallel R (f <$> x) (k <$> x) := seqSame (f := .valid f) (k := .valid k) (.valid h)

theorem seqLeft {R : α → γ → Prop} {x : Checked α} {y : Checked γ} (h : Parallel R x y) (c : Checked β) :
    Parallel R (x <* c) (y <* c) := by
  cases h with
  | invalid issues =>
    cases c with
    | invalid more => exact .invalid (issues ++ more)
    | valid b => exact .invalid issues
  | valid h =>
    cases c with
    | invalid more => exact .invalid more
    | valid b => exact .valid h

theorem andThen {R : α → γ → Prop} {S : β → δ → Prop} {x : Checked α} {y : Checked γ} {f : α → Checked β}
    {k : γ → Checked δ} (h : Parallel R x y) (hf : ∀ {a c}, R a c → Parallel S (f a) (k c)) :
    Parallel S (x.andThen f) (y.andThen k) := by
  cases h with
  | invalid issues => exact .invalid issues
  | valid h => exact hf h

theorem orFault {R : α → γ → Prop} {x : Checked α} {y : Checked γ} (h : Parallel R x y) :
    ScriptedRobot.Parallel R x.orFault y.orFault := by
  cases h with
  | invalid issues => exact .error _
  | valid h => exact .ok h

/-- A size that is valid is the number that it was made from. -/
theorem size (n : Int) (step : Step) :
    Parallel (fun a b : Size => a = b ∧ a.val = n) ((integerAbove 0 (.int n)).within step)
      ((integerAbove 0 (.int n)).within step) := by
  unfold integerAbove integer
  by_cases h : 0 < n
  · simp only [Checked.andThen, dif_pos h]
    exact .valid ⟨rfl, rfl⟩
  · simp only [Checked.andThen, dif_neg h]
    exact .invalid _

end Parallel

end Schema.Checked

/-! ## Tiles that are drawn -/

/-- Tiles that can be filled where some are taken: each lies on the board, none comes twice and none is taken. -/
structure Fresh (width height : Int) (taken ps : List Position) : Prop where
  inside : ∀ p ∈ ps, inside width height p = true
  nodup : ps.Nodup
  untaken : ∀ p ∈ ps, p ∉ taken

namespace Fresh

variable {width height : Int} {taken ps qs : List Position}

theorem nil : Fresh width height taken [] :=
  ⟨fun _ h => absurd h List.not_mem_nil, List.nodup_nil, fun _ h => absurd h List.not_mem_nil⟩

theorem singleton {p : Position} (h : ScriptedRobot.inside width height p = true) (untaken : p ∉ taken) :
    Fresh width height taken [p] :=
  ⟨List.forall_mem_singleton.2 h, List.nodup_singleton p, List.forall_mem_singleton.2 untaken⟩

theorem mono {taken' : List Position} (h : Fresh width height taken' ps) (more : ∀ p ∈ taken, p ∈ taken') :
    Fresh width height taken ps :=
  ⟨h.inside, h.nodup, fun p hp => mt (more p) (h.untaken p hp)⟩

/-- What is drawn first is taken when the rest is drawn. -/
theorem append (hp : Fresh width height taken ps) (hq : Fresh width height (ps ++ taken) qs) :
    Fresh width height taken (ps ++ qs) where
  inside := List.forall_mem_append.2 ⟨hp.inside, hq.inside⟩
  nodup := hp.nodup.append hq.nodup fun p h hlater => hq.untaken p hlater (List.mem_append_left _ h)
  untaken := List.forall_mem_append.2 ⟨hp.untaken, fun p h => mt (List.mem_append_right _) (hq.untaken p h)⟩

end Fresh

section Tiles

variable {σ : Type} [WordSource σ] {width height : Int}

/-- Nothing can be drawn from a board without tiles. -/
theorem drawTile_cramped (h : width ≤ 0 ∨ height ≤ 0) (g : σ) :
    ∃ g', drawTile width height g = (.error .noTiles, g') := by
  unfold drawTile
  split
  · exact ⟨_, rfl⟩
  · rename_i hwidth
    simp only [if_pos (h.resolve_left hwidth)]
    exact ⟨_, rfl⟩

theorem drawTile_inside (hw : 0 < width) (hh : 0 < height) (g : σ) :
    ∃ p g', drawTile width height g = (.ok p, g') ∧ inside width height p = true := by
  have hx := Random.below_lt (n := width.toNat) (by omega) g
  have hy := Random.below_lt (n := height.toNat) (by omega) (Random.below width.toNat g).2
  unfold drawTile
  simp only [if_neg (Int.not_le.2 hw), if_neg (Int.not_le.2 hh)]
  refine ⟨_, _, rfl, ?_⟩
  rw [inside_iff]
  simp only
  omega

theorem drawFreeTile_cramped (h : width ≤ 0 ∨ height ≤ 0) (taken : List Position) {attempts : Nat}
    (some_attempt : attempts ≠ 0) (g : σ) :
    ∃ g', drawFreeTile width height taken attempts g = (.error .noTiles, g') := by
  obtain ⟨n, rfl⟩ := Nat.exists_eq_succ_of_ne_zero some_attempt
  obtain ⟨g', hdraw⟩ := drawTile_cramped h g
  rw [drawFreeTile, hdraw]
  exact ⟨g', rfl⟩

theorem drawFreeTile_fresh (hw : 0 < width) (hh : 0 < height) (taken : List Position) (attempts : Nat) (g : σ) :
    ∃ (place : Option Position) (g' : σ), drawFreeTile width height taken attempts g = (.ok place, g') ∧
      Fresh width height taken place.toList := by
  induction attempts generalizing g with
  | zero => exact ⟨none, g, rfl, .nil⟩
  | succ attempts ih =>
    obtain ⟨p, g', hdraw, hinside⟩ := drawTile_inside hw hh g
    rw [drawFreeTile, hdraw]
    simp only
    split
    · exact ih g'
    · rename_i huntaken
      exact ⟨some p, g', rfl, .singleton hinside (by simpa using huntaken)⟩

theorem drawFreeTiles_cramped (h : width ≤ 0 ∨ height ≤ 0) {count : Nat} (some_tile : count ≠ 0)
    (taken : List Position) (g : σ) :
    ∃ g', drawFreeTiles width height count taken g = (.error .noTiles, g') := by
  obtain ⟨n, rfl⟩ := Nat.exists_eq_succ_of_ne_zero some_tile
  obtain ⟨g', hdraw⟩ := drawFreeTile_cramped h taken (by decide : tileAttempts ≠ 0) g
  rw [drawFreeTiles, hdraw]
  exact ⟨g', rfl⟩

theorem drawFreeTiles_fresh (hw : 0 < width) (hh : 0 < height) (count : Nat) (taken : List Position) (g : σ) :
    ∃ ps all g', drawFreeTiles width height count taken g = (.ok (ps, all), g') ∧ ps.length ≤ count ∧
      Fresh width height taken ps := by
  induction count generalizing taken g with
  | zero => exact ⟨[], true, g, rfl, Nat.le_refl 0, .nil⟩
  | succ count ih =>
    obtain ⟨place, g', hdraw, hplace⟩ := drawFreeTile_fresh hw hh taken tileAttempts g
    rw [drawFreeTiles, hdraw]
    cases place with
    | none => exact ⟨[], false, g', rfl, Nat.zero_le _, .nil⟩
    | some p =>
      obtain ⟨ps, all, g'', hrest, hlength, hps⟩ := ih (p :: taken) g'
      simp only
      rw [hrest]
      exact ⟨p :: ps, all, g'', rfl, Nat.succ_le_succ hlength, hplace.append hps⟩

/-- Drawing a tile fails for want of tiles alone. -/
theorem drawFreeTile_outcome (width height : Int) (taken : List Position) (attempts : Nat) (g : σ) :
    (∃ g', drawFreeTile width height taken attempts g = (.error .noTiles, g')) ∨
      ∃ (place : Option Position) (g' : σ), drawFreeTile width height taken attempts g = (.ok place, g') ∧
        Fresh width height taken place.toList := by
  by_cases hnone : attempts = 0
  · subst hnone
    exact .inr ⟨none, g, rfl, .nil⟩
  · by_cases hcramped : width ≤ 0 ∨ height ≤ 0
    · exact .inl (drawFreeTile_cramped hcramped taken hnone g)
    · exact .inr (drawFreeTile_fresh (by omega) (by omega) taken attempts g)

theorem drawFreeTiles_outcome (width height : Int) (count : Nat) (taken : List Position) (g : σ) :
    (∃ g', drawFreeTiles width height count taken g = (.error .noTiles, g')) ∨
      ∃ ps all g', drawFreeTiles width height count taken g = (.ok (ps, all), g') ∧ ps.length ≤ count ∧
        Fresh width height taken ps := by
  by_cases hnone : count = 0
  · subst hnone
    exact .inr ⟨[], true, g, rfl, Nat.le_refl 0, .nil⟩
  · by_cases hcramped : width ≤ 0 ∨ height ≤ 0
    · exact .inl (drawFreeTiles_cramped hcramped hnone taken g)
    · exact .inr (drawFreeTiles_fresh (by omega) (by omega) count taken g)

/-- Whether tiles can be drawn depends on the board alone. -/
theorem drawFreeTiles_parallel (width height : Int) (count : Nat) (taken taken' : List Position) (g g' : σ) :
    Parallel (fun ps ps' : List Position × Bool =>
        (∀ p ∈ ps.1, inside width height p = true) ∧ ∀ p ∈ ps'.1, inside width height p = true)
      (drawFreeTiles width height count taken g).1 (drawFreeTiles width height count taken' g').1 := by
  by_cases hnone : count = 0
  · rw [hnone]
    exact .ok ⟨fun p hp => (by cases hp), fun p hp => (by cases hp)⟩
  · by_cases hcramped : width ≤ 0 ∨ height ≤ 0
    · obtain ⟨_, hdraw⟩ := drawFreeTiles_cramped hcramped hnone taken g
      obtain ⟨_, hdraw'⟩ := drawFreeTiles_cramped hcramped hnone taken' g'
      rw [hdraw, hdraw']
      exact .error _
    · have hw : 0 < width := by omega
      have hh : 0 < height := by omega
      obtain ⟨ps, all, _, hdraw, -, hfresh⟩ := drawFreeTiles_fresh hw hh count taken g
      obtain ⟨ps', all', _, hdraw', -, hfresh'⟩ := drawFreeTiles_fresh hw hh count taken' g'
      rw [hdraw, hdraw']
      exact .ok ⟨hfresh.inside, hfresh'.inside⟩

end Tiles

/-! ## Items -/

namespace ItemEntry

/-- What a document says of an item: all but its place, if that is drawn. -/
def fixed (e : ItemEntry) (i : ItemSpec) : ItemSpec := if e.random.truthy then { i with position := none } else i

/-- A place that is drawn lies on the board. -/
def DrawnInside (width height : Int) (e : ItemEntry) (i : ItemSpec) : Prop :=
  e.random.truthy = true → ∀ p ∈ i.position, inside width height p = true

/-- The place of an item has no part in how the rest of it is checked. -/
theorem spec_parallel (e : ItemEntry) (place place' : Option Position) :
    (e.spec place).Parallel (fun i j => i.position = place ∧ j = { i with position := place' }) (e.spec place') := by
  unfold spec
  exact .seqSame (.seqSame (.mapSame fun _ _ _ => ⟨rfl, rfl⟩))

variable {σ : Type} [WordSource σ]

/-- The place of an item is the given one, or drawn in the same way. -/
theorem drawPlace_parallel (e : ItemEntry) (width height : Int) (taken taken' : List Position) (g g' : σ) :
    Parallel (fun place place' => (e.random.truthy = false → place = place') ∧
        (e.random.truthy = true → (∀ p ∈ place, inside width height p = true) ∧
          ∀ p ∈ place', inside width height p = true))
      (e.drawPlace width height taken g).1 (e.drawPlace width height taken' g').1 := by
  unfold drawPlace
  by_cases hrandom : e.random.truthy = true
  · rw [if_pos hrandom, if_pos hrandom]
    by_cases hcramped : width ≤ 0 ∨ height ≤ 0
    · obtain ⟨_, hdraw⟩ := drawFreeTile_cramped hcramped taken (by decide : tileAttempts ≠ 0) g
      obtain ⟨_, hdraw'⟩ := drawFreeTile_cramped hcramped taken' (by decide : tileAttempts ≠ 0) g'
      rw [hdraw, hdraw']
      exact .error _
    · have hw : 0 < width := by omega
      have hh : 0 < height := by omega
      obtain ⟨place, _, hdraw, hfresh⟩ := drawFreeTile_fresh hw hh taken tileAttempts g
      obtain ⟨place', _, hdraw', hfresh'⟩ := drawFreeTile_fresh hw hh taken' tileAttempts g'
      rw [hdraw, hdraw']
      refine .ok ⟨fun hgiven => absurd (hrandom.symm.trans hgiven) (by decide), fun _ => ⟨fun p hp => ?_, fun p hp => ?_⟩⟩
      · exact hfresh.inside p (Option.mem_toList.2 hp)
      · exact hfresh'.inside p (Option.mem_toList.2 hp)
  · rw [if_neg hrandom, if_neg hrandom]
    exact .ok ⟨fun _ => rfl, fun hdrawn => absurd hdrawn hrandom⟩

/-- The same items, apart from places that are drawn, and these on the board. -/
structure Twins (width height : Int) (es : List ItemEntry) (items items' : List ItemSpec) : Prop where
  fixed : List.zipWith fixed es items = List.zipWith ItemEntry.fixed es items'
  left : List.Forall₂ (DrawnInside width height) es items
  right : List.Forall₂ (DrawnInside width height) es items'

theorem specs_parallel (width height : Int) (es : List ItemEntry) (taken taken' : List Position) (g g' : σ) :
    Parallel (Twins width height es) (specs width height es taken g).1 (specs width height es taken' g').1 := by
  induction es generalizing taken taken' g g' with
  | nil => exact .ok ⟨rfl, .nil, .nil⟩
  | cons e es ih =>
    have hplaces := drawPlace_parallel e width height taken taken' g g'
    unfold specs
    generalize e.drawPlace width height taken g = drawn at hplaces ⊢
    generalize e.drawPlace width height taken' g' = drawn' at hplaces ⊢
    obtain ⟨x, g₁⟩ := drawn
    obtain ⟨x', g₁'⟩ := drawn'
    cases hplaces with
    | error fault => exact .error fault
    | @ok place place' hplaces =>
      obtain ⟨hgiven, hdrawn⟩ := hplaces
      have hspec := spec_parallel e place place'
      simp only
      generalize e.spec place = y at hspec ⊢
      generalize e.spec place' = y' at hspec ⊢
      cases hspec with
      | invalid issues => exact .error _
      | @valid i j hspec =>
        obtain ⟨hposition, rfl⟩ := hspec
        have hrest := ih (place.toList ++ taken) (place'.toList ++ taken') g₁ g₁'
        simp only
        generalize specs width height es (place.toList ++ taken) g₁ = rest at hrest ⊢
        generalize specs width height es (place'.toList ++ taken') g₁' = rest' at hrest ⊢
        obtain ⟨z, g₂⟩ := rest
        obtain ⟨z', g₂'⟩ := rest'
        cases hrest with
        | error fault => exact .error fault
        | ok hrest =>
          refine .ok ⟨?_, .cons ?_ hrest.left, .cons ?_ hrest.right⟩
          · rw [List.zipWith_cons_cons, List.zipWith_cons_cons, hrest.fixed]
            congr 1
            unfold ItemEntry.fixed
            cases hrandom : e.random.truthy with
            | true => rfl
            | false =>
              have hsame := hgiven hrandom
              simp [← hsame, ← hposition]
          · intro hrandom p hp
            exact (hdrawn hrandom).1 p (hposition ▸ hp)
          · exact fun hrandom => (hdrawn hrandom).2

end ItemEntry

/-! ## Levels -/

namespace LevelDraft

variable {d : LevelDraft} (width_pos : 0 < d.width) (height_pos : 0 < d.height)

theorem misplaced?_eq (d : LevelDraft) : d.misplaced? =
    (((([("start", d.start)].find? fun e => !inside d.width d.height e.2).or
      ((d.blockers.map (("blocker", ·))).find? fun e => !inside d.width d.height e.2)).or
      ((d.doors.map (("door", ·))).find? fun e => !inside d.width d.height e.2)).or
      ((d.enemies.map fun e => ("enemy", e.position)).find? fun e => !inside d.width d.height e.2)).or
      ((d.items.filterMap fun i => i.position.map ((s!"item {i.name}", ·))).find?
        fun e => !inside d.width d.height e.2) := by
  rw [misplaced?, placed, List.find?_append, List.find?_append, List.find?_append, ← List.singleton_append,
    List.find?_append]

theorem check_of_misplaced {what : String × Position} (h : d.misplaced? = some what) :
    d.check width_pos height_pos = .error (d.misplacedMessage what) := by
  unfold check
  split
  · rename_i other found
    rw [found] at h
    cases h
    rfl
  · rename_i found
    rw [found] at h
    cases h

theorem check_of_placed (h : d.misplaced? = none) :
    ∃ spec : LevelSpec, d.check width_pos height_pos = .ok spec ∧ spec.toLevelDraft = d := by
  unfold check
  split
  · rename_i other found
    rw [found] at h
    cases h
  · exact ⟨_, rfl, rfl⟩

end LevelDraft

namespace LevelDocument

variable {d : LevelDocument}

/-- What a document says of a level: all but what it leaves to chance. -/
def authored (d : LevelDocument) (draft : LevelDraft) : LevelDraft :=
  { draft with
    blockers := draft.blockers.take d.blockers.length
    items := List.zipWith ItemEntry.fixed d.items draft.items }

/-- What stands outside the board has not been drawn. -/
theorem misplaced?_authored {draft : LevelDraft} {obstacles : List Position}
    (blockers : draft.blockers = d.blockers ++ obstacles)
    (obstacles_inside : ∀ p ∈ obstacles, inside draft.width draft.height p = true)
    (items_inside : List.Forall₂ (ItemEntry.DrawnInside draft.width draft.height) d.items draft.items) :
    draft.misplaced? = (d.authored draft).misplaced? := by
  have hobstacles : (obstacles.map (("blocker", ·))).find? (fun e => !inside draft.width draft.height e.2) = none := by
    rw [List.find?_eq_none]
    intro e he
    obtain ⟨p, hp, rfl⟩ := List.mem_map.1 he
    simp [obstacles_inside p hp]
  have hitems : ∀ {es : List ItemEntry} {items : List ItemSpec},
      List.Forall₂ (ItemEntry.DrawnInside draft.width draft.height) es items →
      (items.filterMap fun i => i.position.map ((s!"item {i.name}", ·))).find?
          (fun e => !inside draft.width draft.height e.2) =
        ((List.zipWith ItemEntry.fixed es items).filterMap fun i => i.position.map ((s!"item {i.name}", ·))).find?
          (fun e => !inside draft.width draft.height e.2) := by
    intro es items hinside
    induction hinside with
    | nil => rfl
    | @cons e i es items hi _ ih =>
      rw [List.zipWith_cons_cons, ItemEntry.fixed]
      cases hrandom : e.random.truthy with
      | false =>
        cases hposition : i.position with
        | none => simpa [hposition] using ih
        | some p =>
          simp only [Bool.false_eq_true, if_false, List.filterMap_cons, hposition, Option.map_some,
            List.find?_cons, ih]
      | true =>
        cases hposition : i.position with
        | none => simpa [hposition] using ih
        | some p => simpa [hposition, hi hrandom p hposition] using ih
  have hblockers : ((d.blockers ++ obstacles).map (("blocker", ·))).find?
      (fun e => !inside draft.width draft.height e.2) =
      (d.blockers.map (("blocker", ·))).find? (fun e => !inside draft.width draft.height e.2) := by
    rw [List.map_append, List.find?_append, hobstacles, Option.or_none]
  rw [LevelDraft.misplaced?_eq, LevelDraft.misplaced?_eq, hitems items_inside, authored, blockers, hblockers,
    List.take_left]

/-- Two drafts are checked alike if they say the same but for what is left to chance. -/
theorem check_parallel {draft draft' : LevelDraft} {obstacles obstacles' : List Position}
    (width_pos : 0 < draft.width) (height_pos : 0 < draft.height) (width_pos' : 0 < draft'.width)
    (height_pos' : 0 < draft'.height)
    (same : draft' = { draft with blockers := draft'.blockers, items := draft'.items })
    (blockers : draft.blockers = d.blockers ++ obstacles) (blockers' : draft'.blockers = d.blockers ++ obstacles')
    (obstacles_inside : ∀ p ∈ obstacles, inside draft.width draft.height p = true)
    (obstacles_inside' : ∀ p ∈ obstacles', inside draft.width draft.height p = true)
    (items : ItemEntry.Twins draft.width draft.height d.items draft.items draft'.items) :
    Parallel (fun s s' : LevelSpec => d.authored s.toLevelDraft = d.authored s'.toLevelDraft)
      (draft.check width_pos height_pos) (draft'.check width_pos' height_pos') := by
  have hwidth : draft'.width = draft.width := by rw [same]
  have hheight : draft'.height = draft.height := by rw [same]
  have hauthored : d.authored draft = d.authored draft' := by
    rw [same]
    simp only [authored, blockers, blockers', items.fixed, List.take_left']
  have hmisplaced : draft.misplaced? = draft'.misplaced? := by
    rw [misplaced?_authored blockers obstacles_inside items.left, hauthored]
    refine (misplaced?_authored blockers' ?_ ?_).symm
    · rw [hwidth, hheight]
      exact obstacles_inside'
    · rw [hwidth, hheight]
      exact items.right
  cases hfound : draft.misplaced? with
  | some what =>
    rw [LevelDraft.check_of_misplaced _ _ hfound, LevelDraft.check_of_misplaced _ _ (hmisplaced ▸ hfound),
      LevelDraft.misplacedMessage, LevelDraft.misplacedMessage, hwidth, hheight]
    exact .error _
  | none =>
    obtain ⟨spec, hcheck, hspec⟩ := LevelDraft.check_of_placed width_pos height_pos hfound
    obtain ⟨spec', hcheck', hspec'⟩ := LevelDraft.check_of_placed width_pos' height_pos' (hmisplaced ▸ hfound)
    rw [hcheck, hcheck']
    refine .ok ?_
    rw [hspec, hspec', hauthored]

theorem spec_parallel {width height : Int} {obstacles obstacles' : List Position} (enemies : List EnemySpec)
    {items items' : List ItemSpec} (obstacles_inside : ∀ p ∈ obstacles, inside width height p = true)
    (obstacles_inside' : ∀ p ∈ obstacles', inside width height p = true)
    (twins : ItemEntry.Twins width height d.items items items') :
    (d.spec width height (d.blockers ++ obstacles) enemies items).Parallel
      (fun s s' => d.authored s.toLevelDraft = d.authored s'.toLevelDraft)
      (d.spec width height (d.blockers ++ obstacles') enemies items') := by
  unfold spec Schema.LevelFields.level
  refine Schema.Checked.Parallel.andThen (R := fun t t' =>
    t.1.val = width ∧ t.2.1.val = height ∧ t.2.2.blockers = d.blockers ++ obstacles ∧ t.2.2.items = items ∧
      t' = (t.1, t.2.1, { t.2.2 with blockers := d.blockers ++ obstacles', items := items' })) ?_ ?_
  · refine .seqLeft ?_ _
    refine .seqSame (.seqSame (.seqSame (.seqSame ?_)))
    refine .seq (Q := fun is js => is = items ∧ js = items') ?_ (.valid ⟨rfl, rfl⟩)
    refine .seqSame (.seqSame ?_)
    refine .seq (Q := fun bs cs => bs = d.blockers ++ obstacles ∧ cs = d.blockers ++ obstacles') ?_ (.valid ⟨rfl, rfl⟩)
    refine .seqSame ?_
    refine .seq ?_ (.size height _)
    refine .seq ?_ (.size width _)
    refine .mapSame ?_
    rintro name w _ ⟨rfl, hw⟩ h _ ⟨rfl, hh⟩ start bs cs ⟨rfl, rfl⟩ doors enemies is js ⟨rfl, rfl⟩ fog turns income texts
    exact ⟨hw, hh, rfl, rfl, rfl⟩
  · rintro ⟨w, h, draft⟩ _ ⟨rfl, rfl, hblockers, hitems, rfl⟩
    have hcheck : Parallel (fun s s' : LevelSpec => d.authored s.toLevelDraft = d.authored s'.toLevelDraft)
        (LevelDraft.check { draft with width := w.val, height := h.val } w.property h.property)
        (LevelDraft.check { draft with
          width := w.val, height := h.val, blockers := d.blockers ++ obstacles', items := items' }
          w.property h.property) := by
      refine check_parallel _ _ _ _ rfl hblockers rfl obstacles_inside obstacles_inside' ?_
      rw [← hitems] at twins
      exact twins
    revert hcheck
    simp only
    generalize LevelDraft.check _ _ _ = x
    generalize LevelDraft.check _ _ _ = x'
    intro hcheck
    cases hcheck with
    | error text => exact .invalid _
    | ok hsame => exact .valid hsame

variable {σ : Type} [WordSource σ]

/-- Two sources lead to the same fault, or to levels that say the same but for what is left to chance. -/
theorem level_parallel (d : LevelDocument) (g g' : σ) :
    Parallel (fun s s' => d.authored s.toLevelDraft = d.authored s'.toLevelDraft) (d.level g).1 (d.level g').1 := by
  unfold level
  cases d.boardSize with
  | error fault => exact .error fault
  | ok size =>
    obtain ⟨width, height⟩ := size
    have hdraws := drawFreeTiles_parallel width height d.obstacles.toNat d.placed d.placed g g'
    simp only
    generalize drawFreeTiles width height d.obstacles.toNat d.placed g = drawn at hdraws ⊢
    generalize drawFreeTiles width height d.obstacles.toNat d.placed g' = drawn' at hdraws ⊢
    obtain ⟨x, g₁⟩ := drawn
    obtain ⟨x', g₁'⟩ := drawn'
    cases hdraws with
    | error fault => exact .error fault
    | @ok ps ps' hdraws =>
      obtain ⟨obstacles, all⟩ := ps
      obtain ⟨obstacles', all'⟩ := ps'
      obtain ⟨hinside, hinside'⟩ := hdraws
      simp only
      cases d.enemies.mapM fun e => e.spec.orFault with
      | error fault => exact .error fault
      | ok enemies =>
        have hitems := ItemEntry.specs_parallel width height d.items (obstacles ++ d.placed) (obstacles' ++ d.placed)
          g₁ g₁'
        simp only
        generalize ItemEntry.specs width height d.items (obstacles ++ d.placed) g₁ = made at hitems ⊢
        generalize ItemEntry.specs width height d.items (obstacles' ++ d.placed) g₁' = made' at hitems ⊢
        obtain ⟨y, g₂⟩ := made
        obtain ⟨y', g₂'⟩ := made'
        cases hitems with
        | error fault => exact .error fault
        | ok twins => exact (spec_parallel enemies hinside hinside' twins).orFault

end LevelDocument

/-! ## Level files -/

namespace LevelFile

/-- What the document in a file says of its level: all but what it leaves to chance. -/
def authored (f : LevelFile) (spec : LevelSpec) : LevelDraft :=
  match f.document with
  | .ok d => d.authored spec.toLevelDraft
  | .error _ => spec.toLevelDraft

variable {σ : Type} [WordSource σ]

/-- Whether a file gives a level, and if it does not then why, does not depend on the source of random numbers, and
neither does what the level says, but for what is left to chance. -/
theorem level_parallel (f : LevelFile) (g g' : σ) :
    Parallel (fun s s' => f.authored s = f.authored s') (f.level g).1 (f.level g').1 := by
  unfold level authored
  cases f.document with
  | error fault => exact .error fault
  | ok d => exact (d.level_parallel g g').mapError _

end LevelFile

end ScriptedRobot
