import Mathlib
import ScriptedRobot.Proofs.Board.Draws
import ScriptedRobot.Proofs.Schema.Arguments
import ScriptedRobot.Proofs.Session.Answering
import ScriptedRobot.Proofs.Session.Kinds
import ScriptedRobot.Proofs.Session.Loops

/-!
# Nothing fails

A session starts on every level of its campaign, and whatever has been done in it, every command is answered.
`Safe` lists what could go wrong otherwise: a level that cannot be entered, an argument that is missing, a number
that is too long to be written, a draw with nothing to choose from, an enemy of an unknown kind, a laser or a
search without an end.
-/

namespace ScriptedRobot.Session

open Schema Text

variable {σ : Type} [WordSource σ]

/-- Nothing that can be asked of the session fails. -/
structure Safe (s : Session σ) : Prop where
  /-- The level being played is one of the campaign's. -/
  here : s.campaign.HasLevel s.level
  /-- Each of them can be entered with any robot, so this one can be reset. -/
  enters : ∀ {index : Int}, s.campaign.HasLevel index → ∀ (progress : Option Robot) (credits : Int) (g : σ),
    ∃ play g' notes, s.campaign.enter index progress credits g = (.ok play, g', notes)
  /-- A valid record holds the argument that its kind needs, its command is answered, and the answer can be
  written. -/
  answers : ∀ {record : CommandRecord} {c : Command}, record.check = .valid c →
    (∀ n ∈ c.numbers, Numeral.isWritable n = true) →
      (∀ a, Argument.neededBy record.kind = some a → a.isGiven record = true) ∧
        ∃ t r, s.execute c = (t, .ok r) ∧ t.campaign = s.campaign ∧ ∀ n ∈ r.numbers, Numeral.isWritable n = true
  /-- The hazards of a level are drawn from ranges that are not empty. -/
  hazards : ∀ spec ∈ s.campaign.levels, ∀ (enemies : List Enemy) (patterns : PatternRegistry) (g : σ),
    Board.setUp? spec enemies patterns g = some (Board.setUp spec enemies patterns g)
  /-- So are the moves of the enemies. -/
  moves : ∀ (player : Option Position) (stunned : Nat → Bool) (g : σ),
    s.play.board.advance? player stunned g = some (s.play.board.advance player stunned g)
  /-- Every enemy is of a kind that can be looked up. -/
  kinds : ∀ e ∈ s.play.board.enemies, e.IsKnown
  /-- So is every enemy that its pattern could name. -/
  lookups : ∀ (index : Int) (pattern : Option String) (axis : Axis) (positive : Bool),
    ∃ kind, StrategyKind.ofName? (s.play.board.patterns.kindName index pattern axis) = some kind ∧
      (s.play.board.patterns.resolve index pattern axis positive).1 = kind.start positive
  /-- What a pattern file names is not refused. -/
  registers : ∀ {key : String} {p : Path} {r : PatternRegistry},
    (s.play.board.patterns.load s.campaign.loader key p).Yields (true, r) →
      ∃ kind : StrategyKind, s.play.board.patterns.registerName key kind.name = .ok r
  /-- A laser comes to an end. -/
  lasers : ∀ (h : Heading) {outcome : Session σ × Reply},
    LaserFlight s h.step 0 s.play.robot.position outcome ↔ outcome = s.fireDirection h.step
  /-- A search comes to an end. -/
  searches : (WellFounded fun d c : SearchPhase × Session σ => SearchStep c d) ∧
    ∃ c, SearchRun (.start, s.searching) c ∧
      SearchEnd s.searching.play.board.known.size c s.searching.searchFrom

/-- With files that can be read or are not there, and numbers of tiles and levels that can be written, a session
starts on every level of its campaign, and nothing that can be asked of a reachable session fails. -/
theorem starts_and_stays_safe {campaign : Campaign} (reliable : campaign.loader.Reliable)
    (countable : Countable campaign.levels) :
    (∀ (index : Int) (g : σ), campaign.HasLevel index → ∃ s, (start campaign g index).1 = .ok s) ∧
      ∀ s : Session σ, Reachable campaign.levels s → s.campaign.loader.Reliable → s.Safe := by
  refine ⟨fun index g hlevel => start_succeeds reliable hlevel g, ?_⟩
  intro s h hreliable
  have hgrounded := h.grounded
  have hwellFormed := h.wellFormed
  exact
    { here := hgrounded.hasLevel
      enters := fun hlevel progress credits g => Campaign.enter_succeeds hreliable hlevel progress credits g
      answers := by
        intro record c hvalid hwritable
        obtain ⟨t, r, he, hcampaign⟩ := execute_succeeds hgrounded hreliable c
        refine ⟨fun a hneeded => isGiven_of_check hvalid hneeded, t, r, he, hcampaign, ?_⟩
        intro n hn
        exact (execute_numbers hwellFormed hgrounded.hasLevel he n hn).writable hgrounded countable hwritable
      hazards := fun spec _ enemies patterns g => Board.setUp?_eq spec enemies patterns g
      moves := fun player stunned g => s.play.board.advance?_eq player stunned g
      kinds := h.kindsKnown.present
      lookups := fun index pattern axis positive => s.play.board.patterns.resolve_eq index pattern axis positive
      registers := fun hload => PatternRegistry.registerName_of_load hload
      lasers := fun heading _ => laserFlight_iff hwellFormed.robot_inside heading
      searches := ⟨searchStep_wellFounded, searchFrom_ends s.searching⟩ }

/-- A thicket that is overgrown anew each time, with a lamp that nothing is known about. -/
def thicket : LevelSpec where
  name := "Level 4: Thicket"
  width := 5
  height := 6
  start := ⟨0, 0⟩
  items := [{ name := "lamp", position := some ⟨1, 0⟩, file := some "lamp.rs" }]
  width_pos := by decide
  height_pos := by decide
  placed_inside := by decide

/-- A tower with a guard. -/
def tower : LevelSpec where
  name := "Tower"
  width := 1
  height := 4
  start := ⟨0, 3⟩
  enemies := [{ position := ⟨0, 0⟩, pattern := some "file:owl.rs" }]
  width_pos := Int.one_pos
  height_pos := four_pos
  placed_inside := by decide

/-- A thicket and a tower behind it. -/
def wilds : Campaign where
  levels := [thicket, tower]
  loader := Loader.ofTexts [("owl.rs", "// MOVEMENT_PATTERN: Guard")]

theorem starts_and_stays_safe_wilds :
    wilds.loader.Reliable ∧ Countable wilds.levels ∧ wilds.HasLevel 1 ∧
      ∃ s, (start wilds (⟨Vector.replicate _ 0, 0⟩ : Random.Twister) 1).1 = .ok s ∧ s.Safe := by
  have reliable : wilds.loader.Reliable := Loader.ofTexts_reliable _
  have countable : Countable wilds.levels := ⟨by decide +kernel, by decide +kernel⟩
  have hlevel : wilds.HasLevel 1 := ⟨by decide, by decide⟩
  obtain ⟨hstarts, hsafe⟩ := starts_and_stays_safe (σ := Random.Twister) reliable countable
  obtain ⟨s, hs⟩ := hstarts 1 (⟨Vector.replicate _ 0, 0⟩ : Random.Twister) hlevel
  obtain ⟨hcampaign, -⟩ := start_ok hs
  refine ⟨reliable, countable, hlevel, s, hs, hsafe s (.start rfl hs) ?_⟩
  rw [hcampaign]
  exact reliable

end ScriptedRobot.Session
