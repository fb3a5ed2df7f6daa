import ScriptedRobot.Proofs.Session.Reachable
import ScriptedRobot.Proofs.Session.Resources

/-!
# Levels can be entered

With a loader that gives a text or says that there is none, every level of a campaign can be entered, by
whatever robot and however often. So a session starts, and no command fails (`execute_succeeds`).
-/

namespace ScriptedRobot

/-- The loader gives a text or says that it is not available; nothing else goes wrong with it. -/
def Loader.Reliable (load : Loader) : Prop :=
  ∀ p failure, load p = .error failure → ∃ reason, failure = .unavailable reason

theorem Loader.ofTexts_reliable (texts : List (String × String)) : (Loader.ofTexts texts).Reliable := by
  intro p failure h
  unfold Loader.ofTexts at h
  split at h
  · cases h
  · cases h
    exact ⟨_, rfl⟩

theorem Loader.Reliable.intact {load : Loader} (reliable : load.Reliable) (p : Path) : ¬ load.Damaged p := by
  unfold Loader.Damaged Loader.faultAt?
  cases h : load p with
  | ok content => simp
  | error failure =>
    obtain ⟨reason, rfl⟩ := reliable p failure h
    simp

namespace Campaign

variable {c : Campaign}

/-! ## Levels of a campaign -/

/-- Is there a level of that index? A negative index counts from the end. -/
def HasLevel (c : Campaign) (index : Int) : Prop := -(c.levels.length : Int) ≤ index ∧ index < c.levels.length

theorem level?_eq_some_iff {index : Int} : (∃ spec, c.level? index = some spec) ↔ c.HasLevel index := by
  have hsome : ∀ n : Nat, (∃ spec, c.levels[n]? = some spec) ↔ n < c.levels.length := by
    intro n
    rw [← Option.isSome_iff_exists, isSome_getElem?]
  unfold level? HasLevel
  split
  · rw [hsome]
    omega
  · split
    · rw [hsome]
      omega
    · simp only [reduceCtorEq, exists_false, false_iff]
      omega

theorem mem_of_level? {index : Int} {spec : LevelSpec} (h : c.level? index = some spec) : spec ∈ c.levels := by
  unfold level? at h
  split at h
  · exact List.mem_of_getElem? h
  · split at h
    · exact List.mem_of_getElem? h
    · cases h

variable {σ : Type} [WordSource σ]

/-- Every level can be entered, whatever robot and credits it is entered with. -/
theorem enter_succeeds (reliable : c.loader.Reliable) {index : Int} (h : c.HasLevel index)
    (progress : Option Robot) (credits : Int) (g : σ) :
    ∃ play g' notes, c.enter index progress credits g = (.ok play, g', notes) := by
  obtain ⟨spec, hspec⟩ := level?_eq_some_iff.2 h
  obtain ⟨play, hplay⟩ := (enter_succeeds_iff hspec progress credits g).2 fun p _ => reliable.intact p
  exact ⟨play, _, _, Prod.ext hplay rfl⟩

end Campaign

namespace Session

variable {σ : Type} [WordSource σ]

/-- A session starts exactly if its first level can be entered. -/
theorem start_succeeds_iff {c : Campaign} {index : Int} (h : c.HasLevel index) (g : σ) :
    (∃ s, (start c g index).1 = .ok s) ↔ ∃ play, (c.enter index none 0 g).1 = .ok play := by
  have hlevels : ¬ c.levels.isEmpty = true := by
    intro hempty
    rw [List.isEmpty_iff] at hempty
    obtain ⟨hlow, hhigh⟩ := h
    rw [hempty, List.length_nil] at hlow hhigh
    omega
  unfold start
  rw [if_neg hlevels]
  rcases c.enter index none 0 g with ⟨failure | play, g', notes⟩ <;> simp

theorem start_succeeds {c : Campaign} (reliable : c.loader.Reliable) {index : Int} (h : c.HasLevel index)
    (g : σ) : ∃ s, (start c g index).1 = .ok s := by
  obtain ⟨play, g', notes, he⟩ := Campaign.enter_succeeds reliable h none 0 g
  exact (start_succeeds_iff h g).2 ⟨play, congrArg (·.1) he⟩

omit [WordSource σ] in
theorem Grounded.hasLevel {levels : List LevelSpec} {s : Session σ} (h : Grounded levels s) :
    s.campaign.HasLevel s.level := Campaign.level?_eq_some_iff.1 ⟨_, h.entry.level⟩

omit [WordSource σ] in
/-- A command that goes to a level goes to one that there is. -/
theorem hasLevel_of_destination {s : Session σ} (h : s.campaign.HasLevel s.level) {c : Command} {i : Int}
    (goes : s.destination? c = some i) : s.campaign.HasLevel i := by
  obtain ⟨hlow, hhigh⟩ := h
  unfold Campaign.HasLevel
  cases c with
  | skipLevel =>
    simp only [destination?] at goes
    split at goes
    · cases goes
    · cases goes
      omega
  | gotoLevel n =>
    simp only [destination?] at goes
    split at goes
    · cases goes
      omega
    · cases goes
  | _ => cases goes

theorem load_succeeds_iff {s : Session σ} {index : Int} :
    (∃ t, s.load index = (t, .ok ())) ↔
      ∃ play, (s.campaign.enter index (some s.play.robot) s.credits s.rng).1 = .ok play := by
  unfold load
  rcases s.campaign.enter index (some s.play.robot) s.credits s.rng with ⟨failure | play, g, notes⟩ <;> simp

/-- Whatever comes of a command, the campaign stays as it is. -/
theorem execute_campaign (s : Session σ) (c : Command) : (s.execute c).1.campaign = s.campaign := by
  have heffect := execute_effect s c
  generalize s.execute c = outcome at heffect ⊢
  cases heffect with
  | refused _ => rfl
  | failed _ load =>
    obtain ⟨hc, -, -⟩ := load_error load
    exact hc
  | @entered i t r _ load =>
    obtain ⟨hc, -, -, -, -, -⟩ := load_ok load
    exact (checkCompletion_steps t).progress.campaign.trans hc
  | settled _ _ steps => exact (Steps.progress (steps.steps.trans (checkCompletion_steps _))).campaign
  | met _ _ steps met => exact (steps.steps.progress.trans met.progress).campaign

/-- A command is answered exactly if the level that it goes to, if it goes to one, can be entered. -/
theorem execute_succeeds_iff (s : Session σ) (c : Command) :
    (∃ t r, s.execute c = (t, .ok r)) ↔ ∀ i, s.destination? c = some i →
      ∃ play, (s.campaign.enter i (some s.play.robot) s.credits s.rng).1 = .ok play := by
  have stays : s.destination? c = none → ∀ i, s.destination? c = some i →
      ∃ play, (s.campaign.enter i (some s.play.robot) s.credits s.rng).1 = .ok play := by
    intro hnone i goes
    rw [hnone] at goes
    cases goes
  have heffect := execute_effect s c
  generalize s.execute c = outcome at heffect ⊢
  cases heffect with
  | refused hrefused =>
    have hnone : s.destination? c = none :=
      Option.eq_none_iff_forall_ne_some.2 fun i goes => hrefused (allowed_of_destination goes)
    exact ⟨fun _ => stays hnone, fun _ => ⟨_, _, rfl⟩⟩
  | @failed i t failure goes fails =>
    refine ⟨fun ⟨_, _, h⟩ => (by cases h), fun h => ?_⟩
    obtain ⟨t, loads⟩ := (load_succeeds_iff (s := s.apart)).2 (h i goes)
    rw [loads] at fails
    cases fails
  | @entered i t r goes load =>
    refine ⟨fun _ j hj => ?_, fun _ => ⟨_, _, rfl⟩⟩
    rw [goes] at hj
    cases hj
    exact (load_succeeds_iff (s := s.apart)).1 ⟨t, load⟩
  | settled _ hnone _ => exact ⟨fun _ => stays hnone, fun _ => ⟨_, _, rfl⟩⟩
  | met _ hnone _ _ => exact ⟨fun _ => stays hnone, fun _ => ⟨_, _, rfl⟩⟩

/-- Every command is answered, and leaves the campaign as it is. -/
theorem execute_succeeds {levels : List LevelSpec} {s : Session σ} (hs : Grounded levels s)
    (reliable : s.campaign.loader.Reliable) (c : Command) :
    ∃ t r, s.execute c = (t, .ok r) ∧ t.campaign = s.campaign := by
  obtain ⟨t, r, h⟩ := (execute_succeeds_iff s c).2 fun i goes => by
    obtain ⟨play, g, notes, he⟩ := Campaign.enter_succeeds reliable (hasLevel_of_destination hs.hasLevel goes)
      (some s.play.robot) s.credits s.rng
    exact ⟨play, congrArg (·.1) he⟩
  refine ⟨t, r, h, ?_⟩
  have hcampaign := execute_campaign s c
  rwa [h] at hcampaign

end Session

end ScriptedRobot
