import Mathlib
import ScriptedRobot.Proofs.Session.Gains

/-!
# Every credit is accounted for

`Since` collects what has been gained since the level was last loaded. Then the credits are those that the level was
entered with and what these gains are worth, and the discoveries are the tiles among them (`credits_exact`).
-/

namespace ScriptedRobot

open Gain

namespace Session

variable {σ : Type} [WordSource σ]

/-! ## Since the level was last loaded -/

/-- The level was last loaded in the first session, and these are the gains since. -/
inductive Since (levels : List LevelSpec) : Session σ → List Gain → Session σ → Prop where
  /-- A session starts. -/
  | started {campaign : Campaign} {g : σ} {index : Int} {s : Session σ} (own : campaign.levels = levels)
      (starts : (start campaign g index).1 = .ok s) : Since levels s [] s
  /-- A command enters a level, which perhaps is complete at once. -/
  | entered {s t : Session σ} {c : Command} {i : Int} (h : Reachable levels s) (goes : s.destination? c = some i)
      (load : s.apart.load i = (t, .ok ())) : Since levels t (Recorder.gains.check t) (s.execute c).1
  /-- The robot and an enemy meet, and the level is loaded again. -/
  | reset {s : Session σ} {c : Command} (h : Reachable levels s) (meets : (s.execute c).1.collided = true) :
      Since levels (s.execute c).1 [] (s.execute c).1
  /-- Any other command. -/
  | command {e s : Session σ} {gs : List Gain} {c : Command} (h : Since levels e gs s)
      (stays : (Visit.mk s c).Stays) : Since levels e (gs ++ Recorder.gains.visit ⟨s, c⟩) (s.execute c).1
  /-- The files of the level are read anew. -/
  | reread {e s : Session σ} {gs : List Gain} (h : Since levels e gs s) (load : Loader) :
      Since levels e gs (s.withLoader load)
  /-- Only what is recorded about the session changes. -/
  | records {e s t : Session σ} {gs : List Gain} (h : Since levels e gs s) (campaign : t.campaign = s.campaign)
      (play : t.play = s.play) (credits : t.credits = s.credits) : Since levels e gs t

variable {levels : List LevelSpec} {e s : Session σ} {gs : List Gain}

theorem Since.reachable (h : Since levels e gs s) : Reachable levels s := by
  induction h with
  | started own starts => exact .start own starts
  | entered h _ _ => exact h.command _
  | reset h _ => exact h.command _
  | command _ _ ih => exact ih.command _
  | reread _ load ih => exact ih.reread load
  | records _ campaign play credits ih => exact ih.records campaign play credits

/-- However a session has come about, its level was last loaded at some time. -/
theorem Reachable.since (h : Reachable levels s) : ∃ e gs, Since levels e gs s := by
  induction h with
  | start own starts => exact ⟨_, _, .started own starts⟩
  | @command s h c ih =>
    obtain ⟨e, gs, hs⟩ := ih
    by_cases meets : (s.execute c).1.collided = true
    · exact ⟨_, _, .reset h meets⟩
    · by_cases loads : ∃ i t, s.destination? c = some i ∧ s.apart.load i = (t, .ok ())
      · obtain ⟨i, t, goes, load⟩ := loads
        exact ⟨_, _, .entered h goes load⟩
      · have stays : (Visit.mk s c).Stays :=
          ⟨Bool.eq_false_iff.2 meets, fun i t goes load => loads ⟨i, t, goes, load⟩⟩
        exact ⟨_, _, hs.command stays⟩
  | reread _ load ih =>
    obtain ⟨e, gs, hs⟩ := ih
    exact ⟨e, gs, hs.reread load⟩
  | records _ campaign play credits ih =>
    obtain ⟨e, gs, hs⟩ := ih
    exact ⟨e, gs, hs.records campaign play credits⟩

/-- Nothing has been gained yet. -/
structure Opened (s : Session σ) : Prop where
  credits : s.play.entry.credits = s.credits
  discovered : s.play.discovered = 0
  gathered : s.gathered = []
  finished : s.play.finished = false

theorem opened_of_begun (hs : Grounded levels s) (begun : s.Begun) (credits : s.play.entry.credits = s.credits) :
    s.Opened := by
  have hgathered := begun.gathered_eq_nil hs
  obtain ⟨g, hb⟩ := begun
  refine ⟨credits, ?_, hgathered, ?_⟩
  · rw [hb]
    rfl
  · rw [hb]
    rfl

theorem Since.opened (h : Since levels e gs s) : e.Opened := by
  induction h with
  | started own starts =>
    obtain ⟨hc, hprepared, -, hcredits, hb⟩ := start_ok starts
    rw [← hc] at hprepared
    exact opened_of_begun (grounded_of_prepared hprepared hb) ⟨_, hb⟩ hcredits
  | entered _ _ load =>
    obtain ⟨-, -, hprepared, -, hcredits, hb⟩ := load_ok load
    exact opened_of_begun (grounded_of_prepared hprepared hb) ⟨_, hb⟩ hcredits
  | @reset s c h meets =>
    -- the level that is loaded again is the one of the session that has met the enemy
    obtain ⟨t, u, -, -, he⟩ := (execute_effect s c).encounter meets
    have hgrounded := (h.command c).grounded
    rw [he] at hgrounded ⊢
    exact opened_of_begun hgrounded ⟨u.rng, rfl⟩ rfl
  | command _ _ ih => exact ih
  | reread _ _ ih => exact ih
  | records _ _ _ _ ih => exact ih

omit [WordSource σ] in
theorem accounts_reread (s : Session σ) (load : Loader) : Accounts [] s (s.withLoader load) := by
  have hentry : (s.withLoader load).play.entry.credits = s.play.entry.credits := by
    simp only [withLoader, onPlay, Campaign.refresh]
    split <;> rfl
  exact .still hentry rfl (fun _ hp => hp) rfl rfl rfl rfl

/-- What has been gained since the level was last loaded is all that has changed. -/
theorem Since.accounts (h : Since levels e gs s) : Accounts gs e s := by
  induction h with
  | started => exact .of_play rfl rfl
  | @entered s t c i _ goes load =>
    obtain ⟨r, he⟩ := execute_loads goes load
    rw [he]
    have hall := (accounts_check t).trans (.of_play (t := t.checkCompletion.report (.executed c.kind r.text)) rfl rfl)
    rwa [List.append_nil] at hall
  | reset => exact .of_play rfl rfl
  | @command e s gs c h stays ih =>
    have hvisit := accounts_tracks.execute (v := ⟨s, c⟩) h.reachable.wellFormed stays fun _ => accounts_shot
    exact ih.trans hvisit
  | @reread e s gs _ load ih =>
    have hall := ih.trans (accounts_reread s load)
    rwa [List.append_nil] at hall
  | @records e s t gs _ _ play credits ih =>
    have hall := ih.trans (.of_play play credits)
    rwa [List.append_nil] at hall

/-- The books of a level: it was entered in the first session, and these are the gains since. -/
structure Balanced (e : Session σ) (gs : List Gain) (s : Session σ) : Prop where
  /-- The level was entered with these credits. -/
  entry : s.play.entry.credits = e.credits
  /-- No tile is counted twice. -/
  once : (tiles gs).Nodup
  /-- The tiles that are counted were not known when the level was entered, and are known now. -/
  revealed : ∀ p ∈ tiles gs, p ∉ e.play.board.known ∧ p ∈ s.play.board.known
  /-- The discoveries are the tiles that grabs and scans have made known. -/
  discovered : s.play.discovered = (tiles gs).length
  /-- The items are those that have been collected. -/
  items : (Gain.items gs).Perm s.gathered
  /-- All credits come from items, from tiles that grabs have made known, and from the bonus. -/
  credits : s.credits = e.credits + ((Gain.items gs).map Item.worth).sum +
    s.play.board.income * (claims gs).length + (bonuses gs).sum
  /-- A level that has been completed has had its bonus once, for the discoveries of that moment. -/
  finished : s.play.finished = true → ∃ before after, gs = before ++ .bonus (tiles before).length :: after ∧
    bonuses before = [] ∧ bonuses after = []
  /-- A level that has not been completed has had no bonus. -/
  unfinished : s.play.finished = false → bonuses gs = []

/-- Every credit is accounted for. However a session has come about, there are gains since its level was last
loaded, and whatever they are, discoveries and credits are exactly what they come to. -/
theorem credits_exact (h : Reachable levels s) :
    (∃ e gs, Since levels e gs s) ∧ ∀ e gs, Since levels e gs s → Balanced e gs s := by
  refine ⟨h.since, fun e gs hs => ?_⟩
  have hopened := hs.opened
  have haccounts := hs.accounts
  refine ⟨haccounts.entry.trans hopened.credits, haccounts.once, haccounts.revealed, ?_, ?_, ?_, ?_, ?_⟩
  · rw [haccounts.discovered, hopened.discovered, Nat.zero_add]
  · have hitems := haccounts.items
    rw [hopened.gathered, List.nil_append] at hitems
    exact hitems.symm
  · rw [haccounts.credits, haccounts.income]
  · intro finished
    cases haccounts.bonus with
    | unpaid same _ =>
      rw [same, hopened.finished] at finished
      cases finished
    | paid _ _ _ _ split first last =>
      rw [hopened.discovered, Nat.zero_add] at split
      exact ⟨_, _, split, first, last⟩
  · intro unfinished
    cases haccounts.bonus with
    | unpaid _ none => exact none
    | paid _ _ _ finished _ _ _ =>
      rw [finished] at unfinished
      cases unfinished

/-- What commands gain comes on top, as long as no level is loaded. -/
theorem Since.commands {commands : List Command} (h : Since levels e gs s)
    (stays : ∀ v ∈ visits commands s, v.Stays) :
    Since levels e (gs ++ (visits commands s).flatMap Recorder.gains.visit) (after commands s) := by
  induction commands generalizing gs s with
  | nil =>
    rw [visits, List.flatMap_nil, List.append_nil]
    exact h
  | cons c rest ih =>
    rw [visits, List.forall_mem_cons] at stays
    rw [visits, List.flatMap_cons, ← List.append_assoc]
    exact ih (h.command stays.1) stays.2

/-- A gallery with a scanner on its start and an extension of the grabber beside it. -/
def gallery : LevelSpec where
  name := "Gallery"
  width := 7
  height := 1
  start := ⟨0, 0⟩
  items := [{ name := "scanner", position := some ⟨0, 0⟩, overrides := { scannerRange := some (some 3) } },
    { name := "grabber_upgrade", position := some ⟨1, 0⟩, overrides := { creditsValue := some none } }]
  texts := { completionFlag := some "println" }
  width_pos := Int.natCast_succ_pos 6
  height_pos := Int.one_pos
  placed_inside := by decide

/-- The gallery is all there is. -/
def galleries : Campaign where
  levels := [gallery]
  loader := Loader.ofTexts []

/-- A session that starts in the gallery. -/
def inGallery : Session Random.Twister :=
  ((start galleries ⟨Vector.replicate _ 0, 0⟩ 0).1.toOption).get (by decide)

theorem inGallery_starts : (start galleries (⟨Vector.replicate _ 0, 0⟩ : Random.Twister) 0).1 = .ok inGallery := rfl

/-- The robot grabs and scans, completes the level, and searches the rest with its grabber on. -/
def mining : List Command := [.grab, .scan .right, .println "done", .setAutoGrab true, .searchAll]

/-- What it gains. -/
def mined : List Gain := (visits mining inGallery).flatMap Recorder.gains.visit

theorem credits_exact_gallery :
    Balanced inGallery mined (after mining inGallery) ∧ (Gain.items mined).map Item.worth = [5, 0] ∧
      claims mined = [⟨2, 0⟩, ⟨5, 0⟩, ⟨6, 0⟩] ∧ tiles mined = [⟨2, 0⟩, ⟨3, 0⟩, ⟨4, 0⟩, ⟨5, 0⟩, ⟨6, 0⟩] ∧
      bonuses mined = [3] ∧ (after mining inGallery).credits = 5 + 3 + 3 := by
  have stays : ∀ v ∈ visits mining inGallery, v.Stays := visits_stay (by decide) (by decide +kernel)
  have hstarted : Since galleries.levels inGallery [] inGallery := .started rfl inGallery_starts
  have hsince := hstarted.commands stays
  rw [List.nil_append, ← mined] at hsince
  obtain ⟨-, hbalanced⟩ := credits_exact hsince.reachable
  have hbooks := hbalanced inGallery mined hsince
  have hworth : (Gain.items mined).map Item.worth = [5, 0] := by decide +kernel
  have hclaims : claims mined = [⟨2, 0⟩, ⟨5, 0⟩, ⟨6, 0⟩] := by decide +kernel
  have htiles : tiles mined = [⟨2, 0⟩, ⟨3, 0⟩, ⟨4, 0⟩, ⟨5, 0⟩, ⟨6, 0⟩] := by decide +kernel
  have hbonus : bonuses mined = [3] := by decide +kernel
  have hincome : (after mining inGallery).play.board.income = 1 := by decide +kernel
  have hpoor : inGallery.credits = 0 := by decide +kernel
  have hcredits : (after mining inGallery).credits = 5 + 3 + 3 := by
    rw [hbooks.credits, hworth, hclaims, hbonus, hincome, hpoor]
    decide
  exact ⟨hbooks, hworth, hclaims, htiles, hbonus, hcredits⟩

end Session

end ScriptedRobot
