import Mathlib
import ScriptedRobot.Proofs.Session.Congruence

/-!
# Sessions that agree but for their records

`Agree s t`: the sessions are alike in everything except the events of the current batch, the result of the
last one and the number of batches. Nothing in the game looks at those three, so every command answers both
sessions alike and leads to sessions that agree again (`Agree.execute`).
-/

namespace ScriptedRobot.Session

variable {σ : Type}

/-- The sessions are alike but for events, result and number of batches. -/
structure Agree (s t : Session σ) : Prop where
  campaign : s.campaign = t.campaign
  rng : s.rng = t.rng
  play : s.play = t.play
  credits : s.credits = t.credits
  collided : s.collided = t.collided
  log : s.log = t.log

/-- Two outcomes with sessions that agree and the same answer. -/
structure Alike {α : Type} (o o' : Session σ × α) : Prop where
  session : Agree o.1 o'.1
  answer : o.2 = o'.2

/-- Outcomes with sessions that agree, which fail for the same reason or not at all. -/
structure SameRun {ε α β : Type} (o : Session σ × Except ε α) (o' : Session σ × Except ε β) : Prop where
  session : Agree o.1 o'.1
  failure : ∀ e, o.2 = .error e ↔ o'.2 = .error e

theorem alike_of_matched {α : Type} {o o' : Session σ × α} (h : Matched Agree o o') : Alike o o' :=
  ⟨h.session, h.answer⟩

theorem SameRun.mapError {ε ε' α β : Type} {o : Session σ × Except ε α} {o' : Session σ × Except ε β}
    (h : SameRun o o') (f : ε → ε') : SameRun (o.1, o.2.mapError f) (o'.1, o'.2.mapError f) := by
  obtain ⟨s, x⟩ := o
  obtain ⟨t, y⟩ := o'
  refine ⟨h.session, fun e => ?_⟩
  have hfailure : ∀ e, x = .error e ↔ y = .error e := h.failure
  cases x with
  | error d =>
    rw [(hfailure d).1 rfl]
    simp [Except.mapError]
  | ok a =>
    cases y with
    | error d => cases (hfailure d).2 rfl
    | ok b => exact ⟨fun h => (by cases h), fun h => (by cases h)⟩

namespace Agree

theorem refl (s : Session σ) : Agree s s := ⟨rfl, rfl, rfl, rfl, rfl, rfl⟩

theorem symm {s t : Session σ} (h : Agree s t) : Agree t s :=
  ⟨h.campaign.symm, h.rng.symm, h.play.symm, h.credits.symm, h.collided.symm, h.log.symm⟩

theorem trans {s t u : Session σ} (h : Agree s t) (k : Agree t u) : Agree s u :=
  ⟨h.campaign.trans k.campaign, h.rng.trans k.rng, h.play.trans k.play, h.credits.trans k.credits,
    h.collided.trans k.collided, h.log.trans k.log⟩

end Agree

theorem SameRun.symm {ε α β : Type} {o : Session σ × Except ε α} {o' : Session σ × Except ε β}
    (h : SameRun o o') : SameRun o' o := ⟨h.session.symm, fun e => (h.failure e).symm⟩

theorem SameRun.trans {ε α β γ : Type} {o : Session σ × Except ε α} {o' : Session σ × Except ε β}
    {o'' : Session σ × Except ε γ} (h : SameRun o o') (k : SameRun o' o'') : SameRun o o'' :=
  ⟨h.session.trans k.session, fun e => (h.failure e).trans (k.failure e)⟩

namespace Agree

variable {s t : Session σ}

theorem report (h : Agree s t) (e e' : Event) : Agree (s.report e) (t.report e') :=
  ⟨h.campaign, h.rng, h.play, h.credits, h.collided, h.log⟩

theorem note (h : Agree s t) (entries : List Log.Entry) : Agree (s.note entries) (t.note entries) :=
  ⟨h.campaign, h.rng, h.play, h.credits, h.collided, congrArg (· ++ entries) h.log⟩

variable [WordSource σ]

theorem load (h : Agree s t) (index : Int) : Matched Agree (s.load index) (t.load index) := by
  obtain ⟨campaign, rng, play, credits, batches, result, collided, events, log⟩ := s
  obtain ⟨campaign', rng', play', credits', batches', result', collided', events', log'⟩ := t
  obtain ⟨rfl, rfl, rfl, rfl, rfl, rfl⟩ := h
  simp only [Session.load]
  rcases campaign.enter index (some play.robot) credits rng with ⟨failure | entered, g, notes⟩
  · exact ⟨⟨rfl, rfl, rfl, rfl, rfl, rfl⟩, rfl⟩
  · exact ⟨⟨rfl, rfl, rfl, rfl, rfl, rfl⟩, rfl⟩

theorem reload (h : Agree s t) : Agree s.reload t.reload := by
  obtain ⟨campaign, rng, play, credits, batches, result, collided, events, log⟩ := s
  obtain ⟨campaign', rng', play', credits', batches', result', collided', events', log'⟩ := t
  obtain ⟨rfl, rfl, rfl, rfl, rfl, rfl⟩ := h
  exact ⟨rfl, rfl, rfl, rfl, rfl, rfl⟩

theorem collide (h : Agree s t) : Agree s.collide t.collide := by
  have hlevel : s.level = t.level := congrArg (·.entry.index) h.play
  have hreset := (h.note [⟨.info, .session, s!"Enemy collision on level {t.level + 1}; reloading"⟩]).reload
  unfold Session.collide
  rw [hlevel]
  exact ⟨hreset.campaign, hreset.rng, hreset.play, hreset.credits, rfl, hreset.log⟩

theorem moveEnemies (h : Agree s t) : Agree s.moveEnemies t.moveEnemies := by
  obtain ⟨campaign, rng, play, credits, batches, result, collided, events, log⟩ := s
  obtain ⟨campaign', rng', play', credits', batches', result', collided', events', log'⟩ := t
  obtain ⟨rfl, rfl, rfl, rfl, rfl, rfl⟩ := h
  exact ⟨rfl, rfl, rfl, rfl, rfl, rfl⟩

end Agree

theorem agree_congruence [WordSource σ] : Congruence (Agree : Session σ → Session σ → Prop) where
  play h := congrArg Play.unnamed h.play
  levels h := by rw [h.campaign]
  collided h := h.collided
  apart h := ⟨h.campaign, h.rng, h.play, h.credits, rfl, h.log⟩
  change h f _ := ⟨h.campaign, h.rng, congrArg f h.play, h.credits, h.collided, h.log⟩
  pay h n := ⟨h.campaign, h.rng, h.play, congrArg (· + n) h.credits, h.collided, h.log⟩
  report h e := h.report e e
  note h entries := h.note entries
  moveEnemies h := h.moveEnemies
  collide h := h.collide
  load h index := h.load index
  opened h := ⟨h.campaign, h.rng, h.play, h.credits, h.collided, h.log⟩
  endBatch h _ := ⟨h.campaign, h.rng, h.play, h.credits, h.collided, h.log⟩

namespace Agree

variable [WordSource σ] {s t : Session σ}

theorem isComplete (h : Agree s t) : s.isComplete = t.isComplete := agree_congruence.isComplete h

theorem move (h : Agree s t) (step : Position) : Alike (s.move step) (t.move step) :=
  alike_of_matched (agree_congruence.move h step)

theorem execute (h : Agree s t) (c : Command) : Alike (s.execute c) (t.execute c) :=
  alike_of_matched (agree_congruence.execute h c)

end Agree

end ScriptedRobot.Session
