import ScriptedRobot.Proofs.Session.Recording

/-!
# The turns that commands end

`worldTurns` lists the sessions in which commands end a turn, one after the other: none for a move that is barred,
one for a grab, one for each step of a search. `Elapses` says that a session comes from another one through such
ends of turns and nothing else that counts, and `commands_elapse` that every sequence of commands does, as long as
no level is entered and no enemy is met.
-/

namespace ScriptedRobot

namespace Session

variable {σ : Type}

/-! ## Shots -/

/-- What a laser does, and what it answers. -/
inductive Shot (s : Session σ) : Session σ × Reply → Prop where
  /-- It hits nothing. -/
  | misses {r : Reply} (enemy : ∀ p, r ≠ .laserEnemy p) (obstacle : ∀ p, r ≠ .laserObstacle p) : Shot s (s, r)
  /-- It stuns an enemy. -/
  | stuns {p : Position} {i : Nat} (found : s.play.board.enemyAt? p = some i) :
      Shot s (s.onPlay fun play => { play with stunned := play.stunned.set i stunTurns }, .laserEnemy p)
  /-- It removes an obstacle. -/
  | removes {p : Position} (blocked : s.isBlocked p = true) :
      Shot s (s.onPlay fun play => { play with removed := play.removed.set p removalTurns }, .laserObstacle p)

theorem laserHit_shot {s : Session σ} {p : Position} {o : Session σ × Reply} (h : s.laserHit p = some o) :
    Shot s o := by
  unfold laserHit at h
  split at h
  · rename_i found
    cases h
    exact .stuns found
  · split at h
    · rename_i blocked
      cases h
      exact .removes blocked
    · cases h

theorem laserFrom_shot (s : Session σ) (step : Position) (count : Nat) (p : Position) :
    Shot s (s.laserFrom step count p) := by
  induction count generalizing p with
  | zero => exact .misses (fun _ h => by cases h) (fun _ h => by cases h)
  | succ count ih =>
    simp only [laserFrom]
    split
    · exact .misses (fun _ h => by cases h) (fun _ h => by cases h)
    · split
      · rename_i hit
        exact laserHit_shot hit
      · exact ih _

theorem fireTile_shot (s : Session σ) (p : Position) : Shot s (s.fireTile p) := by
  unfold fireTile
  split
  · exact .misses (fun _ h => by cases h) (fun _ h => by cases h)
  · cases hit : s.laserHit p with
    | none => exact .misses (fun _ h => by cases h) (fun _ h => by cases h)
    | some outcome => exact laserHit_shot hit

theorem fires_shot {s : Session σ} {c : Command} {o : Session σ × Reply} (h : s.fires c = some o) : Shot s o := by
  cases c with
  | laserDirection heading =>
    cases h
    exact laserFrom_shot s _ _ _
  | laserTile p =>
    cases h
    exact fireTile_shot s p
  | _ => cases h

end Session

variable {σ : Type}

/-! ## Turns that pass -/

/-- Writes down where turns end. -/
def Recorder.turns : Recorder σ (Session σ) where
  turn := fun s => [s]

variable [WordSource σ]

/-- Where a command ends its turns: one that the level does not allow ends none. -/
def Visit.turnEnds (v : Visit σ) : List (Session σ) := Recorder.turns.visit v

namespace Session

/-- Where commands end their turns that are executed one after the other. -/
def worldTurns (commands : List Command) (s : Session σ) : List (Session σ) :=
  (visits commands s).flatMap Visit.turnEnds

/-- From one session to another some turns end and are completed, and between them there are only changes of one
kind. -/
inductive Elapses (P : Session σ → Session σ → Prop) : Session σ → List (Session σ) → Session σ → Prop where
  /-- No turn ends. -/
  | rest {s t : Session σ} (h : P s t) : Elapses P s [] t
  /-- A turn ends. -/
  | turn {s t u : Session σ} {us : List (Session σ)} (h : P s u) (clear : u.endTurn.collided = false)
      (more : Elapses P u.endTurn us t) : Elapses P s (u :: us) t

/-- Changes that take no account of records, and that all steps belong to but those of lasers and of the ends of
turns. -/
structure Calm (P : Session σ → Session σ → Prop) : Prop where
  records : ∀ {s t : Session σ}, t.play = s.play → P s t
  trans : ∀ {s t u : Session σ}, P s t → P t u → P s u
  step : ∀ {d : Deed} {s t : Session σ}, Step s d t → d ∉ Deed.ofLaser ++ Deed.ofTurn → P s t

variable {P : Session σ → Session σ → Prop}

theorem Calm.steps (calm : Calm P) {ds : List Deed} {s t : Session σ} (h : StepsOf ds s t)
    (quiet : ∀ d ∈ ds, d ∉ Deed.ofLaser ++ Deed.ofTurn := by decide) : P s t := by
  induction h with
  | refl => exact calm.records rfl
  | tail _ hstep ih =>
    obtain ⟨d, hd, hstep⟩ := hstep
    exact calm.trans ih (calm.step hstep (quiet d hd))

namespace Elapses

variable {s t u : Session σ} {us vs : List (Session σ)}

theorem after (calm : Calm P) (h : P s t) (k : Elapses P t us u) : Elapses P s us u := by
  cases k with
  | rest k => exact .rest (calm.trans h k)
  | turn k clear more => exact .turn (calm.trans h k) clear more

theorem trans (calm : Calm P) (h : Elapses P s us t) (k : Elapses P t vs u) : Elapses P s (us ++ vs) u := by
  induction h with
  | rest h => exact k.after calm h
  | turn h clear _ ih => exact .turn h clear (ih k)

/-- What an end of turn takes from one number of turns to the next, and other changes leave as it is, can be
counted. -/
theorem count {Q : Nat → Session σ → Prop} {n : Nat} (keep : ∀ n {s t : Session σ}, P s t → Q n s → Q n t)
    (ends : ∀ n {u : Session σ}, u.endTurn.collided = false → Q n u → Q (n + 1) u.endTurn)
    (h : Elapses P s us t) (start : Q n s) :
    (∀ j u, us[j]? = some u → u.endTurn.collided = false ∧ Q (n + j) u) ∧ Q (n + us.length) t := by
  induction h generalizing n with
  | rest h => exact ⟨fun j u hj => (nomatch hj), keep n h start⟩
  | @turn s t u us h clear _ ih =>
    have hu := keep n h start
    obtain ⟨hlater, hend⟩ := ih (ends n clear hu)
    refine ⟨?_, ?_⟩
    · intro j v hj
      cases j with
      | zero =>
        cases hj
        exact ⟨clear, hu⟩
      | succ j =>
        have hv := hlater j v hj
        rwa [Nat.add_assoc, Nat.add_comm 1 j] at hv
    · rwa [Nat.add_assoc, Nat.add_comm 1 us.length] at hend

end Elapses

/-- Between ends of turns and shots there are only calm changes. -/
theorem Calm.tracks (calm : Calm P) : Recorder.turns.Tracks fun us s t => Elapses P s us t where
  records := fun play _ => .rest (calm.records play)
  trans := fun h k => h.trans calm k
  step := fun hstep plain => .rest (calm.step hstep fun hd => plain (by
    simp only [Deed.recorded, List.mem_append] at hd ⊢
    tauto))
  grab := fun s => .rest (calm.steps (grab_steps s))
  scan := fun s h => .rest (calm.steps (scanAll_steps _ s))
  turn := fun clear => .turn (calm.records rfl) clear (.rest (calm.records rfl))
  check := fun s => .rest (calm.steps (checkCompletion_finish s))

/-- Commands that enter no level and meet no enemy come to their ends of turns. -/
theorem commands_elapse (calm : Calm P) {levels : List LevelSpec} {commands : List Command} {s : Session σ}
    (h : Reachable levels s) (stays : ∀ v ∈ visits commands s, v.Stays)
    (shot : ∀ v ∈ visits commands s, ∀ o, v.Fires o → P v.before.apart o.1) :
    Elapses P s (worldTurns commands s) (Session.after commands s) := by
  induction commands generalizing s with
  | nil => exact .rest (calm.records rfl)
  | cons c rest ih =>
    rw [visits, List.forall_mem_cons] at stays shot
    have hfirst := calm.tracks.execute h.wellFormed stays.1 fun o ho => .rest (shot.1 o ho)
    exact hfirst.trans calm (ih (h.command c) stays.2 shot.2)

/-- From the moment when a laser has hit, its own end of turn is the first. -/
theorem shot_elapses (calm : Calm P) {levels : List LevelSpec} {c : Command} {commands : List Command}
    {s : Session σ} {o : Session σ × Reply} (h : Reachable levels s) (fires : (Visit.mk s c).Fires o)
    (stays : ∀ v ∈ visits (c :: commands) s, v.Stays)
    (shot : ∀ v ∈ visits commands (s.execute c).1, ∀ o, v.Fires o → P v.before.apart o.1) :
    Elapses P o.1 (worldTurns (c :: commands) s) (Session.after (c :: commands) s) := by
  rw [visits, List.forall_mem_cons] at stays
  obtain ⟨allowed, hfires⟩ := fires
  have hperform := perform_of_fires hfires
  have hends : (Visit.mk s c).turnEnds = [o.1] := by
    rw [Visit.turnEnds, Recorder.visit_of_answered allowed hperform, Recorder.command_of_fires hfires]
    rfl
  have hclear : o.1.endTurn.collided = false := by
    by_contra meets
    have hafter := stays.1.1
    rw [Visit.after, execute_met allowed hperform (by simpa using meets)] at hafter
    exact meets hafter
  have hafter : P o.1.endTurn (s.execute c).1 := by
    rw [execute_answered allowed hperform hclear]
    exact calm.trans (calm.steps (checkCompletion_finish _)) (calm.records rfl)
  have hrest := commands_elapse calm (h.command c) stays.2 shot
  rw [worldTurns, visits, List.flatMap_cons, hends]
  exact .turn (calm.records rfl) hclear (hrest.after calm hafter)

end Session

end ScriptedRobot
