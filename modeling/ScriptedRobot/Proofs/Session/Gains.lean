import Mathlib
import ScriptedRobot.Proofs.Session.Gathering
import ScriptedRobot.Proofs.Session.Recording

/-!
# What is gained on a level

Items, tiles that grabs and scans make known, and the bonus for completing the level: `Recorder.gains` writes each
of them down where it is gained. `Accounts` says of two sessions that nothing else has changed about credits and
discoveries than what some gains come to. It holds of grabs, scans and the completion of the level with what is
written down about them, and so of whole commands (`accounts_tracks`).
-/

namespace ScriptedRobot

/-- The credits that an item is worth. -/
def Item.worth (i : Item) : Int := i.capabilities.creditsValue.getD 0

/-- Something that is gained on a level. -/
inductive Gain where
  /-- An item is collected. -/
  | item (i : Item)
  /-- A grab makes a tile known. -/
  | claimed (p : Position)
  /-- A scan makes a tile known. -/
  | scanned (p : Position)
  /-- The level is completed, after so many discoveries. -/
  | bonus (discoveries : Nat)
  deriving DecidableEq

namespace Gain

/-- The items that are collected. -/
def items (gs : List Gain) : List Item := gs.filterMap fun
  | item i => some i
  | _ => none

/-- The tiles that grabs make known. -/
def claims (gs : List Gain) : List Position := gs.filterMap fun
  | claimed p => some p
  | _ => none

/-- The tiles that grabs and scans make known. -/
def tiles (gs : List Gain) : List Position := gs.filterMap fun
  | claimed p => some p
  | scanned p => some p
  | _ => none

/-- The discoveries for which there is a bonus. -/
def bonuses (gs : List Gain) : List Nat := gs.filterMap fun
  | bonus n => some n
  | _ => none

@[simp] theorem items_append (as bs : List Gain) : items (as ++ bs) = items as ++ items bs := List.filterMap_append

@[simp] theorem claims_append (as bs : List Gain) : claims (as ++ bs) = claims as ++ claims bs :=
  List.filterMap_append

@[simp] theorem tiles_append (as bs : List Gain) : tiles (as ++ bs) = tiles as ++ tiles bs := List.filterMap_append

@[simp] theorem bonuses_append (as bs : List Gain) : bonuses (as ++ bs) = bonuses as ++ bonuses bs :=
  List.filterMap_append

end Gain

open Gain

variable {σ : Type}

namespace Session

/-- The tiles that have become known from one session to another. -/
def revealed (s t : Session σ) : List Position := t.play.board.known.toList.filter (· ∉ s.play.board.known)

theorem revealed_of_append {s t : Session σ} {new : List Position}
    (h : t.play.board.known.toList = s.play.board.known.toList ++ new) : s.revealed t = new := by
  have hnodup := t.play.board.known.nodup
  rw [h, List.nodup_append] at hnodup
  have hold : s.play.board.known.toList.filter (· ∉ s.play.board.known) = [] := by
    rw [List.filter_eq_nil_iff]
    intro p hp
    have hknown : p ∈ s.play.board.known := hp
    simp [hknown]
  have hnew : new.filter (· ∉ s.play.board.known) = new := by
    rw [List.filter_eq_self]
    intro p hp
    have hunknown : p ∉ s.play.board.known := fun hknown => hnodup.2.2 p hknown p hp rfl
    simp [hunknown]
  rw [revealed, h, List.filter_append, hold, hnew, List.nil_append]

end Session

/-- Writes down what is gained. -/
def Recorder.gains : Recorder σ Gain where
  grab := fun s => (Session.collectAll s.reach s).2.map .item ++ (s.revealed s.grab.1).map .claimed
  scan := fun s step => (s.revealed (s.scanning step).1).map .scanned
  check := fun s => if !s.play.finished && s.isComplete then [.bonus s.play.discovered] else []

namespace Session

/-! ## Changes and what they come to -/

/-- The bonus for completing the level is among the gains exactly if it has been completed in the meantime, and then
it is for the discoveries of that moment. -/
inductive Bonus (gs : List Gain) (s t : Session σ) : Prop where
  /-- The level has not been completed in the meantime. -/
  | unpaid (same : t.play.finished = s.play.finished) (none : bonuses gs = [])
  /-- The level has been completed. -/
  | paid (before after : List Gain) (unfinished : s.play.finished = false) (finished : t.play.finished = true)
      (split : gs = before ++ .bonus (s.play.discovered + (tiles before).length) :: after)
      (first : bonuses before = []) (last : bonuses after = [])

/-- The gains are all that has changed about credits and discoveries. -/
structure Accounts (gs : List Gain) (s t : Session σ) : Prop where
  entry : t.play.entry.credits = s.play.entry.credits
  income : t.play.board.income = s.play.board.income
  known : ∀ p ∈ s.play.board.known, p ∈ t.play.board.known
  once : (tiles gs).Nodup
  revealed : ∀ p ∈ tiles gs, p ∉ s.play.board.known ∧ p ∈ t.play.board.known
  discovered : t.play.discovered = s.play.discovered + (tiles gs).length
  items : t.gathered.Perm (s.gathered ++ items gs)
  credits : t.credits = s.credits + ((Gain.items gs).map Item.worth).sum +
    s.play.board.income * (claims gs).length + (bonuses gs).sum
  bonus : Bonus gs s t

namespace Accounts

variable {s t u : Session σ} {as bs : List Gain}

/-- Changes that nothing is gained by. -/
theorem still (entry : t.play.entry.credits = s.play.entry.credits)
    (income : t.play.board.income = s.play.board.income)
    (known : ∀ p ∈ s.play.board.known, p ∈ t.play.board.known) (discovered : t.play.discovered = s.play.discovered)
    (items : t.play.items = s.play.items) (credits : t.credits = s.credits)
    (finished : t.play.finished = s.play.finished) : Accounts [] s t where
  entry := entry
  income := income
  known := known
  once := List.nodup_nil
  revealed := fun p hp => (List.not_mem_nil hp).elim
  discovered := discovered
  items := by
    rw [gathered, items]
    exact List.Perm.of_eq (List.append_nil _).symm
  credits := by
    rw [credits]
    simp [Gain.items, claims, bonuses]
  bonus := .unpaid finished rfl

theorem of_play (play : t.play = s.play) (credits : t.credits = s.credits) : Accounts [] s t := by
  refine .still ?_ ?_ ?_ ?_ ?_ credits ?_
  · rw [play]
  · rw [play]
  · rw [play]
    exact fun p hp => hp
  · rw [play]
  · rw [play]
  · rw [play]

theorem bonus_trans (h : Accounts as s t) (k : Accounts bs t u) : Bonus (as ++ bs) s u := by
  cases h.bonus with
  | unpaid same none =>
    cases k.bonus with
    | unpaid same' none' =>
      refine .unpaid (same'.trans same) ?_
      rw [bonuses_append, none, none']
      rfl
    | paid before after unfinished finished split first last =>
      rw [same] at unfinished
      refine .paid (as ++ before) after unfinished finished ?_ ?_ last
      · rw [split, tiles_append, List.length_append, h.discovered, List.append_assoc, Nat.add_assoc]
      · rw [bonuses_append, none, first]
        rfl
  | paid before after unfinished finished split first last =>
    cases k.bonus with
    | unpaid same' none' =>
      refine .paid before (after ++ bs) unfinished (same'.trans finished) ?_ first ?_
      · rw [split, List.append_assoc, List.cons_append]
      · rw [bonuses_append, last, none']
        rfl
    | paid _ _ unfinished' _ _ _ _ =>
      -- a level is not completed twice
      rw [finished] at unfinished'
      cases unfinished'

theorem trans (h : Accounts as s t) (k : Accounts bs t u) : Accounts (as ++ bs) s u where
  entry := k.entry.trans h.entry
  income := k.income.trans h.income
  known := fun p hp => k.known p (h.known p hp)
  once := by
    rw [tiles_append, List.nodup_append]
    refine ⟨h.once, k.once, ?_⟩
    rintro p hp q hq rfl
    exact (k.revealed p hq).1 (h.revealed p hp).2
  revealed := by
    intro p hp
    rw [tiles_append, List.mem_append] at hp
    rcases hp with hp | hp
    · exact ⟨(h.revealed p hp).1, k.known p (h.revealed p hp).2⟩
    · exact ⟨fun hknown => (k.revealed p hp).1 (h.known p hknown), (k.revealed p hp).2⟩
  discovered := by
    rw [k.discovered, h.discovered, tiles_append, List.length_append, Nat.add_assoc]
  items := by
    rw [items_append, ← List.append_assoc]
    exact k.items.trans (h.items.append_right _)
  credits := by
    rw [k.credits, h.credits, h.income, items_append, claims_append, bonuses_append, List.map_append,
      List.sum_append, List.sum_append, List.length_append]
    push_cast
    rw [Int.mul_add]
    omega
  bonus := h.bonus_trans k

/-- Tiles become known that count as discoveries, and perhaps are paid for. -/
theorem of_revealed {gs : List Gain} {new : List Position} (tiles : Gain.tiles gs = new) (items : Gain.items gs = [])
    (bonuses : Gain.bonuses gs = []) (entry : t.play.entry.credits = s.play.entry.credits)
    (income : t.play.board.income = s.play.board.income)
    (known : t.play.board.known.toList = s.play.board.known.toList ++ new)
    (discovered : t.play.discovered = s.play.discovered + new.length) (gathered : t.play.items = s.play.items)
    (credits : t.credits = s.credits + s.play.board.income * (claims gs).length)
    (finished : t.play.finished = s.play.finished) : Accounts gs s t := by
  -- the known tiles are listed once each, so those at the end were not known before
  have hnodup := t.play.board.known.nodup
  rw [known, List.nodup_append] at hnodup
  have hknown : ∀ p, p ∈ t.play.board.known ↔ p ∈ s.play.board.known ∨ p ∈ new := by
    intro p
    rw [Distinct.mem_def, known, List.mem_append]
    rfl
  refine ⟨entry, income, fun p hp => (hknown p).2 (.inl hp), ?_, ?_, ?_, ?_, ?_, .unpaid finished bonuses⟩
  · rw [tiles]
    exact hnodup.2.1
  · rw [tiles]
    exact fun p hp => ⟨fun hold => hnodup.2.2 p hold p hp rfl, (hknown p).2 (.inr hp)⟩
  · rw [tiles, discovered]
  · rw [items, Session.gathered, gathered]
    exact List.Perm.of_eq (List.append_nil _).symm
  · rw [items, bonuses, credits]
    simp

end Accounts

/-! ## What is gained where -/

/-- An item that is collected is the one gain, and its worth is paid. -/
theorem accounts_collect {s : Session σ} {p : Position} {i : Item} {items : ItemStore}
    (found : s.play.items.collectAt p = (some i, items)) :
    Accounts [.item i] s ((s.onPlay fun play => { play with items := items }).applyItem i) := by
  obtain ⟨timeSlow, he⟩ := (s.onPlay fun play => { play with items := items }).applyItem_spec i
  have hgathered : items.gathered.Perm (s.gathered ++ [i]) :=
    (ItemStore.gathered_of_collectAt found).trans (List.perm_append_singleton i _).symm
  have hcredits : s.credits + i.worth = s.credits + ([i].map Item.worth).sum + s.play.board.income * 0 + 0 := by simp
  rw [he]
  exact
    { entry := rfl
      income := rfl
      known := fun _ hp => hp
      once := List.nodup_nil
      revealed := fun _ hp => (List.not_mem_nil hp).elim
      discovered := rfl
      items := hgathered
      credits := hcredits
      bonus := .unpaid rfl rfl }

/-- A grab collects what is in reach and then claims what is in reach; all else is for the record. -/
theorem grab_play (s : Session σ) :
    s.grab.1.play = ((collectAll s.reach s).1.claim (collectAll s.reach s).1.reach).1.play ∧
      s.grab.1.credits = ((collectAll s.reach s).1.claim (collectAll s.reach s).1.reach).1.credits := by
  simp only [grab]
  split <;> exact ⟨rfl, rfl⟩

theorem accounts_collectAll (ps : List Position) (s : Session σ) :
    Accounts ((collectAll ps s).2.map .item) s (collectAll ps s).1 := by
  induction ps generalizing s with
  | nil => exact .of_play rfl rfl
  | cons p ps ih =>
    rcases hc : s.play.items.collectAt p with ⟨_ | i, items⟩
    · simp only [collectAll, hc]
      exact ih s
    · simp only [collectAll, hc]
      exact (accounts_collect hc).trans (ih _)

/-- The tiles that are claimed are discoveries, and are paid for. -/
theorem accounts_claim (s : Session σ) (ps : List Position) :
    Accounts ((s.revealed (s.claim ps).1).map .claimed) s (s.claim ps).1 := by
  obtain ⟨new, hknown, hlength⟩ := s.play.board.revealAll_known ps
  have hrevealed : s.revealed (s.claim ps).1 = new := revealed_of_append hknown
  have hincome : (s.claim ps).1.play.board.income = s.play.board.income := (Board.revealAll_develops _ ps).income
  have hclaims : claims (new.map .claimed) = new := by simp [claims, List.filterMap_map]
  have hcredits : (s.claim ps).1.credits = s.credits + s.play.board.income * new.length := by
    have hpaid : (s.claim ps).1.credits =
        s.credits + s.play.board.countHidden ps * (s.claim ps).1.play.board.income := rfl
    rw [hpaid, hincome, hlength, Int.mul_comm]
  rw [hrevealed]
  refine .of_revealed ?_ ?_ ?_ rfl hincome hknown ?_ rfl ?_ rfl
  · simp [tiles, List.filterMap_map]
  · simp [Gain.items, List.filterMap_map]
  · simp [bonuses, List.filterMap_map]
  · rw [hlength]
    rfl
  · rw [hclaims, hcredits]

/-- A tile that is scanned is a discovery unless it is known, and nothing is paid for it. -/
theorem scan_revealed (s : Session σ) (p : Position) {t : Session σ}
    (scans : t = s.onPlay fun play =>
      { play with
        board := play.board.reveal p
        discovered := play.discovered + if s.play.board.isHidden p then 1 else 0 }) :
    ∃ new, t.play.board.known.toList = s.play.board.known.toList ++ new ∧ Accounts (new.map .scanned) s t := by
  obtain ⟨new, hknown, hlength⟩ := s.play.board.revealAll_known [p]
  subst scans
  refine ⟨new, hknown, .of_revealed ?_ ?_ ?_ rfl (Board.revealAll_develops _ [p]).income hknown ?_ rfl ?_ rfl⟩
  · simp [tiles, List.filterMap_map]
  · simp [Gain.items, List.filterMap_map]
  · simp [bonuses, List.filterMap_map]
  · rw [hlength]
    rfl
  · simp [claims, List.filterMap_map, onPlay]

theorem scanAll_revealed (ps : List Position) (s : Session σ) :
    ∃ new, (scanAll ps s).1.play.board.known.toList = s.play.board.known.toList ++ new ∧
      Accounts (new.map .scanned) s (scanAll ps s).1 := by
  induction ps generalizing s with
  | nil => exact ⟨[], (List.append_nil _).symm, .of_play rfl rfl⟩
  | cons p ps ih =>
    simp only [scanAll]
    split
    · exact ⟨[], (List.append_nil _).symm, .of_play rfl rfl⟩
    · obtain ⟨first, hfirst, hscanned⟩ := s.scan_revealed p rfl
      obtain ⟨rest, hrest, hlater⟩ := ih _
      refine ⟨first ++ rest, ?_, ?_⟩
      · rw [← List.append_assoc, ← hfirst]
        exact hrest
      · rw [List.map_append]
        exact hscanned.trans hlater

theorem accounts_scan (s : Session σ) (step : Position) :
    Accounts (Recorder.gains.scan s step) s (s.scanning step).1 := by
  obtain ⟨new, hknown, hscanned⟩ :=
    scanAll_revealed (s.play.robot.scannerTiles step s.play.board.width s.play.board.height) s
  have hrevealed : s.revealed (s.scanning step).1 = new := revealed_of_append hknown
  have hgains : Recorder.gains.scan s step = new.map .scanned := congrArg (List.map Gain.scanned) hrevealed
  rw [hgains]
  exact hscanned

/-- Completing the level pays the bonus, and that is all. -/
theorem accounts_check (s : Session σ) : Accounts (Recorder.gains.check s) s s.checkCompletion := by
  by_cases now : s.play.finished = false ∧ s.isComplete = true
  · obtain ⟨unfinished, complete⟩ := now
    have hgains : Recorder.gains.check s = [.bonus s.play.discovered] := by
      simp [Recorder.gains, unfinished, complete]
    have hchecked : s.checkCompletion = s.finish := by
      simp [checkCompletion, unfinished, complete]
    have hcredits : s.credits + s.play.discovered = s.credits + (([] : List Item).map Item.worth).sum +
        s.play.board.income * 0 + ([s.play.discovered].sum : Nat) := by simp
    rw [hgains, hchecked]
    exact
      { entry := rfl
        income := rfl
        known := fun _ hp => hp
        once := List.nodup_nil
        revealed := fun _ hp => (List.not_mem_nil hp).elim
        discovered := rfl
        items := List.Perm.of_eq (List.append_nil _).symm
        credits := hcredits
        bonus := .paid [] [] unfinished rfl rfl rfl rfl }
  · have hgains : Recorder.gains.check s = [] := by
      refine if_neg fun h => now ?_
      simpa using h
    have hchecked : s.checkCompletion = s := by
      unfold checkCompletion
      split
      · rfl
      · rename_i unfinished
        exact if_neg fun complete => now ⟨by simpa using unfinished, complete⟩
    rw [hgains, hchecked]
    exact .of_play rfl rfl

variable [WordSource σ]

/-! ## What commands come to -/

/-- Nothing is gained but by collecting, claiming, scanning and completing the level. -/
theorem Step.accounts {d : Deed} {s t : Session σ} (h : Step s d t)
    (other : d ∉ [Deed.collect, .claim, .scan, .finish]) : Accounts [] s t := by
  have hp := h.progress
  have hentry : t.play.entry.credits = s.play.entry.credits := by rw [hp.entry]
  cases h with
  | collect | claim | scan | finish => exact absurd (by decide) other
  | _ => exact .still hentry hp.board.income hp.board.known rfl rfl rfl rfl

theorem StepsOf.accounts {ds : List Deed} {s t : Session σ} (h : StepsOf ds s t)
    (other : ∀ d ∈ ds, d ∉ [Deed.collect, .claim, .scan, .finish] := by decide) : Accounts [] s t := by
  induction h with
  | refl => exact .of_play rfl rfl
  | tail _ hstep ih =>
    obtain ⟨d, hd, hstep⟩ := hstep
    exact ih.trans (hstep.accounts (other d hd))

theorem accounts_grab (s : Session σ) : Accounts (Recorder.gains.grab s) s s.grab.1 := by
  -- the items come first, and may extend the reach, but make no tile known
  have hknown : (collectAll s.reach s).1.play.board.known = s.play.board.known := by
    refine (collectAll_steps s.reach s).unchanged (·.play.board.known) fun hd hstep => ?_
    cases hstep with
    | collect found =>
      rename_i p i items
      obtain ⟨timeSlow, he⟩ := (onPlay _ fun play => { play with items := items }).applyItem_spec i
      rw [he]
      rfl
    | _ => simp at hd
  have hcollected := accounts_collectAll s.reach s
  have hclaimed := accounts_claim (collectAll s.reach s).1 (collectAll s.reach s).1.reach
  have htold := s.grab_play
  have hrevealed : s.revealed s.grab.1 = (collectAll s.reach s).1.revealed
      ((collectAll s.reach s).1.claim (collectAll s.reach s).1.reach).1 := by
    rw [Session.revealed, Session.revealed, htold.1, hknown]
  have hall := (hcollected.trans hclaimed).trans (.of_play htold.1 htold.2)
  rw [List.append_nil, ← hrevealed] at hall
  exact hall

theorem accounts_endTurn {s : Session σ} (clear : s.endTurn.collided = false) : Accounts [] s s.endTurn :=
  ((endTurn_outcome s).steps clear).accounts

/-- What is gained by a command accounts for all that has changed. -/
theorem accounts_tracks : (Recorder.gains : Recorder σ Gain).Tracks Accounts where
  records := .of_play
  trans := .trans
  step := fun hstep plain => hstep.accounts fun hd => plain (by revert hd; cases hstep <;> decide)
  grab := accounts_grab
  scan := fun s h => accounts_scan s h.step
  turn := fun clear => accounts_endTurn clear
  check := accounts_check

/-- Nothing is gained by a shot. -/
theorem accounts_shot {v : Visit σ} {o : Session σ × Reply} (fires : v.Fires o) : Accounts [] v.before.apart o.1 :=
  (fires_steps fires).accounts

end Session

end ScriptedRobot
