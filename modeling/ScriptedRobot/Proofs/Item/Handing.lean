import ScriptedRobot.Proofs.Session.Collecting

/-!
# Handing out items

A store is used by placing new items and by collecting on tiles, in any order. Of the items placed on a tile the first
ones have been handed out, in the order in which they were placed, and the others still lie there (`Dealt`). Each use
keeps that (`Dealt.run`), and so do all of them together (`handed_in_order`).
-/

namespace ScriptedRobot

namespace Item

/-- The item as it was when it was placed. -/
def asPlaced (i : Item) : Item := { i with collected := false }

/-- Those of some items that belong to a tile. -/
def onTile (p : Position) (is : List Item) : List Item := is.filter (·.position == p)

theorem asPlaced_taken {i : Item} (new : i.collected = false) : i.taken.asPlaced = i := by
  obtain ⟨name, place, gives, collected⟩ := i
  cases new
  rfl

theorem onTile_append (p : Position) (is js : List Item) : onTile p (is ++ js) = onTile p is ++ onTile p js :=
  List.filter_append ..

theorem liesAt_of_new {i : Item} (new : i.collected = false) (p : Position) : i.liesAt p = (i.position == p) := by
  simp [liesAt, new]

end Item

/-- What comes in at the end stays there if everything that is taken out was there before. -/
theorem diff_concat {α : Type} [BEq α] [LawfulBEq α] {as bs : List α} (h : bs.Subperm as) (a : α) :
    (as ++ [a]).diff bs = as.diff bs ++ [a] := by
  induction bs generalizing as with
  | nil => rfl
  | cons b bs ih =>
    have hb : b ∈ as := h.subset List.mem_cons_self
    have hbs : bs.Subperm (as.erase b) := by
      have herase := h.erase b
      rwa [List.erase_cons_head] at herase
    rw [List.diff_cons, List.diff_cons, List.erase_append_left _ hb, ih hbs]

theorem nodup_eraseDups {α : Type} [BEq α] [LawfulBEq α] (as : List α) : as.eraseDups.Nodup := by
  match as with
  | [] => exact List.nodup_nil
  | a :: as =>
    rw [List.eraseDups_cons, List.nodup_cons]
    exact ⟨by simp, nodup_eraseDups _⟩
termination_by as.length
decreasing_by exact Nat.lt_succ_of_le (List.length_filter_le _ _)

namespace ItemStore

theorem collectAt_fst (s : ItemStore) (p : Position) : (s.collectAt p).1 = (s.itemAt? p).map Item.taken := by
  unfold collectAt
  cases s.itemAt? p <;> rfl

/-- What is collected on a tile is the first item that lies there. -/
theorem lying_of_found {s t : ItemStore} {p : Position} {i : Item} (found : s.collectAt p = (some i, t)) :
    s.lying p = i.asPlaced :: (s.lying p).tail := by
  obtain ⟨j, hj, rfl⟩ := itemAt?_of_collectAt found
  rw [itemAt?_eq_head?] at hj
  have hlies : j.liesAt p = true := (List.mem_filter.1 (List.mem_of_mem_head? hj)).2
  rw [Item.asPlaced_taken (Item.liesAt_iff.1 hlies).2]
  exact (List.cons_head?_tail hj).symm

/-- What is collected lies about no longer. No item before it is the same, as that one would be found first. -/
theorem active_of_found {s t : ItemStore} {p : Position} {i : Item} (found : s.collectAt p = (some i, t)) :
    t.active = s.active.erase i.asPlaced := by
  obtain ⟨before, j, after, hs, ht, rfl, lies, others⟩ := collectAt_split found
  have hnew : j.collected = false := (Item.liesAt_iff.1 lies).2
  have hback : Item.asPlaced { j with collected := true } = j := Item.asPlaced_taken hnew
  have habsent : j ∉ before.filter fun k => !k.collected := by
    intro hj
    rw [others j (List.mem_of_mem_filter hj)] at lies
    cases lies
  rw [hback]
  simp only [active, hs, ht, List.filter_append, List.filter_cons, hnew]
  rw [List.erase_append_right _ habsent]
  simp

/-- What is done with a store. -/
inductive Use where
  /-- A new item is placed. -/
  | add (i : Item) (new : i.collected = false)
  /-- The next item on a tile is collected, if there is one. -/
  | collect (p : Position)

namespace Use

/-- Does it to a store: what is handed out, if anything, and the store as it is then. -/
def run : Use → ItemStore → Option Item × ItemStore
  | add i _, s => (none, s.add i)
  | collect p, s => s.collectAt p

/-- The item that is placed. -/
def placed? : Use → Option Item
  | add i _ => some i
  | collect _ => none

/-- The items that are placed, in order. -/
def placed (us : List Use) : List Item := us.filterMap placed?

/-- The items that are handed out when a store is used, in order and as they were placed. -/
def handed : List Use → ItemStore → List Item
  | [], _ => []
  | u :: us, s => ((u.run s).1.map Item.asPlaced).toList ++ handed us (u.run s).2

/-- Those of them that are handed out by collecting on one tile. -/
def handedOn (p : Position) : List Use → ItemStore → List Item
  | [], _ => []
  | add i new :: us, s => handedOn p us ((add i new).run s).2
  | collect q :: us, s =>
    (if q = p then ((s.collectAt q).1.map Item.asPlaced).toList else []) ++ handedOn p us (s.collectAt q).2

/-- The store when it has been used. -/
def runAll (us : List Use) (s : ItemStore) : ItemStore := us.foldl (fun s u => (u.run s).2) s

end Use

/-- How a store stands to what has been placed in it and what has been handed out. -/
structure Dealt (placed handed : List Item) (s : ItemStore) : Prop where
  /-- The first items of a tile have been handed out, and the others lie there. -/
  tile : ∀ p, Item.onTile p placed = Item.onTile p handed ++ s.lying p
  /-- Every item has been handed out or still lies about. -/
  whole : placed.Perm (handed ++ s.active)
  /-- Those that lie about are in the order in which they were placed. -/
  active : s.active = placed.diff handed
  /-- What has been handed out is what counts as collected. -/
  gathered : (handed.map (·.name)).Perm (s.gathered.map (·.name))

namespace Dealt

variable {placed handed : List Item} {s t : ItemStore}

theorem empty : Dealt [] [] {} := ⟨fun _ => rfl, .nil, rfl, .nil⟩

theorem add (h : Dealt placed handed s) {i : Item} (new : i.collected = false) :
    Dealt (placed ++ [i]) handed (s.add i) := by
  have hactive : (s.add i).active = s.active ++ [i] := by simp [ItemStore.active, ItemStore.add, new]
  have hgathered : (s.add i).gathered = s.gathered := by simp [ItemStore.gathered, ItemStore.add, new]
  refine ⟨fun p => ?_, ?_, ?_, ?_⟩
  · have hlying : (s.add i).lying p = s.lying p ++ Item.onTile p [i] := by
      rw [ItemStore.lying, ItemStore.add, List.filter_append, ItemStore.lying]
      simp [Item.onTile, List.filter_cons, Item.liesAt_of_new new p]
    rw [Item.onTile_append, h.tile p, hlying, List.append_assoc]
  · rw [hactive, ← List.append_assoc]
    exact h.whole.append_right [i]
  · have hhanded : handed.Subperm placed :=
      (List.sublist_append_left handed s.active).subperm.trans h.whole.symm.subperm
    rw [hactive, h.active, diff_concat hhanded]
  · rw [hgathered]
    exact h.gathered

theorem collect (h : Dealt placed handed s) {p : Position} {i : Item} (found : s.collectAt p = (some i, t)) :
    Dealt placed (handed ++ [i.asPlaced]) t := by
  have hfirst := lying_of_found found
  have hmem : i.asPlaced ∈ s.lying p := by
    rw [hfirst]
    exact List.mem_cons_self
  obtain ⟨hitem, hlies⟩ := List.mem_filter.1 hmem
  obtain ⟨hplace, hnew⟩ := Item.liesAt_iff.1 hlies
  have hactive := active_of_found found
  refine ⟨fun q => ?_, ?_, ?_, ?_⟩
  · rw [Item.onTile_append, h.tile q, lying_of_collectAt found q]
    by_cases hq : q = p
    · subst hq
      have hthere : Item.onTile q [i.asPlaced] = [i.asPlaced] := by simp [Item.onTile, hplace]
      rw [if_pos rfl, List.append_assoc, hthere, List.singleton_append, ← hfirst]
    · have helsewhere : Item.onTile q [i.asPlaced] = [] := by simp [Item.onTile, hplace, Ne.symm hq]
      rw [if_neg hq, helsewhere, List.append_nil]
  · have hlay : i.asPlaced ∈ s.active := List.mem_filter.2 ⟨hitem, by rw [hnew]; rfl⟩
    rw [hactive, List.append_assoc, List.singleton_append]
    exact h.whole.trans ((List.perm_cons_erase hlay).append_left handed)
  · rw [hactive, h.active, List.diff_append, List.diff_cons, List.diff_nil]
  · have hmore : (t.gathered.map (·.name)).Perm (i.name :: s.gathered.map (·.name)) :=
      (gathered_of_collectAt found).map _
    rw [List.map_append, List.map_singleton]
    exact (List.perm_append_singleton _ _).trans ((h.gathered.cons _).trans hmore.symm)

/-- Whatever is done with a store keeps its books. -/
theorem run (h : Dealt placed handed s) (u : Use) :
    Dealt (placed ++ u.placed?.toList) (handed ++ ((u.run s).1.map Item.asPlaced).toList) (u.run s).2 := by
  cases u with
  | add i new =>
    have hnext := h.add new
    rwa [← List.append_nil handed] at hnext
  | collect p =>
    rcases hc : s.collectAt p with ⟨_ | i, t⟩
    · have hsame : t = s := by
        have hnone := collectAt_none hc
        rw [collectAt, hnone] at hc
        cases hc
        rfl
      simp only [Use.run, Use.placed?, hc, hsame]
      simpa using h
    · simp only [Use.run, Use.placed?, hc]
      simpa using h.collect hc

theorem runAll (h : Dealt placed handed s) (us : List Use) :
    Dealt (placed ++ Use.placed us) (handed ++ Use.handed us s) (Use.runAll us s) := by
  induction us generalizing placed handed s with
  | nil => simpa [Use.placed, Use.handed, Use.runAll] using h
  | cons u us ih =>
    have hrest := ih (h.run u)
    have hplaced : Use.placed (u :: us) = u.placed?.toList ++ Use.placed us := by
      cases u <;> rfl
    rw [hplaced, Use.handed, ← List.append_assoc, ← List.append_assoc]
    exact hrest

end Dealt

/-- What is handed out on a tile is what has been placed there. -/
theorem handedOn_eq (p : Position) (us : List Use) (s : ItemStore) :
    Use.handedOn p us s = Item.onTile p (Use.handed us s) := by
  induction us generalizing s with
  | nil => rfl
  | cons u us ih =>
    cases u with
    | add i new => exact ih _
    | collect q =>
      rw [Use.handedOn, Use.handed, Item.onTile_append, ih]
      refine congrArg (· ++ _) ?_
      rcases hc : s.collectAt q with ⟨_ | i, t⟩
      · simp [Use.run, hc, Item.onTile]
      · have hplace : i.asPlaced.position = q := by
          obtain ⟨before, j, after, -, -, rfl, lies, -⟩ := collectAt_split hc
          exact (Item.liesAt_iff.1 lies).1
        by_cases hq : q = p
        · subst hq
          simp [Use.run, hc, Item.onTile, hplace]
        · simp [Use.run, hc, Item.onTile, hplace, hq]

/-- However a store is used, the items handed out on a tile are the first that were placed there, in that order, and
the next one is the one that is shown there. No item is lost or handed out twice: those that lie about are the others,
in the order in which they were placed. The names that count as collected are those of the items handed out. -/
theorem handed_in_order (us : List Use) :
    (∀ p, Use.handedOn p us {} <+: Item.onTile p (Use.placed us) ∧
      (Use.runAll us {}).itemAt? p = (Item.onTile p (Use.placed us))[(Use.handedOn p us {}).length]? ∧
      ((Use.runAll us {}).collectAt p).1 = ((Use.runAll us {}).itemAt? p).map Item.taken) ∧
    (Use.placed us).Perm (Use.handed us {} ++ (Use.runAll us {}).active) ∧
    (Use.runAll us {}).active = (Use.placed us).diff (Use.handed us {}) ∧
    (Use.runAll us {}).collectedNames.Nodup ∧
    ∀ name, name ∈ (Use.runAll us {}).collectedNames ↔ name ∈ (Use.handed us {}).map (·.name) := by
  have hdealt : Dealt (Use.placed us) (Use.handed us {}) (Use.runAll us {}) := Dealt.empty.runAll us
  refine ⟨fun p => ⟨?_, ?_, collectAt_fst _ p⟩, hdealt.whole, hdealt.active, nodup_eraseDups _, fun name => ?_⟩
  · rw [handedOn_eq, hdealt.tile p]
    exact List.prefix_append _ _
  · rw [handedOn_eq, hdealt.tile p, itemAt?_eq_head?, List.getElem?_append_right (Nat.le_refl _), Nat.sub_self,
      List.head?_eq_getElem?]
  · rw [hdealt.gathered.mem_iff, collectedNames, List.mem_eraseDups]
    rfl

end ItemStore

end ScriptedRobot
