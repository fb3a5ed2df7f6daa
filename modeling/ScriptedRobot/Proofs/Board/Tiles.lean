import Mathlib.Data.Finset.Card
import ScriptedRobot.Proofs.Board.Growth

/-!
# Counting tiles

`allTiles` lists every tile of a board once. So on a well-formed board there are as many known tiles to
walk on as there are tiles to walk on exactly when each of these is known (`walkable_known_iff`).
-/

namespace ScriptedRobot

theorem mem_integers {low high x : Int} : x ∈ integers low high ↔ low ≤ x ∧ x ≤ high := by
  simp only [integers, List.mem_map, List.mem_range]
  constructor
  · rintro ⟨i, hi, rfl⟩
    omega
  · rintro ⟨h1, h2⟩
    exact ⟨(x - low).toNat, by omega, by omega⟩

theorem length_integers (low high : Int) : (integers low high).length = (high - low + 1).toNat := by
  simp [integers]

/-- Distinct members that all belong to another set are no more than that set has. -/
theorem Distinct.size_le_of_subset {α : Type} {s t : Distinct α} (h : ∀ a ∈ s, a ∈ t) :
    s.size ≤ t.size :=
  (List.subperm_of_subset s.nodup h).length_le

/-- A new member comes in at the end. -/
theorem Distinct.toList_insert {α : Type} [DecidableEq α] {s : Distinct α} {a : α} (h : a ∉ s) :
    (s.insert a).toList = s.toList ++ [a] := congrArg Distinct.toList (dif_neg h)

namespace Board

/-- Revealing tiles adds as many of them to the known ones as are counted. -/
theorem revealAll_known (b : Board) (ps : List Position) :
    ∃ new, (b.revealAll ps).known.toList = b.known.toList ++ new ∧ new.length = b.countHidden ps := by
  induction ps generalizing b with
  | nil => exact ⟨[], (List.append_nil _).symm, rfl⟩
  | cons p ps ih =>
    obtain ⟨new, hknown, hlength⟩ := ih (b.reveal p)
    by_cases hidden : b.isHidden p = true
    · have hunknown : p ∉ b.known := by
        simp only [isHidden, Bool.and_eq_true, decide_eq_true_eq] at hidden
        exact hidden.2
      have hfirst : (b.reveal p).known.toList = b.known.toList ++ [p] := by
        rw [reveal, if_pos hidden]
        exact Distinct.toList_insert hunknown
      refine ⟨p :: new, ?_, ?_⟩
      · rw [revealAll, List.foldl_cons, ← revealAll, hknown, hfirst, List.append_assoc, List.singleton_append]
      · rw [countHidden, if_pos hidden, List.length_cons, hlength, Nat.add_comm]
    · have hfirst : b.reveal p = b := if_neg hidden
      refine ⟨new, ?_, ?_⟩
      · rw [revealAll, List.foldl_cons, ← revealAll, hknown, hfirst]
      · rw [countHidden, if_neg hidden, hlength, hfirst, Nat.zero_add]

theorem mem_allTiles {width height : Int} {p : Position} :
    p ∈ allTiles width height ↔ inside width height p = true := by
  simp only [allTiles, List.mem_flatMap, List.mem_map, mem_integers, inside_iff]
  constructor
  · rintro ⟨x, ⟨hx, hx'⟩, y, ⟨hy, hy'⟩, rfl⟩
    exact ⟨⟨hx, Int.lt_of_le_sub_one hx'⟩, hy, Int.lt_of_le_sub_one hy'⟩
  · rintro ⟨⟨hx, hx'⟩, hy, hy'⟩
    exact ⟨p.x, ⟨hx, Int.le_sub_one_of_lt hx'⟩, p.y, ⟨hy, Int.le_sub_one_of_lt hy'⟩, rfl⟩

theorem length_allTiles (width height : Int) :
    (allTiles width height).length = width.toNat * height.toNat := by
  simp [allTiles, List.length_flatMap, length_integers]

/-- The tiles that are no blockers. -/
def walkableTiles (b : Board) : List Position := (allTiles b.width b.height).filter (· ∉ b.blockers)

theorem mem_walkableTiles {b : Board} {p : Position} :
    p ∈ b.walkableTiles ↔ b.inBounds p = true ∧ p ∉ b.blockers := by
  simp [walkableTiles, mem_allTiles, inBounds]

theorem nodup_walkableTiles (b : Board) : b.walkableTiles.Nodup :=
  (nodup_allTiles b.width b.height).filter _

/-- The number of tiles less the number of blockers counts the tiles that are no blockers, as the
blockers all stand on the board. -/
theorem WellFormed.length_walkableTiles {b : Board} (h : b.WellFormed) :
    (b.walkableTiles.length : Int) = b.walkableCount := by
  have hsplit := List.length_eq_length_filter_add (l := allTiles b.width b.height) (· ∈ b.blockers)
  have hblocked : ((allTiles b.width b.height).filter (· ∈ b.blockers)).length = b.blockers.size := by
    refine List.Perm.length_eq ((List.perm_ext_iff_of_nodup ?_ b.blockers.nodup).2 fun p => ?_)
    · exact (nodup_allTiles b.width b.height).filter _
    · simp only [List.mem_filter, mem_allTiles, decide_eq_true_eq]
      exact ⟨fun hp => hp.2, fun hp => ⟨h.blockers_inside p hp, hp⟩⟩
  have hopen : (allTiles b.width b.height).filter (fun p => !decide (p ∈ b.blockers)) = b.walkableTiles := by
    simp [walkableTiles]
  have hw := h.width_pos
  have hh := h.height_pos
  have harea : ((b.width.toNat * b.height.toNat : Nat) : Int) = b.width * b.height := by
    rw [Int.natCast_mul, Int.toNat_of_nonneg hw.le, Int.toNat_of_nonneg hh.le]
  rw [length_allTiles, hblocked, hopen] at hsplit
  unfold walkableCount
  omega

/-- The known tiles to walk on are as many as the tiles to walk on exactly when each of these is
known. -/
theorem WellFormed.walkable_known_iff {b : Board} (h : b.WellFormed) :
    b.walkableCount ≤ (b.knownWalkable : Int) ↔
      ∀ p, b.inBounds p = true → p ∉ b.blockers → p ∈ b.known := by
  have hknown : ∀ {p}, p ∈ b.known.filter (· ∉ b.blockers) ↔ p ∈ b.known ∧ p ∉ b.blockers := by
    simp
  have hsub : (b.known.filter (· ∉ b.blockers)).toList ⊆ b.walkableTiles := fun p hp =>
    mem_walkableTiles.2 ⟨h.known_inside p (hknown.1 hp).1, (hknown.1 hp).2⟩
  have hperm := List.subperm_of_subset (b.known.filter (· ∉ b.blockers)).nodup hsub
  rw [← h.length_walkableTiles]
  constructor
  · intro hle p hp hb
    have hall := hperm.perm_of_length_le (Int.ofNat_le.1 hle)
    exact (hknown.1 (hall.symm.subset (mem_walkableTiles.2 ⟨hp, hb⟩))).1
  · intro hall
    have hback : b.walkableTiles ⊆ (b.known.filter (· ∉ b.blockers)).toList := fun p hp =>
      hknown.2 ⟨hall p (mem_walkableTiles.1 hp).1 (mem_walkableTiles.1 hp).2, (mem_walkableTiles.1 hp).2⟩
    exact Int.ofNat_le.2 (List.subperm_of_subset b.nodup_walkableTiles hback).length_le

end Board

end ScriptedRobot
