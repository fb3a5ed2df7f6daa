import Mathlib
import ScriptedRobot.Proofs.RunLog.Turns
import ScriptedRobot.Session.View

/-!
# What sessions record

The free values in the payload of a session are flat: words, integers and texts, and lists of these. So nothing
in it is ever left out or refused when it is recorded, but for integers that are too long to be written.
-/

namespace ScriptedRobot

namespace Json

/-- Is the value a word, an integer or a text? -/
def IsScalar : Json → Prop
  | null | bool _ | int _ | str _ => True
  | _ => False

/-- The value is a scalar or a list of scalars. -/
inductive IsFlat : Json → Prop
  | scalar (value : Json) (scalar : value.IsScalar) : IsFlat value
  | array (elements : List Json) (scalars : ∀ value ∈ elements, value.IsScalar) : IsFlat (arr elements)

variable {value : Json}

theorem IsScalar.isProper (h : value.IsScalar) : value.IsProper := by
  cases value with
  | null => exact .null
  | bool b => exact .bool b
  | int n => exact .int n
  | str s => exact .str s
  | _ => exact absurd h id

theorem IsScalar.finiteOnly (h : value.IsScalar) : value.finiteOnly = value := by
  cases value with
  | float | arr | obj => exact absurd h id
  | _ => rfl

theorem IsScalar.depth (h : value.IsScalar) : value.depth = 1 := by
  cases value with
  | arr | obj => exact absurd h id
  | _ => rfl

theorem IsScalar.nesting (h : value.IsScalar) : value.nesting = 0 := by
  cases value with
  | arr | obj => exact absurd h id
  | _ => rfl

theorem IsFlat.isProper (h : value.IsFlat) : value.IsProper := by
  cases h with
  | scalar _ h => exact h.isProper
  | array elements h => exact .arr elements fun element helement => (h element helement).isProper

theorem IsFlat.finiteOnly (h : value.IsFlat) : value.finiteOnly = value := by
  cases h with
  | scalar _ h => exact h.finiteOnly
  | array elements h =>
    have hsame : elements.map Json.finiteOnly = elements.map id :=
      List.map_congr_left fun element helement => (h element helement).finiteOnly
    rw [Json.finiteOnly, finiteElements_eq, hsame, List.map_id]

theorem IsFlat.depth_le (h : value.IsFlat) : value.depth ≤ 2 := by
  cases h with
  | scalar _ h => rw [h.depth]; decide
  | array elements h =>
    have hall : elementsDepth elements ≤ 1 := by
      induction elements with
      | nil => exact Nat.zero_le 1
      | cons first rest ih =>
        obtain ⟨hfirst, hrest⟩ := List.forall_mem_cons.1 h
        rw [elementsDepth]
        exact max_le hfirst.depth.le (ih hrest)
    rw [Json.depth]
    omega

theorem IsFlat.nesting_le (h : value.IsFlat) : value.nesting ≤ 1 := by
  cases h with
  | scalar _ h => rw [h.nesting]; decide
  | array elements h => exact nesting_array_le fun element helement => (h element helement).nesting.le

/-- The fields have different keys and flat values. -/
def FlatFields (fields : List (String × Json)) : Prop :=
  (fields.map Prod.fst).Nodup ∧ ∀ field ∈ fields, field.2.IsFlat

theorem FlatFields.isProper {fields : List (String × Json)} (h : FlatFields fields) : (obj fields).IsProper :=
  .obj fields h.1 fun field hfield => (h.2 field hfield).isProper

theorem FlatFields.finiteFields_eq {fields : List (String × Json)} (h : FlatFields fields) :
    finiteFields fields = fields := by
  have hsame : fields.map (fun field => (field.1, field.2.finiteOnly)) = fields.map id :=
    List.map_congr_left fun field hfield => by rw [(h.2 field hfield).finiteOnly]; rfl
  rw [Json.finiteFields_eq, hsame, List.map_id]

theorem isFlat_position (p : Position) : (Schema.positionJson p).IsFlat := by
  refine .array _ ?_
  simp only [List.forall_mem_cons]
  exact ⟨trivial, trivial, by simp⟩

theorem isFlat_orNull (n : Option Int) : (orNull int n).IsFlat := by
  cases n with
  | none => exact .scalar _ trivial
  | some n => exact .scalar _ trivial

theorem flatFields_nil : FlatFields [] := ⟨List.nodup_nil, fun _ h => by cases h⟩

theorem FlatFields.cons {key : String} {value : Json} {fields : List (String × Json)} (h : FlatFields fields)
    (new : key ∉ fields.map Prod.fst) (flat : value.IsFlat) : FlatFields ((key, value) :: fields) :=
  ⟨List.nodup_cons.2 ⟨new, h.1⟩, List.forall_mem_cons.2 ⟨flat, h.2⟩⟩

theorem FlatFields.single (key : String) {value : Json} (flat : value.IsFlat) : FlatFields [(key, value)] :=
  flatFields_nil.cons (by simp) flat

end Json

open Json

/-! ## Turns with flat values -/

/-- The free values of the turn are flat. -/
structure TurnPayload.IsFlat (p : TurnPayload) : Prop where
  events : ∀ events ∈ p.events, ∀ e ∈ events, FlatFields e.payload
  scratch : ∀ e ∈ p.state.enemies, FlatFields e.scratch

namespace TurnPayload.IsFlat

variable {p : TurnPayload} (h : p.IsFlat)

include h

theorem isProper : p.IsProper :=
  ⟨fun events hevents e he => (h.events events hevents e he).isProper, fun e he => (h.scratch e he).isProper⟩

theorem finiteOnly : p.finiteOnly = p := by
  obtain ⟨turn, result, state, events⟩ := p
  have henemies : state.enemies.map EnemySnapshot.finiteOnly = state.enemies.map id :=
    List.map_congr_left fun e he => by
      rw [EnemySnapshot.finiteOnly, (h.scratch e he).finiteFields_eq]
      rfl
  have hevents : events.map (fun events => events.map EventRecord.finiteOnly) = events := by
    cases events with
    | none => rfl
    | some events =>
      have hsame : events.map EventRecord.finiteOnly = events.map id :=
        List.map_congr_left fun e he => by
          rw [EventRecord.finiteOnly, (h.events events rfl e he).finiteFields_eq]
          rfl
      rw [Option.map_some, hsame, List.map_id]
  rw [TurnPayload.finiteOnly]
  simp only [henemies, hevents, List.map_id]

theorem freeValues : ∀ value ∈ p.freeValues, value.IsFlat := by
  intro value hvalue
  rcases List.mem_append.1 hvalue with hvalue | hvalue
  · obtain ⟨e, he, hvalue⟩ := List.mem_flatMap.1 hvalue
    obtain ⟨field, hfield, rfl⟩ := List.mem_map.1 hvalue
    cases hsome : p.events with
    | none =>
      rw [hsome] at he
      cases he
    | some events =>
      rw [hsome] at he
      exact (h.events events hsome e he).2 field hfield
  · obtain ⟨e, he, hvalue⟩ := List.mem_flatMap.1 hvalue
    obtain ⟨field, hfield, rfl⟩ := List.mem_map.1 hvalue
    exact (h.scratch e he).2 field hfield

end TurnPayload.IsFlat

/-! ## Payloads of sessions -/

theorem Event.record_flat (event : Event) : FlatFields event.record.payload := by
  cases event with
  | executed kind answer => exact .single _ (.scalar _ trivial)
  | itemsCollected names => exact .single _ (.array _ (List.forall_mem_map.2 fun _ _ => trivial))
  | enemyMoved move =>
    have hto := FlatFields.single "to" (isFlat_position move.new)
    have hfrom : FlatFields [("from", Schema.positionJson move.old), ("to", Schema.positionJson move.new)] :=
      hto.cons (by simp) (isFlat_position move.old)
    exact hfrom.cons (by simp) (.scalar _ trivial)
  | collision level => exact .single _ (.scalar _ trivial)
  | levelComplete level name => exact (FlatFields.single _ (.scalar (.str name) trivial)).cons (by simp) (.scalar _ trivial)
  | halted answer => exact .single _ (.scalar _ trivial)

theorem Strategy.scratch_flat (strategy : Strategy) : FlatFields strategy.scratch := by
  cases strategy with
  | idle => exact flatFields_nil
  | random => exact flatFields_nil
  | bounce axis positive =>
    exact (FlatFields.single _ (.scalar (.bool positive) trivial)).cons (by simp) (isFlat_position axis)
  | circular turn => exact .single _ (.scalar _ trivial)
  | spiral turn leg walked =>
    have hlast := FlatFields.single "current_step" (.scalar (.int walked) trivial)
    have hleg : FlatFields [("steps_in_direction", .int leg), ("current_step", .int walked)] :=
      hlast.cons (by simp) (.scalar _ trivial)
    exact hleg.cons (by simp) (.scalar _ trivial)
  | chase chasing => exact .single _ (.scalar _ trivial)
  | guard turn postX postY =>
    have hlast := FlatFields.single "center_y" (isFlat_orNull postY)
    have hpost : FlatFields [("center_x", orNull int postX), ("center_y", orNull int postY)] :=
      hlast.cons (by simp) (isFlat_orNull postX)
    exact hpost.cons (by simp) (.scalar _ trivial)

namespace Session

variable {σ : Type}

/-- Whatever a session is in the middle of, the free values of its payload are flat. -/
theorem payload_flat (s : Session σ) : s.payload.IsFlat := by
  refine ⟨?_, ?_⟩
  · intro events hevents e he
    simp only [payload, Option.mem_def, Option.ite_none_left_eq_some, Option.some.injEq] at hevents
    obtain ⟨-, rfl⟩ := hevents
    obtain ⟨event, -, rfl⟩ := List.mem_map.1 he
    exact event.record_flat
  · intro e he
    obtain ⟨⟨enemy, index⟩, -, rfl⟩ := List.mem_map.1 he
    exact enemy.strategy.scratch_flat

end Session

end ScriptedRobot
