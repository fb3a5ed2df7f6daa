import Mathlib
import ScriptedRobot.RunLog
import ScriptedRobot.Proofs.Json.Reading

/-!
# Turns in records

What a turn is recorded as is read as that turn (`turnPayload_valid`), but for the numbers among its free values
that are not finite, which are recorded as null (`finiteOnly_turn`). It is a value that programs can hold if its
free values are, and it goes a few levels deeper than these.
-/

namespace ScriptedRobot

namespace Schema

variable {α : Type} {read : Reader α}

theorem list_valid {toJson : α → Json} (h : ∀ a, read (toJson a) = .valid a) (as : List α) :
    list read (.arr (as.map toJson)) = .valid as := by
  have hfrom : ∀ i, elementsFrom read i (as.map toJson) = .valid as := by
    induction as with
    | nil => exact fun i => rfl
    | cons a as ih =>
      intro i
      rw [List.map_cons, elementsFrom, h a, ih (i + 1)]
      rfl
  exact hfrom 0

theorem position_valid (p : Position) : position (positionJson p) = .valid p := rfl

theorem event_valid (e : EventRecord) : event (eventJson e) = .valid e := rfl

theorem enemySnapshot_valid (e : EnemySnapshot) : enemySnapshot (enemySnapshotJson e) = .valid e := rfl

theorem itemSnapshot_valid (i : ItemSnapshot) : itemSnapshot (itemSnapshotJson i) = .valid i := rfl

theorem strings_valid (texts : List String) : list string (Json.strings texts) = .valid texts := by
  have hstring : ∀ t : String, string (.str t) = .valid t := fun _ => rfl
  exact list_valid hstring texts

theorem positions_valid (ps : List Position) : list position (positionsJson ps) = .valid ps :=
  list_valid position_valid ps

theorem stateSnapshot_valid (s : StateSnapshot) : stateSnapshot (stateSnapshotJson s) = .valid s := by
  have henemies := list_valid enemySnapshot_valid s.enemies
  have hitems := list_valid itemSnapshot_valid s.items
  simp only [stateSnapshot, stateSnapshotJson, record, required, optional, List.lookup, String.reduceBEq, positions_valid,
    strings_valid, position_valid, integer, string, boolean, henemies, hitems, Checked.within]
  rfl

theorem events_valid (events : Option (List EventRecord)) :
    nullable (list event) (Json.orNull (fun events => .arr (events.map eventJson)) events) = .valid events := by
  cases events with
  | none => rfl
  | some events =>
    have hevents := list_valid event_valid events
    show some <$> list event (.arr (events.map eventJson)) = _
    rw [hevents]
    rfl

/-- What is recorded of a turn is read as that turn. -/
theorem turnPayload_valid (p : TurnPayload) : turnPayload (turnPayloadJson p) = .valid p := by
  have hevents := events_valid p.events
  simp only [turnPayload, turnPayloadJson, record, required, optional, List.lookup, String.reduceBEq, integer, string,
    stateSnapshot_valid, hevents, Checked.within]
  rfl

end Schema

/-! ## Numbers that are not finite -/

namespace Json

theorem finiteElements_eq (elements : List Json) : finiteElements elements = elements.map finiteOnly := by
  induction elements with
  | nil => rfl
  | cons value rest ih => rw [finiteElements, List.map_cons, ih]

theorem finiteFields_eq (fields : List (String × Json)) :
    finiteFields fields = fields.map fun field => (field.1, field.2.finiteOnly) := by
  induction fields with
  | nil => rfl
  | cons field rest ih => rw [finiteFields, List.map_cons, ih]

end Json

/-- The event with null in place of the numbers in its circumstances that are not finite. -/
def EventRecord.finiteOnly (e : EventRecord) : EventRecord := { e with payload := Json.finiteFields e.payload }

/-- The enemy with null in place of the numbers it remembers that are not finite. -/
def EnemySnapshot.finiteOnly (e : EnemySnapshot) : EnemySnapshot := { e with scratch := Json.finiteFields e.scratch }

/-- The turn with null in place of the numbers among its free values that are not finite. -/
def TurnPayload.finiteOnly (p : TurnPayload) : TurnPayload :=
  { p with
    state := { p.state with enemies := p.state.enemies.map EnemySnapshot.finiteOnly }
    events := p.events.map fun events => events.map EventRecord.finiteOnly }

namespace Schema

open Json

theorem finiteOnly_position (p : Position) : (positionJson p).finiteOnly = positionJson p := rfl

theorem finiteOnly_array {α : Type} {toJson next : α → Json} {as : List α}
    (h : ∀ a ∈ as, (toJson a).finiteOnly = next a) : (arr (as.map toJson)).finiteOnly = arr (as.map next) := by
  rw [finiteOnly, finiteElements_eq, List.map_map]
  exact congrArg arr (List.map_congr_left h)

theorem finiteOnly_positions (ps : List Position) : (positionsJson ps).finiteOnly = positionsJson ps :=
  finiteOnly_array fun p _ => finiteOnly_position p

theorem finiteOnly_strings (texts : List String) : (strings texts).finiteOnly = strings texts :=
  finiteOnly_array fun _ _ => rfl

theorem finiteOnly_state (s : StateSnapshot) : (stateSnapshotJson s).finiteOnly =
    stateSnapshotJson { s with enemies := s.enemies.map EnemySnapshot.finiteOnly } := by
  have henemies : (arr (s.enemies.map enemySnapshotJson)).finiteOnly =
      arr ((s.enemies.map EnemySnapshot.finiteOnly).map enemySnapshotJson) := by
    rw [List.map_map]
    exact finiteOnly_array fun e _ => rfl
  have hitems : (arr (s.items.map itemSnapshotJson)).finiteOnly = arr (s.items.map itemSnapshotJson) :=
    finiteOnly_array fun i _ => rfl
  rw [stateSnapshotJson, finiteOnly, finiteFields_eq]
  simp only [List.map_cons, List.map_nil, finiteOnly_position, finiteOnly_positions, finiteOnly_strings, henemies, hitems]
  rfl

/-- A turn is recorded with null in place of the numbers that are not finite. -/
theorem finiteOnly_turn (p : TurnPayload) : (turnPayloadJson p).finiteOnly = turnPayloadJson p.finiteOnly := by
  have hevents : (orNull (fun events => arr (events.map eventJson)) p.events).finiteOnly =
      orNull (fun events => arr (events.map eventJson)) (p.events.map fun events => events.map EventRecord.finiteOnly) := by
    cases p.events with
    | none => rfl
    | some events =>
      show (arr (events.map eventJson)).finiteOnly = arr ((events.map EventRecord.finiteOnly).map eventJson)
      rw [List.map_map]
      exact finiteOnly_array fun e _ => rfl
  rw [turnPayloadJson, finiteOnly, finiteFields_eq]
  simp only [List.map_cons, List.map_nil, finiteOnly_state, hevents]
  rfl

end Schema

/-! ## What programs can hold -/

namespace Json

theorem IsProper.finiteOnly {value : Json} (h : value.IsProper) : value.finiteOnly.IsProper := by
  induction h with
  | float x canonical =>
    cases x with
    | finite negative mantissa exponent => exact .float _ canonical
    | nan => exact .null
    | infinite negative => exact .null
  | arr elements _ ih =>
    rw [Json.finiteOnly, finiteElements_eq]
    exact .arr _ (List.forall_mem_map.2 ih)
  | obj fields distinct _ ih =>
    have hkeys : ((fields.map fun field => (field.1, field.2.finiteOnly)).map Prod.fst) = fields.map Prod.fst := by
      rw [List.map_map]
      rfl
    rw [Json.finiteOnly, finiteFields_eq]
    exact .obj _ (hkeys ▸ distinct) (List.forall_mem_map.2 ih)
  | null => exact .null
  | bool b => exact .bool b
  | int n => exact .int n
  | str s => exact .str s

end Json

/-- The free values of the turn are such that programs can hold them. -/
structure TurnPayload.IsProper (p : TurnPayload) : Prop where
  events : ∀ events ∈ p.events, ∀ e ∈ events, (Json.obj e.payload).IsProper
  scratch : ∀ e ∈ p.state.enemies, (Json.obj e.scratch).IsProper

theorem TurnPayload.IsProper.finiteOnly {p : TurnPayload} (h : p.IsProper) : p.finiteOnly.IsProper := by
  refine ⟨?_, ?_⟩
  · intro events hevents e he
    obtain ⟨before, hbefore, rfl⟩ := Option.mem_map.1 hevents
    obtain ⟨earlier, hearlier, rfl⟩ := List.mem_map.1 he
    exact (h.events before hbefore earlier hearlier).finiteOnly
  · intro e he
    obtain ⟨earlier, hearlier, rfl⟩ := List.mem_map.1 he
    exact (h.scratch earlier hearlier).finiteOnly

namespace Schema

open Json

theorem isProper_array {α : Type} {toJson : α → Json} {as : List α} (h : ∀ a ∈ as, (toJson a).IsProper) :
    (arr (as.map toJson)).IsProper := .arr _ (List.forall_mem_map.2 h)

theorem isProper_position (p : Position) : (positionJson p).IsProper :=
  .arr _ (by simp only [List.forall_mem_cons]; exact ⟨.int p.x, .int p.y, by simp⟩)

theorem isProper_event {e : EventRecord} (h : (obj e.payload).IsProper) : (eventJson e).IsProper := by
  refine .obj _ (by simp) ?_
  simp only [List.forall_mem_cons]
  exact ⟨.str e.kind, h, by simp⟩

theorem isProper_enemy {e : EnemySnapshot} (h : (obj e.scratch).IsProper) : (enemySnapshotJson e).IsProper := by
  refine .obj _ (by simp) ?_
  simp only [List.forall_mem_cons]
  exact ⟨.int e.index, isProper_position e.position, .str e.pattern, .int e.stunnedTurns, h, by simp⟩

theorem isProper_item (i : ItemSnapshot) : (itemSnapshotJson i).IsProper := by
  refine .obj _ (by simp) ?_
  simp only [List.forall_mem_cons]
  exact ⟨.str i.name, isProper_position i.position, by simp⟩

theorem isProper_state {s : StateSnapshot} (h : ∀ e ∈ s.enemies, (obj e.scratch).IsProper) :
    (stateSnapshotJson s).IsProper := by
  have hpositions : ∀ ps : List Position, (positionsJson ps).IsProper := fun ps => isProper_array fun p _ => isProper_position p
  have hstrings : ∀ texts : List String, (strings texts).IsProper := fun texts => isProper_array fun t _ => .str t
  have henemies : (arr (s.enemies.map enemySnapshotJson)).IsProper := isProper_array fun e he => isProper_enemy (h e he)
  have hitems : (arr (s.items.map itemSnapshotJson)).IsProper := isProper_array fun i _ => isProper_item i
  refine .obj _ (by simp) ?_
  simp only [List.forall_mem_cons, hpositions, hstrings, henemies, hitems, isProper_position, IsProper.int, IsProper.str,
    IsProper.bool, List.not_mem_nil, false_implies, implies_true, and_self]

/-- The record of a turn is a value that programs can hold. -/
theorem isProper_turn {p : TurnPayload} (h : p.IsProper) : (turnPayloadJson p).IsProper := by
  have hstate : (stateSnapshotJson p.state).IsProper := isProper_state h.scratch
  have hevents : (orNull (fun events => arr (events.map eventJson)) p.events).IsProper := by
    cases hsome : p.events with
    | none => exact .null
    | some events => exact isProper_array fun e he => isProper_event (h.events events hsome e he)
  refine .obj _ (by simp) ?_
  simp only [List.forall_mem_cons]
  exact ⟨.int p.turn, .str p.result, hstate, hevents, by simp⟩

end Schema

/-! ## How deep a turn goes -/

namespace Json

variable {n : Nat}

@[simp] theorem nesting_bool (b : Bool) : (bool b).nesting = 0 := rfl

@[simp] theorem nesting_int (i : Int) : (int i).nesting = 0 := rfl

@[simp] theorem nesting_str (s : String) : (str s).nesting = 0 := rfl

theorem nesting_array_le {elements : List Json} (h : ∀ value ∈ elements, value.nesting ≤ n) :
    (arr elements).nesting ≤ n + 1 := by
  have hall : elementsNesting elements ≤ n := by
    induction elements with
    | nil => exact Nat.zero_le n
    | cons value rest ih =>
      obtain ⟨hvalue, hrest⟩ := List.forall_mem_cons.1 h
      rw [elementsNesting]
      exact max_le hvalue (ih hrest)
  rw [nesting]
  omega

theorem nesting_object_le {fields : List (String × Json)} (h : ∀ field ∈ fields, field.2.nesting ≤ n) :
    (obj fields).nesting ≤ n + 1 := by
  have hall : fieldsNesting fields ≤ n := by
    induction fields with
    | nil => exact Nat.zero_le n
    | cons field rest ih =>
      obtain ⟨hfield, hrest⟩ := List.forall_mem_cons.1 h
      rw [fieldsNesting]
      exact max_le hfield (ih hrest)
  rw [nesting]
  omega

end Json

namespace Schema

open Json

variable {n : Nat}

theorem nesting_records_le {α : Type} {toJson : α → Json} {as : List α} (h : ∀ a ∈ as, (toJson a).nesting ≤ n) :
    (arr (as.map toJson)).nesting ≤ n + 1 := nesting_array_le (List.forall_mem_map.2 h)

theorem nesting_position (p : Position) : (positionJson p).nesting = 1 := rfl

theorem nesting_enemy {e : EnemySnapshot} (h : ∀ field ∈ e.scratch, field.2.nesting ≤ n) :
    (enemySnapshotJson e).nesting ≤ n + 2 := by
  have hscratch := nesting_object_le h
  refine nesting_object_le ?_
  simp only [List.forall_mem_cons, nesting_int, nesting_str, nesting_position]
  exact ⟨by omega, by omega, by omega, by omega, hscratch, by simp⟩

theorem nesting_event {e : EventRecord} (h : ∀ field ∈ e.payload, field.2.nesting ≤ n) : (eventJson e).nesting ≤ n + 2 := by
  have hpayload := nesting_object_le h
  refine nesting_object_le ?_
  simp only [List.forall_mem_cons, nesting_str]
  exact ⟨by omega, hpayload, by simp⟩

theorem nesting_item (i : ItemSnapshot) : (itemSnapshotJson i).nesting = 2 := rfl

theorem nesting_state {s : StateSnapshot} (h : ∀ e ∈ s.enemies, ∀ field ∈ e.scratch, field.2.nesting ≤ n) :
    (stateSnapshotJson s).nesting ≤ n + 4 := by
  have hpositions : ∀ ps : List Position, (positionsJson ps).nesting ≤ n + 3 := by
    intro ps
    have hps : (positionsJson ps).nesting ≤ 2 := nesting_records_le fun p _ => (nesting_position p).le
    omega
  have hstrings : ∀ texts : List String, (strings texts).nesting ≤ n + 3 := by
    intro texts
    have htexts : (strings texts).nesting ≤ 1 := nesting_records_le fun _ _ => Nat.le_refl 0
    omega
  have henemies : (arr (s.enemies.map enemySnapshotJson)).nesting ≤ n + 3 :=
    nesting_records_le fun e he => nesting_enemy (h e he)
  have hitems : (arr (s.items.map itemSnapshotJson)).nesting ≤ n + 3 := by
    have his : (arr (s.items.map itemSnapshotJson)).nesting ≤ 3 := nesting_records_le fun i _ => (nesting_item i).le
    omega
  have hrobot : (positionJson s.robot).nesting ≤ n + 3 := by
    rw [nesting_position]
    omega
  refine nesting_object_le ?_
  simp only [List.forall_mem_cons, hpositions, hstrings, henemies, hitems, hrobot, nesting_bool, nesting_int, nesting_str,
    Nat.zero_le, List.not_mem_nil, false_implies, implies_true, and_self]

/-- The record of a turn goes five levels deeper than its free values. -/
theorem nesting_turn {p : TurnPayload} (h : ∀ value ∈ p.freeValues, value.nesting ≤ n) :
    (turnPayloadJson p).nesting ≤ n + 5 := by
  have hscratch : ∀ e ∈ p.state.enemies, ∀ field ∈ e.scratch, field.2.nesting ≤ n := by
    intro e he field hfield
    exact h field.2 (List.mem_append_right _ (List.mem_flatMap.2 ⟨e, he, List.mem_map_of_mem hfield⟩))
  have hevents : (orNull (fun events => arr (events.map eventJson)) p.events).nesting ≤ n + 4 := by
    cases hsome : p.events with
    | none => exact Nat.zero_le _
    | some events =>
      have hpayload : ∀ e ∈ events, ∀ field ∈ e.payload, field.2.nesting ≤ n := by
        intro e he field hfield
        refine h field.2 (List.mem_append_left _ (List.mem_flatMap.2 ⟨e, ?_, List.mem_map_of_mem hfield⟩))
        rw [hsome]
        exact he
      have hall : (arr (events.map eventJson)).nesting ≤ n + 3 := nesting_records_le fun e he => nesting_event (hpayload e he)
      exact hall.trans (Nat.le_succ _)
  have hstate := nesting_state hscratch
  refine nesting_object_le ?_
  simp only [List.forall_mem_cons, nesting_int, nesting_str]
  exact ⟨Nat.zero_le _, Nat.zero_le _, hstate, hevents, by simp⟩

end Schema

end ScriptedRobot
