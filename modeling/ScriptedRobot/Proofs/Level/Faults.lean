import Mathlib
import ScriptedRobot.Proofs.Level.Conversion
import ScriptedRobot.Proofs.Script.Reading

/-!
# What ends the loading of levels

A file that describes no level is skipped, but not for every reason. `LevelFile.Stops` lists those that end the
loading of all levels instead: a text that is not there, values too deep inside one another, an infinite number
where a whole one is needed, a size that is no text. They lie in the file alone, whatever is drawn for it
(`LevelFile.stops_iff`).
-/

namespace ScriptedRobot

theorem Except.bind_error {ε α β : Type} {x : Except ε α} {f : α → Except ε β} {e : ε} (h : (x >>= f) = .error e) :
    x = .error e ∨ ∃ a, x = .ok a ∧ f a = .error e := by
  cases x with
  | error d =>
    cases h
    exact .inl rfl
  | ok a => exact .inr ⟨a, rfl, h⟩

/-! ## Infinite numbers in documents -/

/-- Somewhere in the value is an infinite number. -/
inductive Json.HoldsInfinite : Json → Prop where
  | number (negative : Bool) : HoldsInfinite (.float (.infinite negative))
  | element {elements : List Json} {j : Json} (mem : j ∈ elements) (h : HoldsInfinite j) :
      HoldsInfinite (.arr elements)
  | field {fields : List (String × Json)} {key : String} {j : Json} (mem : (key, j) ∈ fields)
      (h : HoldsInfinite j) : HoldsInfinite (.obj fields)

/-- What reading a value may find wrong: an infinite number only if it holds one, and never a size. -/
structure LevelFault.FoundIn (fault : LevelFault) (j : Json) : Prop where
  infinite : fault = .infinite → j.HoldsInfinite
  size : fault ≠ .sizeNotText

theorem LevelFault.FoundIn.mono {fault : LevelFault} {j k : Json} (h : fault.FoundIn j)
    (holds : j.HoldsInfinite → k.HoldsInfinite) : fault.FoundIn k := ⟨fun he => holds (h.infinite he), h.size⟩

namespace LevelDocument

variable {fault : LevelFault} {j : Json}

theorem wholeNumber_fault (h : wholeNumber j = .error fault) : fault.FoundIn j := by
  cases j with
  | float x =>
    cases x with
    | infinite negative =>
      cases h
      exact ⟨fun _ => .number negative, nofun⟩
    | nan =>
      cases h
      exact ⟨nofun, nofun⟩
    | finite negative mantissa exponent => cases h
  | str s =>
    simp only [wholeNumber] at h
    cases hs : Text.Numeral.read s.toList with
    | error cause =>
      rw [hs] at h
      cases h
      exact ⟨nofun, nofun⟩
    | ok n =>
      rw [hs] at h
      cases h
  | int n => cases h
  | bool b => cases h
  | null | arr _ | obj _ =>
    cases h
    exact ⟨nofun, nofun⟩

theorem members_fault (h : members j = .error fault) (k : Json) : fault.FoundIn k := by
  cases j with
  | arr _ | str _ | obj _ => cases h
  | _ =>
    cases h
    exact ⟨nofun, nofun⟩

theorem holdsInfinite_of_member {m : Json} {ms : List Json} (h : members j = .ok ms) (hm : m ∈ ms)
    (infinite : m.HoldsInfinite) : j.HoldsInfinite := by
  cases j with
  | arr elements =>
    cases h
    exact .element hm infinite
  | str s =>
    cases h
    obtain ⟨c, -, rfl⟩ := List.mem_map.1 hm
    cases infinite
  | obj fields =>
    cases h
    obtain ⟨field, -, rfl⟩ := List.mem_map.1 hm
    cases infinite
  | _ => cases h

theorem position_fault (h : position j = .error fault) : fault.FoundIn j := by
  unfold position at h
  rcases Except.bind_error h with h | ⟨ms, hms, h⟩
  · exact members_fault h j
  · split at h
    · rename_i x y
      have hx : x ∈ [x, y] := List.mem_cons_self
      have hy : y ∈ [x, y] := List.mem_cons_of_mem _ List.mem_cons_self
      rcases Except.bind_error h with h | ⟨a, -, h⟩
      · exact (wholeNumber_fault h).mono (holdsInfinite_of_member hms hx)
      · rcases Except.bind_error h with h | ⟨b, -, h⟩
        · exact (wholeNumber_fault h).mono (holdsInfinite_of_member hms hy)
        · cases h
    all_goals
      cases h
      exact ⟨nofun, nofun⟩

theorem field_fault {key : String} (h : field key j = .error fault) (k : Json) : fault.FoundIn k := by
  cases j with
  | obj fields =>
    simp only [field] at h
    split at h
    · cases h
    · cases h
      exact ⟨nofun, nofun⟩
  | _ =>
    cases h
    exact ⟨nofun, nofun⟩

theorem holdsInfinite_of_lookup {fields : List (String × Json)} {key : String} {value : Json}
    (h : fields.lookup key = some value) (infinite : value.HoldsInfinite) : (Json.obj fields).HoldsInfinite := by
  obtain ⟨before, after, rfl, -⟩ := List.lookup_eq_some_iff.1 h
  exact .field (List.mem_append_right _ List.mem_cons_self) infinite

theorem holdsInfinite_of_field {key : String} {value : Json} (h : field key j = .ok value)
    (infinite : value.HoldsInfinite) : j.HoldsInfinite := by
  cases j with
  | obj fields =>
    simp only [field] at h
    split at h
    · rename_i found hlookup
      cases h
      exact holdsInfinite_of_lookup hlookup infinite
    · cases h
  | _ => cases h

/-- What is put in place of a field that is left out is not infinite, so an infinite one is there. -/
theorem holdsInfinite_of_fieldOr {key : String} {default : Json} (finite : ¬ default.HoldsInfinite)
    (infinite : (fieldOr key default j).HoldsInfinite) : j.HoldsInfinite := by
  unfold fieldOr at infinite
  cases j with
  | obj fields =>
    cases hlookup : fields.lookup key with
    | none =>
      simp only [Json.get?, hlookup, Option.getD_none] at infinite
      exact absurd infinite finite
    | some found =>
      simp only [Json.get?, hlookup, Option.getD_some] at infinite
      exact holdsInfinite_of_lookup hlookup infinite
  | _ => exact absurd infinite finite

theorem fieldMembers_fault {α : Type} {key : String} {read : Json → Except LevelFault α}
    (hread : ∀ {m : Json}, read m = .error fault → fault.FoundIn m)
    (h : fieldMembers key read j = .error fault) : fault.FoundIn j := by
  have hempty : ¬ (Json.arr []).HoldsInfinite := by
    intro h
    cases h with
    | element mem _ => cases mem
  unfold fieldMembers at h
  rcases Except.bind_error h with h | ⟨ms, hms, h⟩
  · exact members_fault h j
  · rcases Script.mapM_total (f := read) ms with ⟨values, hvalues, -⟩ | ⟨cause, hcause, m, hm, hfail⟩
    · rw [hvalues] at h
      cases h
    · rw [hcause] at h
      cases h
      exact (hread hfail).mono fun infinite =>
        holdsInfinite_of_fieldOr hempty (holdsInfinite_of_member hms hm infinite)

theorem enemy_fault (h : enemy j = .error fault) : fault.FoundIn j := by
  unfold enemy at h
  rcases Except.bind_error h with h | ⟨place, hplace, h⟩
  · exact field_fault h j
  · rcases Except.bind_error h with h | ⟨start, -, h⟩
    · exact (position_fault h).mono (holdsInfinite_of_field hplace)
    · cases h

theorem place_fault (h : place j = .error fault) : fault.FoundIn j := by
  unfold place at h
  simp only at h
  split at h
  · cases hposition : position (fieldOr "location" .null j) with
    | error cause =>
      rw [hposition] at h
      cases h
      exact (position_fault hposition).mono (holdsInfinite_of_fieldOr nofun)
    | ok p =>
      rw [hposition] at h
      cases h
  · cases h

theorem item_fault (h : item j = .error fault) : fault.FoundIn j := by
  unfold item at h
  rcases Except.bind_error h with h | ⟨name, -, h⟩
  · exact field_fault h j
  · rcases Except.bind_error h with h | ⟨place, -, h⟩
    · exact place_fault h
    · cases h

/-- A document that is refused for an infinite number holds one, and none is refused for its size yet. -/
theorem read_fault (h : read j = .error fault) : fault.FoundIn j := by
  have hpair : ¬ (Json.arr [.int 1, .int 1]).HoldsInfinite := by
    intro h
    cases h with
    | element mem h =>
      rcases List.mem_cons.1 mem with rfl | mem
      · cases h
      · rw [List.mem_singleton.1 mem] at h
        cases h
  unfold read at h
  rcases Except.bind_error h with h | ⟨_, -, h⟩
  · exact field_fault h j
  rcases Except.bind_error h with h | ⟨_, -, h⟩
  · exact field_fault h j
  rcases Except.bind_error h with h | ⟨_, -, h⟩
  · exact (wholeNumber_fault h).mono (holdsInfinite_of_fieldOr nofun)
  rcases Except.bind_error h with h | ⟨_, -, h⟩
  · exact fieldMembers_fault position_fault h
  rcases Except.bind_error h with h | ⟨_, -, h⟩
  · exact fieldMembers_fault position_fault h
  rcases Except.bind_error h with h | ⟨_, -, h⟩
  · exact fieldMembers_fault enemy_fault h
  rcases Except.bind_error h with h | ⟨_, -, h⟩
  · exact fieldMembers_fault item_fault h
  rcases Except.bind_error h with h | ⟨_, -, h⟩
  · exact (position_fault h).mono (holdsInfinite_of_fieldOr hpair)
  · cases h

end LevelDocument

/-! ## What goes wrong when a level is made -/

section Making

variable {σ : Type} [WordSource σ] {width height : Int}

theorem drawFreeTile_fault {taken : List Position} {attempts : Nat} {g : σ} {fault : LevelFault}
    (h : (drawFreeTile width height taken attempts g).1 = .error fault) : fault = .noTiles := by
  rcases drawFreeTile_outcome width height taken attempts g with ⟨_, hdraw⟩ | ⟨_, _, hdraw, -⟩
  · rw [hdraw] at h
    cases h
    rfl
  · rw [hdraw] at h
    cases h

theorem drawFreeTiles_fault {count : Nat} {taken : List Position} {g : σ} {fault : LevelFault}
    (h : (drawFreeTiles width height count taken g).1 = .error fault) : fault = .noTiles := by
  rcases drawFreeTiles_outcome width height count taken g with ⟨_, hdraw⟩ | ⟨_, _, _, hdraw, -⟩
  · rw [hdraw] at h
    cases h
    rfl
  · rw [hdraw] at h
    cases h

/-- The document leaves no tile to draw from, or what it says of the level is not valid. -/
def LevelFault.IsOfMaking (fault : LevelFault) : Prop := fault = .noTiles ∨ ∃ issues, fault = .invalid issues

theorem Schema.Checked.orFault_fault {α : Type} {x : Schema.Checked α} {fault : LevelFault}
    (h : x.orFault = .error fault) : fault.IsOfMaking := by
  cases x with
  | valid a => cases h
  | invalid issues =>
    cases h
    exact .inr ⟨issues, rfl⟩

theorem ItemEntry.specs_fault {es : List ItemEntry} {taken : List Position} {g : σ} {fault : LevelFault}
    (h : (specs width height es taken g).1 = .error fault) : fault.IsOfMaking := by
  induction es generalizing taken g with
  | nil => cases h
  | cons e es ih =>
    unfold specs at h
    split at h
    · rename_i fault' g' hplace
      cases h
      left
      unfold drawPlace at hplace
      split at hplace
      · exact drawFreeTile_fault (congrArg (·.1) hplace)
      · cases hplace
    · split at h
      · cases h
        exact .inr ⟨_, rfl⟩
      · split at h
        · rename_i hrest
          cases h
          exact ih (congrArg (·.1) hrest)
        · cases h

/-- A document without a size is found out first. All else that can go wrong lies in drawing and checking. -/
theorem LevelDocument.level_fault {d : LevelDocument} {g : σ} {fault : LevelFault}
    (h : (d.level g).1 = .error fault) : d.boardSize = .error fault ∨ fault.IsOfMaking := by
  unfold level at h
  cases hsize : d.boardSize with
  | error cause =>
    rw [hsize] at h
    cases h
    exact .inl rfl
  | ok size =>
    obtain ⟨width, height⟩ := size
    rw [hsize] at h
    simp only at h
    right
    rcases hdraws : drawFreeTiles width height d.obstacles.toNat d.placed g with ⟨cause | ⟨obstacles, all⟩, g₁⟩
    · rw [hdraws] at h
      cases h
      exact .inl (drawFreeTiles_fault (congrArg Prod.fst hdraws))
    · rw [hdraws] at h
      simp only at h
      rcases Script.mapM_total (f := fun e : EnemyEntry => e.spec.orFault) d.enemies with
        ⟨enemies, henemies, -⟩ | ⟨cause, hfail, e, -, he⟩
      · rw [henemies] at h
        simp only at h
        rcases hitems : ItemEntry.specs width height d.items (obstacles ++ d.placed) g₁ with ⟨cause | items, g₂⟩
        · rw [hitems] at h
          cases h
          exact ItemEntry.specs_fault (congrArg Prod.fst hitems)
        · rw [hitems] at h
          exact Schema.Checked.orFault_fault h
      · rw [hfail] at h
        cases h
        exact Schema.Checked.orFault_fault he

theorem LevelDocument.boardSize_fault {d : LevelDocument} {fault : LevelFault} (h : d.boardSize = .error fault) :
    (∃ text, fault = .size text) ∨ fault = .sizeNotText ∧ ∀ text, d.size ≠ .str text := by
  unfold boardSize at h
  split at h
  · left
    unfold ScriptedRobot.boardSize at h
    split at h
    · split at h
      · cases h
      · cases h
        exact ⟨_, rfl⟩
    · cases h
      exact ⟨_, rfl⟩
  · rename_i hother
    cases h
    exact .inr ⟨rfl, hother⟩

end Making

/-! ## Files that end the loading -/

namespace LevelFile

/-- The file ends the loading of levels, instead of being skipped. -/
inductive Stops (f : LevelFile) : Prop where
  /-- There is no file, or it cannot be opened. -/
  | unavailable {fault : StorageFault} (reads : f.text = .error (.storage fault)) (other : fault ≠ .nullInPath)
  /-- It holds values too deep inside one another. -/
  | tooDeep {text : String} (reads : f.text = .ok text) (parses : Json.ofString text = .error .tooDeep)
  /-- It holds an infinite number where a whole one is needed. -/
  | infinite {text : String} {json : Json} (reads : f.text = .ok text) (parses : Json.ofString text = .ok json)
      (holds : json.HoldsInfinite) (refused : LevelDocument.read json = .error .infinite)
  /-- The size that it gives is no text. -/
  | sizeNotText {d : LevelDocument} (reads : f.document = .ok d) (size : ∀ text, d.size ≠ .str text)

theorem document_eq (f : LevelFile) : f.document = match f.text with
    | .error fault => .error (LevelFileFault.ofText f.path fault)
    | .ok text => match Json.ofString text with
      | .error fault => .error (.json fault)
      | .ok json => (LevelDocument.read json).mapError .level := by
  unfold document
  cases f.text with
  | error fault => rfl
  | ok text =>
    simp only [bind, Except.bind, Except.mapError]
    cases Json.ofString text <;> rfl

/-- A document that cannot be had is skipped, unless the file stops. -/
theorem stops_of_document {f : LevelFile} {fault : LevelFileFault} (h : f.document = .error fault)
    (grave : fault.isSkipped = false) : f.Stops := by
  rw [document_eq] at h
  cases htext : f.text with
  | error cause =>
    rw [htext] at h
    cases h
    cases cause with
    | undecodable => cases grave
    | storage cause =>
      refine .unavailable htext ?_
      rintro rfl
      cases grave
  | ok text =>
    rw [htext] at h
    simp only at h
    cases hjson : Json.ofString text with
    | error cause =>
      rw [hjson] at h
      cases h
      cases cause with
      | tooDeep => exact .tooDeep htext hjson
      | malformed => cases grave
      | numeral cause => cases grave
    | ok json =>
      rw [hjson] at h
      simp only at h
      cases hread : LevelDocument.read json with
      | ok d =>
        rw [hread] at h
        cases h
      | error cause =>
        rw [hread] at h
        cases h
        have hfound := LevelDocument.read_fault hread
        cases cause with
        | infinite => exact .infinite htext hjson (hfound.infinite rfl) hread
        | sizeNotText => exact absurd rfl hfound.size
        | _ => cases grave

variable {σ : Type} [WordSource σ]

/-- A fault that is not skipped is that of a file that stops. -/
theorem stops_of_level {f : LevelFile} {g : σ} {fault : LevelFileFault} (h : (f.level g).1 = .error fault)
    (grave : fault.isSkipped = false) : f.Stops := by
  unfold level at h
  cases hdocument : f.document with
  | error cause =>
    rw [hdocument] at h
    cases h
    exact stops_of_document hdocument grave
  | ok d =>
    rw [hdocument] at h
    simp only at h
    cases hlevel : (d.level g).1 with
    | ok spec =>
      rw [hlevel] at h
      cases h
    | error cause =>
      rw [hlevel] at h
      cases h
      rcases LevelDocument.level_fault hlevel with hsize | rfl | ⟨issues, rfl⟩
      · rcases LevelDocument.boardSize_fault hsize with ⟨text, rfl⟩ | ⟨-, hno⟩
        · cases grave
        · exact .sizeNotText hdocument hno
      · cases grave
      · cases grave

/-- A file that stops does so whatever is drawn for it. -/
theorem Stops.level {f : LevelFile} (h : f.Stops) (g : σ) :
    ∃ fault, (f.level g).1 = .error fault ∧ fault.isSkipped = false := by
  have hrefused : ∀ {fault : LevelFileFault}, f.document = .error fault → fault.isSkipped = false →
      ∃ fault, (f.level g).1 = .error fault ∧ fault.isSkipped = false := by
    intro fault hdocument grave
    unfold LevelFile.level
    rw [hdocument]
    exact ⟨fault, rfl, grave⟩
  cases h with
  | @unavailable fault reads other =>
    refine hrefused (by rw [document_eq, reads]) ?_
    cases fault with
    | nullInPath => exact absurd rfl other
    | _ => rfl
  | tooDeep reads parses => exact hrefused (by rw [document_eq, reads]; simp only [parses]; rfl) rfl
  | infinite reads parses _ refused =>
    exact hrefused (by rw [document_eq, reads]; simp only [parses, refused]; rfl) rfl
  | @sizeNotText d reads size =>
    have hsize : d.boardSize = .error .sizeNotText := by
      unfold LevelDocument.boardSize
      split
      · rename_i text htext
        exact absurd htext (size text)
      · rfl
    unfold LevelFile.level
    rw [reads]
    simp only [LevelDocument.level, hsize]
    exact ⟨_, rfl, rfl⟩

/-- A file stops exactly if its fault is none that is skipped. -/
theorem stops_iff {f : LevelFile} (g : σ) :
    f.Stops ↔ ∃ fault, (f.level g).1 = .error fault ∧ fault.isSkipped = false :=
  ⟨fun h => h.level g, fun ⟨_, hfault, grave⟩ => stops_of_level hfault grave⟩

end LevelFile

end ScriptedRobot
