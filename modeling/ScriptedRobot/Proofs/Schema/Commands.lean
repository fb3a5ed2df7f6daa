import Mathlib.Data.List.Nodup
import ScriptedRobot.Proofs.Schema.Arguments
import ScriptedRobot.Proofs.Script.Writing

/-!
# What passes for a command

A value passes for a command if it is an object whose fields can be read and whose arguments fit its kind: it holds the
argument that the kind needs and no other, and a displacement is a single step (`CommandRecord.Fits`). The other way
round, every record whose arguments fit is that of a command, and its dump passes for that command again, whichever of
its null fields are left out (`Dumps`).
-/

namespace ScriptedRobot.Schema

/-! ## Records that fit -/

/-- The arguments of a record fit its kind. -/
structure CommandRecord.Fits (r : CommandRecord) : Prop where
  /-- It holds the argument that its kind needs. -/
  needed : ∀ a, Argument.neededBy r.kind = some a → a.isGiven r = true
  /-- It holds no other, but a panic may have a message. -/
  known : ∀ a, a.isGiven r = true → Argument.neededBy r.kind = some a ∨ (r.kind = .panic ∧ a = .message)
  /-- A displacement is a unit vector. -/
  unit : ∀ p, r.direction = some p → p.x.natAbs + p.y.natAbs = 1

theorem unit_iff_heading {p : Position} : p.x.natAbs + p.y.natAbs = 1 ↔ ∃ h : Heading, h.step = p := by
  obtain ⟨x, y⟩ := p
  constructor
  · intro unit
    have hcases : (x = 0 ∧ y = -1) ∨ (x = 0 ∧ y = 1) ∨ (x = -1 ∧ y = 0) ∨ (x = 1 ∧ y = 0) := by
      simp only at unit
      omega
    rcases hcases with ⟨rfl, rfl⟩ | ⟨rfl, rfl⟩ | ⟨rfl, rfl⟩ | ⟨rfl, rfl⟩
    · exact ⟨.up, rfl⟩
    · exact ⟨.down, rfl⟩
    · exact ⟨.left, rfl⟩
    · exact ⟨.right, rfl⟩
  · rintro ⟨heading, hstep⟩
    rw [← hstep]
    cases heading <;> rfl

theorem fits_ofCommand (c : Command) : (CommandRecord.ofCommand c).Fits where
  needed a needed := isGiven_of_check (check_ofCommand c) needed
  known a given := by
    cases c <;> cases a <;>
      simp [CommandRecord.ofCommand, Argument.isGiven, Argument.neededBy, Command.kind] at given ⊢
  unit p hp := by
    cases c with
    | move h | scan h | laserDirection h => exact unit_iff_heading.2 ⟨h, Option.some.inj hp⟩
    | _ => cases hp

theorem CommandRecord.Fits.command? {r : CommandRecord} (fits : r.Fits) : ∃ c, r.command? = some c := by
  obtain ⟨kind, direction, coordinates, levelNumber, flag, message⟩ := r
  have hgiven := fits.needed
  cases kind with
  | move | scan | laserDirection =>
    obtain ⟨p, rfl⟩ := Option.isSome_iff_exists.1 (hgiven .direction rfl)
    obtain ⟨heading, hstep⟩ := unit_iff_heading.1 (fits.unit p rfl)
    have hheading := Heading.ofStep?_eq_some_iff.2 hstep
    exact ⟨_, Option.map_eq_some_iff.2 ⟨heading, hheading, rfl⟩⟩
  | setAutoGrab | openDoor =>
    obtain ⟨b, rfl⟩ := Option.isSome_iff_exists.1 (hgiven .flag rfl)
    exact ⟨_, rfl⟩
  | laserTile =>
    obtain ⟨p, rfl⟩ := Option.isSome_iff_exists.1 (hgiven .coordinates rfl)
    exact ⟨_, rfl⟩
  | gotoLevel =>
    obtain ⟨n, rfl⟩ := Option.isSome_iff_exists.1 (hgiven .levelNumber rfl)
    exact ⟨_, rfl⟩
  | println | eprintln =>
    obtain ⟨text, rfl⟩ := Option.isSome_iff_exists.1 (hgiven .message rfl)
    exact ⟨_, rfl⟩
  | grab | searchAll | skipLevel | panic => exact ⟨_, rfl⟩

/-- The records that fit are those of the commands. -/
theorem fits_iff {r : CommandRecord} : r.Fits ↔ ∃ c, r = .ofCommand c := by
  constructor
  · intro fits
    obtain ⟨c, hc⟩ := fits.command?
    refine ⟨c, eq_ofCommand_of_fits (fun a => complaint?_eq_none_iff.2 ⟨fits.needed a, fun given => ?_⟩) hc⟩
    rcases fits.known a given with needed | ⟨panics, rfl⟩
    · exact .inl needed
    · exact .inr (by rw [panics]; rfl)
  · rintro ⟨c, rfl⟩
    exact fits_ofCommand c

theorem ofCommand_injective : Function.Injective CommandRecord.ofCommand := by
  intro c c' same
  have hcheck := check_eq_valid_iff.2 same
  rw [check_ofCommand] at hcheck
  exact Checked.valid.inj hcheck

/-! ## Dumps -/

/-- The fields are a dump of the record, from which some that are null may be missing. -/
structure CommandRecord.Dumps (r : CommandRecord) (fs : List (String × Json)) : Prop where
  /-- All are fields of the record. -/
  among : fs ⊆ r.fields
  /-- None is missing that is not null. -/
  complete : ∀ field ∈ r.fields, field.2 ≠ .null → field ∈ fs

section Lookup

variable {α : Type} {all fs : List (String × α)}

theorem mem_of_lookup {key : String} {a : α} (h : fs.lookup key = some a) : (key, a) ∈ fs := by
  obtain ⟨before, after, rfl, -⟩ := List.lookup_eq_some_iff.1 h
  exact List.mem_append_right _ List.mem_cons_self

theorem eq_of_nodup_keys (once : (fs.map Prod.fst).Nodup) {key : String} {a b : α} (ha : (key, a) ∈ fs)
    (hb : (key, b) ∈ fs) : a = b :=
  (Prod.mk.inj (List.inj_on_of_nodup_map once ha hb rfl)).2

end Lookup

theorem CommandRecord.nodup_fields (r : CommandRecord) : (r.fields.map Prod.fst).Nodup := by
  show ["kind", "direction", "coordinates", "level_number", "flag", "message"].Nodup
  decide

/-- What is looked up in a dump is what stands in the record, unless it is null and missing. -/
theorem CommandRecord.Dumps.lookup {r : CommandRecord} {fs : List (String × Json)} (dumps : r.Dumps fs)
    {key : String} {value : Json} (there : (key, value) ∈ r.fields) :
    fs.lookup key = some value ∨ value = .null ∧ fs.lookup key = none := by
  cases hlookup : fs.lookup key with
  | some found =>
    have hfound := dumps.among (mem_of_lookup hlookup)
    rw [eq_of_nodup_keys r.nodup_fields hfound there]
    exact .inl rfl
  | none =>
    refine .inr ⟨?_, rfl⟩
    by_contra nonnull
    have hmissing := List.lookup_eq_none_iff.1 hlookup _ (dumps.complete _ there nonnull)
    simp at hmissing

theorem nullable_of_ne {α : Type} (read : Reader α) {j : Json} (nonnull : j ≠ .null) :
    nullable read j = some <$> read j := by
  cases j with
  | null => exact absurd rfl nonnull
  | _ => rfl

/-- An argument is read from a dump as it stands in the record, also where it is missing. -/
theorem optional_of_dump {α : Type} {read : Reader α} (toJson : α → Json) (reads : ∀ a, read (toJson a) = .valid a)
    (nonnull : ∀ a, toJson a ≠ .null) {fs : List (String × Json)} {key : String} {o : Option α}
    (dumped : fs.lookup key = some (Json.orNull toJson o) ∨ Json.orNull toJson o = .null ∧ fs.lookup key = none) :
    optional fs key (nullable read) none = .valid o := by
  unfold optional
  rcases dumped with there | ⟨hnull, missing⟩
  · rw [there]
    cases o with
    | none => rfl
    | some a =>
      show (nullable read (toJson a)).within _ = _
      rw [nullable_of_ne read (nonnull a), reads]
      rfl
  · rw [missing]
    cases o with
    | none => rfl
    | some a => exact absurd hnull (nonnull a)

/-- A dump of a record is read as that record. -/
theorem commandRecord_of_dumps {r : CommandRecord} {fs : List (String × Json)} (dumps : r.Dumps fs) :
    commandRecord (.obj fs) = .valid r := by
  have hkind : required fs "kind" (oneOf CommandKind.ofTag?) = .valid r.kind := by
    rcases dumps.lookup (List.mem_cons_self : ("kind", Json.str r.kind.tag) ∈ r.fields) with there | ⟨hnull, -⟩
    · rw [required, there]
      cases r.kind <;> rfl
    · cases hnull
  have hdirection : optional fs "direction" (nullable position) none = .valid r.direction :=
    optional_of_dump positionJson (fun _ => rfl) (fun _ => nofun) (dumps.lookup (List.mem_of_getElem? (i := 1) rfl))
  have hcoordinates : optional fs "coordinates" (nullable position) none = .valid r.coordinates :=
    optional_of_dump positionJson (fun _ => rfl) (fun _ => nofun) (dumps.lookup (List.mem_of_getElem? (i := 2) rfl))
  have hlevelNumber : optional fs "level_number" (nullable integer) none = .valid r.levelNumber :=
    optional_of_dump Json.int (fun _ => rfl) (fun _ => nofun) (dumps.lookup (List.mem_of_getElem? (i := 3) rfl))
  have hflag : optional fs "flag" (nullable boolean) none = .valid r.flag :=
    optional_of_dump Json.bool (fun _ => rfl) (fun _ => nofun) (dumps.lookup (List.mem_of_getElem? (i := 4) rfl))
  have hmessage : optional fs "message" (nullable string) none = .valid r.message :=
    optional_of_dump Json.str (fun _ => rfl) (fun _ => nofun) (dumps.lookup (List.mem_of_getElem? (i := 5) rfl))
  have hothers : noOthers ("kind" :: Argument.all.map Argument.key) fs = .valid () := by
    have hnone : fs.filter (fun field => !("kind" :: Argument.all.map Argument.key).contains field.1) = [] := by
      rw [List.filter_eq_nil_iff]
      intro field hfield
      have hkey : field.1 ∈ "kind" :: Argument.all.map Argument.key := List.mem_map_of_mem (dumps.among hfield)
      rw [List.contains_iff_mem.2 hkey]
      decide
    rw [noOthers, hnone]
  unfold commandRecord record
  simp only [hkind, hdirection, hcoordinates, hlevelNumber, hflag, hmessage, hothers]
  rfl

theorem CommandRecord.dumps_fields (r : CommandRecord) : r.Dumps r.fields where
  among := List.Subset.refl r.fields
  complete _ there _ := there

theorem CommandRecord.dumps_filter (r : CommandRecord) (keep : String × Json → Bool)
    (keeps : ∀ field ∈ r.fields, field.2 ≠ .null → keep field = true) : r.Dumps (r.fields.filter keep) where
  among _ := List.mem_of_mem_filter
  complete field there nonnull := List.mem_filter.2 ⟨there, keeps field there nonnull⟩

/-! ## Commands -/

theorem command?_eq_some_iff {j : Json} {c : Command} :
    command? j = some c ↔ commandRecord j = .valid (.ofCommand c) := by
  rw [command?, command]
  cases commandRecord j with
  | invalid issues => exact ⟨nofun, nofun⟩
  | valid r =>
    show r.check.toOption = some c ↔ Checked.valid r = .valid (.ofCommand c)
    rw [Checked.valid.injEq, ← check_eq_valid_iff]
    cases r.check with
    | invalid issues => exact ⟨nofun, nofun⟩
    | valid c' => exact ⟨fun h => congrArg _ (Option.some.inj h), fun h => congrArg _ (Checked.valid.inj h)⟩

/-- What passes for a command is just what the table of arguments admits. A value passes exactly if it can be read as a
record whose arguments fit its kind, and is the command of that record then. Every record whose arguments fit is that of
a command, and any dump of it passes for that command again, whether its null fields are kept or left out; this goes for
every command that a script is read as. -/
theorem command_fits :
    (∀ j c, command? j = some c ↔ ∃ r, commandRecord j = .valid r ∧ r.Fits ∧ r = .ofCommand c) ∧
      (∀ r : CommandRecord, r.Fits →
        ∃ c, r = .ofCommand c ∧ ∀ fs, r.Dumps fs → command? (.obj fs) = some c) ∧
      ∀ code commands, Script.read code = .ok commands → ∀ c ∈ commands,
        (CommandRecord.ofCommand c).Fits ∧
          ∀ fs, (CommandRecord.ofCommand c).Dumps fs → command? (.obj fs) = some c := by
  have hback : ∀ c fs, (CommandRecord.ofCommand c).Dumps fs → command? (.obj fs) = some c :=
    fun c fs dumps => command?_eq_some_iff.2 (commandRecord_of_dumps dumps)
  refine ⟨fun j c => ?_, fun r fits => ?_, fun code commands _ c _ => ⟨fits_ofCommand c, hback c⟩⟩
  · rw [command?_eq_some_iff]
    constructor
    · exact fun read => ⟨_, read, fits_ofCommand c, rfl⟩
    · rintro ⟨r, read, -, rfl⟩
      exact read
  · obtain ⟨c, rfl⟩ := fits_iff.1 fits
    exact ⟨c, rfl, hback c⟩

/-- The number of a level may come as text. A panic may come without its null fields. -/
theorem command_fits_panic :
    command? (.obj [("level_number", .str " 7 "), ("kind", .str "GOTO_LEVEL")]) = some (.gotoLevel 7) ∧
      command? (.obj [("kind", .str "PANIC"), ("message", .str "Enemy ahead")]) = some (.panic (some "Enemy ahead")) ∧
      command? (commandJson (.gotoLevel 7)) = some (.gotoLevel 7) := by
  obtain ⟨passes, returns, scripted⟩ := command_fits
  refine ⟨(passes _ _).2 ⟨.ofCommand (.gotoLevel 7), by cbv, fits_ofCommand _, rfl⟩, ?_, ?_⟩
  · obtain ⟨c, hc, hback⟩ := returns (.ofCommand (.panic (some "Enemy ahead"))) (fits_ofCommand _)
    have hkept : ∀ field ∈ (CommandRecord.ofCommand (.panic (some "Enemy ahead"))).fields,
        field.2 ≠ .null → ["kind", "message"].contains field.1 = true := by
      simp [CommandRecord.ofCommand, CommandRecord.fields, Json.orNull]
    rw [ofCommand_injective hc]
    exact hback _ (CommandRecord.dumps_filter _ (fun field => ["kind", "message"].contains field.1) hkept)
  · have hread : Script.read (Script.Line.text ⟨[], .gotoLevel 7, true, by simp⟩).toList = .ok [.gotoLevel 7] :=
      Script.read_text (by decide +kernel)
    exact (scripted _ _ hread _ List.mem_cons_self).2 _ (CommandRecord.dumps_fields _)

end ScriptedRobot.Schema
