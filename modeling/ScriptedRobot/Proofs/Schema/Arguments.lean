import ScriptedRobot.Schema.Command

/-!
# The arguments of a valid record

A record is valid exactly if it is the record of its command (`check_eq_valid_iff`), so it holds the argument
that its kind needs and none that the kind does not know.
-/

namespace ScriptedRobot.Schema

/-- Nothing is wrong with an argument that is there if it is needed and is missing if the kind does not
know it. -/
theorem complaint?_eq_none_iff {r : CommandRecord} {a : Argument} : a.complaint? r = none ↔
    (Argument.neededBy r.kind = some a → a.isGiven r = true) ∧
      (a.isGiven r = true → Argument.neededBy r.kind = some a ∨ Argument.allowedBy r.kind = some a) := by
  unfold Argument.complaint?
  by_cases hneeded : Argument.neededBy r.kind = some a
  · by_cases hgiven : a.isGiven r = true <;> simp [hneeded, hgiven]
  · by_cases hallowed : Argument.allowedBy r.kind = some a
    · simp [hneeded, hallowed]
    · by_cases hgiven : a.isGiven r = true <;> simp [hneeded, hallowed, hgiven]

theorem check_ofCommand (c : Command) : (CommandRecord.ofCommand c).check = .valid c := by
  cases c with
  | move h | scan h | laserDirection h => cases h <;> rfl
  | panic message => cases message <;> rfl
  | _ => rfl

theorem eq_ofCommand_of_fits {r : CommandRecord} {c : Command} (fits : ∀ a : Argument, a.complaint? r = none)
    (command : r.command? = some c) : r = .ofCommand c := by
  obtain ⟨kind, direction, coordinates, levelNumber, flag, message⟩ := r
  have hdirection := complaint?_eq_none_iff.1 (fits .direction)
  have hcoordinates := complaint?_eq_none_iff.1 (fits .coordinates)
  have hlevelNumber := complaint?_eq_none_iff.1 (fits .levelNumber)
  have hflag := complaint?_eq_none_iff.1 (fits .flag)
  have hmessage := complaint?_eq_none_iff.1 (fits .message)
  -- what the kind does not know is missing
  cases kind <;>
    simp [Argument.neededBy, Argument.allowedBy, Argument.isGiven] at hdirection hcoordinates hlevelNumber hflag hmessage
  case move | scan | laserDirection =>
    obtain ⟨heading, hheading, rfl⟩ := Option.map_eq_some_iff.1 command
    obtain ⟨p, rfl, hstep⟩ := Option.bind_eq_some_iff.1 hheading
    rw [hcoordinates, hlevelNumber, hflag, hmessage, ← Heading.ofStep?_eq_some_iff.1 hstep]
    rfl
  case setAutoGrab | openDoor =>
    obtain ⟨b, rfl, rfl⟩ := Option.map_eq_some_iff.1 command
    rw [hdirection, hcoordinates, hlevelNumber, hmessage]
    rfl
  case laserTile =>
    obtain ⟨p, rfl, rfl⟩ := Option.map_eq_some_iff.1 command
    rw [hdirection, hlevelNumber, hflag, hmessage]
    rfl
  case gotoLevel =>
    obtain ⟨n, rfl, rfl⟩ := Option.map_eq_some_iff.1 command
    rw [hdirection, hcoordinates, hflag, hmessage]
    rfl
  case println | eprintln =>
    obtain ⟨text, rfl, rfl⟩ := Option.map_eq_some_iff.1 command
    rw [hdirection, hcoordinates, hlevelNumber, hflag]
    rfl
  case grab | searchAll | skipLevel =>
    cases command
    rw [hdirection, hcoordinates, hlevelNumber, hflag, hmessage]
    rfl
  case panic =>
    cases command
    rw [hdirection, hcoordinates, hlevelNumber, hflag]
    rfl

/-- A record is valid exactly if it is the record of its command. -/
theorem check_eq_valid_iff {r : CommandRecord} {c : Command} : r.check = .valid c ↔ r = .ofCommand c := by
  constructor
  · intro h
    unfold CommandRecord.check at h
    split at h
    · cases h
    · rename_i hnone
      have hfits : ∀ a : Argument, a.complaint? r = none := by
        intro a
        have hmem : a ∈ Argument.all := by cases a <;> decide
        exact List.findSome?_eq_none_iff.1 hnone a hmem
      split at h
      · rename_i c' hcommand
        cases h
        exact eq_ofCommand_of_fits hfits hcommand
      · cases h
  · rintro rfl
    exact check_ofCommand c

/-- A valid record holds the argument that its kind needs. -/
theorem isGiven_of_check {r : CommandRecord} {c : Command} {a : Argument} (h : r.check = .valid c)
    (needed : Argument.neededBy r.kind = some a) : a.isGiven r = true := by
  obtain rfl := check_eq_valid_iff.1 h
  cases c <;> cases needed <;> rfl

end ScriptedRobot.Schema
