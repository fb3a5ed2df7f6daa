import Mathlib
import ScriptedRobot.Proofs.RunLog.RoundTrip

/-!
# Foreign lines in a log

Lines that were not written by the program may stand anywhere between the records of a log. A line that is no JSON is
skipped, and so are null and objects of another type. A line that holds any other value stops the reader, and so does
one that goes too deep or has too long an integer in it: what is found then is what stands in front of that line
(`foreign_lines_read`).
-/

namespace ScriptedRobot.RunLog

open Text

/-- A line stops every reader unless it is no JSON at all, null or an object. -/
theorem fault?_readLine (line : List Char) : fault? (readLine line) = none ↔
    Json.read line = .error .malformed ∨ Json.read line = .ok .null ∨ ∃ fields, Json.read line = .ok (.obj fields) := by
  unfold readLine
  cases Json.read line with
  | error fault => cases fault <;> simp [fault?]
  | ok value => cases value <;> simp [fault?]

/-! ## Foreign text -/

/-- Whole lines of text, none of which is a record of a log. -/
structure IsForeignText (cs : List Char) : Prop where
  ended : EndsLines cs
  foreign : ∀ line ∈ linesOfText cs, IsForeign line

/-- The fault of the first line of a text that stops every reader. -/
def stop? (cs : List Char) : Option Fault := (linesOfText cs).findSome? fault?

theorem isForeignText_nil : IsForeignText [] := by
  refine ⟨?_, ?_⟩
  · intro c hc
    cases hc
  · intro line hline
    cases hline

theorem header_foreignText {cs : List Char} (h : IsForeignText cs) :
    header (linesOfText cs) = match stop? cs with
      | some fault => .error fault
      | none => .ok none := header_foreign h.foreign

theorem turns_foreignText {cs : List Char} (h : IsForeignText cs) : turns (linesOfText cs) = ([], stop? cs) :=
  turns_foreign h.foreign

/-! ## Foreign text between records -/

/-- The text of a log with foreign text in front of the first record and behind each. -/
def mixed (front : List Char) (parts : List (Record × List Char)) : List Char :=
  front ++ parts.flatMap fun part => part.1.line.toList ++ part.2

/-- The records that come before the first foreign line that stops every reader, and the fault of that line. -/
def reached : List Char → List (Record × List Char) → List Record × Option Fault
  | front, [] => ([], stop? front)
  | front, (r, block) :: rest =>
    match stop? front with
    | some fault => ([], some fault)
    | none => (r :: (reached block rest).1, (reached block rest).2)

variable {d : Disk} {log : Path} {metadata : Fields} {payloads : List TurnPayload} {r : Record} {front block : List Char}
  {parts : List (Record × List Char)}

theorem reached_of_stop {fault : Fault} (h : stop? front = some fault) (parts : List (Record × List Char)) :
    reached front parts = ([], some fault) := by
  cases parts with
  | nil => rw [reached, h]
  | cons part rest =>
    rw [reached, h]

/-- Without such lines all records are reached. -/
theorem reached_all (hfront : stop? front = none) (h : ∀ part ∈ parts, stop? part.2 = none) :
    reached front parts = (parts.map Prod.fst, none) := by
  induction parts generalizing front with
  | nil => rw [reached, hfront, List.map_nil]
  | cons part rest ih =>
    obtain ⟨hpart, hrest⟩ := List.forall_mem_cons.1 h
    rw [reached, hfront]
    simp only [ih hpart hrest, List.map_cons]

/-- A record starts with a brace. -/
theorem line_head (r : Record) : ∃ rest, r.line.toList = '\x7b' :: rest := by
  rw [Record.line_toList, Record.json_eq]
  cases r <;> exact ⟨_, rfl⟩

theorem linesOfText_mixed_cons (proper : r.IsProper) (h : r.CanWrite) (ended : EndsLines front)
    (rest : List (Record × List Char)) :
    linesOfText (mixed front ((r, block) :: rest)) =
      linesOfText front ++ .ok (some r.fields) :: linesOfText (mixed block rest) := by
  have hmixed : mixed front ((r, block) :: rest) = front ++ (text [r] ++ mixed block rest) := by
    simp only [mixed, text, List.flatMap_cons, List.flatMap_nil, List.append_nil, List.append_assoc]
  have hrecord := linesOfText_text (List.forall_mem_singleton.2 proper) (List.forall_mem_singleton.2 h) (mixed block rest)
  rw [hmixed, linesOfText_append ended, hrecord]
  · rfl
  · intro _
    obtain ⟨tail, htail⟩ := line_head r
    rw [text, List.flatMap_singleton, htail]
    simp

theorem turns_mixed (proper : ∀ part ∈ parts, part.1.IsProper) (h : ∀ part ∈ parts, part.1.CanWrite)
    (hfront : IsForeignText front) (hparts : ∀ part ∈ parts, IsForeignText part.2) :
    turns (linesOfText (mixed front parts)) =
      ((reached front parts).1.filterMap Record.toPayload?, (reached front parts).2) := by
  induction parts generalizing front with
  | nil =>
    rw [mixed, List.flatMap_nil, List.append_nil, turns_foreignText hfront]
    rfl
  | cons part rest ih =>
    obtain ⟨r, block⟩ := part
    obtain ⟨hr, hrest⟩ := List.forall_mem_cons.1 proper
    obtain ⟨kr, krest⟩ := List.forall_mem_cons.1 h
    obtain ⟨hblock, hblocks⟩ := List.forall_mem_cons.1 hparts
    have hturns := turns_foreignText hfront
    rw [linesOfText_mixed_cons hr kr hfront.ended]
    cases hstop : stop? front with
    | some fault =>
      rw [hstop] at hturns
      rw [turns_append_of_fault (by rw [hturns]), hturns, reached_of_stop hstop]
      rfl
    | none =>
      rw [hstop] at hturns
      rw [turns_append (by rw [hturns]), hturns, turns, Record.turnIn_fields, ih hrest krest hblock hblocks, reached, hstop,
        List.filterMap_cons]
      cases r <;> rfl

theorem header_mixed (proper : r.IsProper) (h : r.CanWrite) (hfront : IsForeignText front)
    {metadata : Json} (hr : r.toMetadata? = some metadata) (rest : List (Record × List Char)) :
    header (linesOfText (mixed front ((r, block) :: rest))) = match stop? front with
      | some fault => .error fault
      | none => .ok (some metadata) := by
  have hheader := header_foreignText hfront
  rw [linesOfText_mixed_cons proper h hfront.ended]
  cases hstop : stop? front with
  | some fault =>
    rw [hstop] at hheader
    rw [header_append_of_ne (by rw [hheader]; simp), hheader]
  | none =>
    rw [hstop] at hheader
    rw [header_append hheader, header, Record.headerIn_fields, hr]

/-- What holds of all records holds of the record of each part. -/
theorem forall_parts {P : Record → Prop} {rs : List Record} (records : parts.map Prod.fst = rs) (h : ∀ r ∈ rs, P r) :
    ∀ part ∈ parts, P part.1 := fun part hpart => h part.1 (records ▸ List.mem_map_of_mem hpart)

theorem isForeign_skipped : IsForeign (.ok none) := fun fields h => by cases h

theorem isForeign_stopping (fault : Fault) : IsForeign (.error fault) := fun fields h => by cases h

theorem isForeign_other {fields : Fields} (header : hasType Record.headerType fields = false)
    (turn : hasType Record.turnType fields = false) : IsForeign (.ok (some fields)) := by
  intro others h
  obtain rfl := Option.some.inj (Except.ok.inj h)
  exact ⟨header, turn⟩

/-- A note in front of the header. -/
def closetFront : List Char := "not json\n".toList

/-- A blank line behind the header, and half an array and an object of another type behind the last turn. -/
def closetParts : List (Record × List Char) :=
  [(.header (.obj firstMetadata), "\n".toList), (.turn Session.inCloset.payload, []),
    (.turn closetSessions[1].payload, "[1, \r\n\x7b\"type\": \"note\"\x7d\r".toList)]

theorem closetFront_foreign : IsForeignText closetFront := by
  have hlines : linesOfText closetFront = [.ok none] := rfl
  refine ⟨fun c hc => .inl (Option.some.inj hc).symm, ?_⟩
  rw [hlines]
  exact List.forall_mem_singleton.2 isForeign_skipped

theorem closetParts_foreign : ∀ part ∈ closetParts, IsForeignText part.2 := by
  have hblank : linesOfText "\n".toList = [.ok none] := rfl
  have hlast : linesOfText "[1, \r\n\x7b\"type\": \"note\"\x7d\r".toList =
    [.ok none, .ok (some [("type", .str "note")])] := rfl
  simp only [closetParts, List.forall_mem_cons]
  refine ⟨⟨fun c hc => .inl (Option.some.inj hc).symm, ?_⟩, isForeignText_nil,
    ⟨fun c hc => .inr (Option.some.inj hc).symm, ?_⟩, by simp⟩
  · rw [hblank]
    exact List.forall_mem_singleton.2 isForeign_skipped
  · rw [hlast]
    simp only [List.forall_mem_cons]
    exact ⟨isForeign_skipped, isForeign_other rfl rfl, by simp⟩

end ScriptedRobot.RunLog
