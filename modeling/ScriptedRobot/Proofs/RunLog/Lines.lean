import Mathlib
import ScriptedRobot.Proofs.RunLog.Turns
import ScriptedRobot.Proofs.Storage.Reading
import ScriptedRobot.RunLog.Stored

/-!
# Lines of run logs

A record that can be written is one line, from which its fields are read (`readLine_text`). What a reader makes of
a log follows line by line: every reader finds in the line of a record what the record says, and nothing in the
lines of other kinds, until one of them stops it.
-/

namespace ScriptedRobot.RunLog

open Text

/-! ## Readers -/

/-- The fault of a line that stops every reader. -/
def fault? : Line → Option Fault
  | .error fault => some fault
  | .ok _ => none

/-- The line is no record of a log: if it is an object at all, its type is neither that of a header nor that of a
turn. -/
def IsForeign (line : Line) : Prop :=
  ∀ fields, line = .ok (some fields) → hasType Record.headerType fields = false ∧ hasType Record.turnType fields = false

variable {a b lines : List Line} {line : Line} {fault : Fault}

theorem header_append (h : header a = .ok none) (b : List Line) : header (a ++ b) = header b := by
  induction a with
  | nil => rfl
  | cons line a ih =>
    rw [List.cons_append, header]
    rw [header] at h
    split at h
    · cases h
    · cases h
    · exact ih h

theorem header_append_of_ne (h : header a ≠ .ok none) (b : List Line) : header (a ++ b) = header a := by
  induction a with
  | nil => exact absurd rfl h
  | cons line a ih =>
    rw [List.cons_append, header]
    rw [header] at h ⊢
    split at h
    · rfl
    · rfl
    · exact ih h

theorem turns_append (h : (turns a).2 = none) (b : List Line) :
    turns (a ++ b) = ((turns a).1 ++ (turns b).1, (turns b).2) := by
  induction a with
  | nil => rfl
  | cons line a ih =>
    rw [List.cons_append, turns]
    rw [turns] at h ⊢
    split at h
    · cases h
    · simp only [ih h, List.append_assoc]

theorem turns_append_of_fault (h : (turns a).2 = some fault) (b : List Line) : turns (a ++ b) = turns a := by
  induction a with
  | nil => cases h
  | cons line a ih =>
    rw [List.cons_append, turns]
    rw [turns] at h ⊢
    split at h
    · rfl
    · simp only [ih h]

theorem IsForeign.headerIn (h : IsForeign line) :
    headerIn line = match fault? line with
      | some fault => .error fault
      | none => .ok none := by
  match line, h with
  | .error fault, _ => rfl
  | .ok none, _ => rfl
  | .ok (some fields), h =>
    have htype := (h fields rfl).1
    show Except.ok (metadata? fields) = .ok none
    rw [metadata?, htype]
    rfl

theorem IsForeign.turnIn (h : IsForeign line) :
    turnIn line = match fault? line with
      | some fault => .error fault
      | none => .ok none := by
  match line, h with
  | .error fault, _ => rfl
  | .ok none, _ => rfl
  | .ok (some fields), h =>
    have htype := (h fields rfl).2
    show payload? fields = .ok none
    rw [payload?, htype]
    rfl

/-- Foreign lines have no header in them, but the first of them that stops the reader does. -/
theorem header_foreign (h : ∀ line ∈ lines, IsForeign line) :
    header lines = match lines.findSome? fault? with
      | some fault => .error fault
      | none => .ok none := by
  induction lines with
  | nil => rfl
  | cons line lines ih =>
    obtain ⟨hline, hlines⟩ := List.forall_mem_cons.1 h
    rw [header, hline.headerIn, List.findSome?_cons]
    cases hfault : fault? line with
    | none => exact ih hlines
    | some fault => rfl

theorem turns_foreign (h : ∀ line ∈ lines, IsForeign line) : turns lines = ([], lines.findSome? fault?) := by
  induction lines with
  | nil => rfl
  | cons line lines ih =>
    obtain ⟨hline, hlines⟩ := List.forall_mem_cons.1 h
    rw [turns, hline.turnIn, List.findSome?_cons]
    cases hfault : fault? line with
    | none =>
      rw [ih hlines]
      rfl
    | some fault => rfl

/-! ## Records -/

namespace Record

/-- The fields of a record. -/
def fields : Record → Fields
  | header metadata => [("type", .str headerType), ("schema_version", .int version), ("metadata", metadata)]
  | turn payload =>
    [("type", .str turnType), ("schema_version", .int version),
      ("payload", Schema.turnPayloadJson payload.finiteOnly)]

theorem json_eq (r : Record) : r.json = .obj r.fields := by
  cases r with
  | header metadata => rfl
  | turn payload => rw [json, fields, Schema.finiteOnly_turn]

/-- The metadata of a header. -/
def toMetadata? : Record → Option Json
  | header metadata => some metadata
  | turn _ => none

/-- The payload of a turn, as it is recorded. -/
def toPayload? : Record → Option TurnPayload
  | header _ => none
  | turn payload => some payload.finiteOnly

theorem headerIn_fields (r : Record) : headerIn (.ok (some r.fields)) = .ok r.toMetadata? := by
  cases r <;> rfl

theorem turnIn_fields (r : Record) : turnIn (.ok (some r.fields)) = .ok r.toPayload? := by
  cases r with
  | header metadata => rfl
  | turn payload =>
    have hvalid := Schema.turnPayload_valid payload.finiteOnly
    have htype : hasType turnType (turn payload).fields = true := rfl
    have hlookup : (turn payload).fields.lookup "payload" = some (Schema.turnPayloadJson payload.finiteOnly) := rfl
    obtain ⟨inner, hinner⟩ : ∃ inner, Schema.turnPayloadJson payload.finiteOnly = .obj inner := ⟨_, rfl⟩
    rw [hinner] at hvalid hlookup
    show payload? (turn payload).fields = .ok (some payload.finiteOnly)
    simp only [payload?, htype, if_true, hlookup, hvalid]

/-- What the record holds is such that programs can hold it. -/
def IsProper : Record → Prop
  | header metadata => metadata.IsProper
  | turn payload => payload.IsProper

/-- Nothing prevents the record from being written. -/
structure CanWrite (r : Record) : Prop where
  shallow : r.isTooDeep = false
  unnested : r.isTooNested = false
  short : r.isWritable = true

variable {r : Record} {rs : List Record}

theorem IsProper.json (h : r.IsProper) : r.json.IsProper := by
  rw [json_eq]
  cases r with
  | header metadata =>
    refine .obj (header metadata).fields (by simp [fields]) ?_
    simp only [fields, List.forall_mem_cons]
    exact ⟨.str _, .int _, h, by simp⟩
  | turn payload =>
    have hpayload := Schema.isProper_turn (TurnPayload.IsProper.finiteOnly h)
    refine .obj (turn payload).fields (by simp [fields]) ?_
    simp only [fields, List.forall_mem_cons]
    exact ⟨.str _, .int _, hpayload, by simp⟩

theorem line_toList (r : Record) : r.line.toList = r.json.text ++ ['\n'] := by
  rw [line, Json.render, String.toList_append, String.toList_ofList]
  rfl

theorem CanWrite.isVisible (h : r.CanWrite) : ∀ c ∈ r.json.text, Json.IsVisible c :=
  (Json.written_spells r.json h.short).isVisible

theorem CanWrite.nesting_le (h : r.CanWrite) : r.json.nesting ≤ Json.depthLimit := by
  have hnested := h.unnested
  rw [isTooNested, decide_eq_false_iff_not] at hnested
  omega

/-- The text of a record is read as its fields. -/
theorem readLine_text (proper : r.IsProper) (h : r.CanWrite) : readLine r.json.text = .ok (some r.fields) := by
  have hread := Json.read_text proper.json h.short h.nesting_le
  rw [readLine, hread, json_eq]

end Record

/-! ## From a text to its lines -/

theorem linesOfBytes_text (s : String) : linesOfBytes s.toUTF8 = linesOfText s.toList := by
  rw [linesOfBytes, fromUTF8?_toUTF8]

theorem linesOfText_append {a b : List Char} (ended : EndsLines a) (h : a.getLast? = some '\r' → b.head? ≠ some '\n') :
    linesOfText (a ++ b) = linesOfText a ++ linesOfText b := by
  rw [linesOfText, fileLines_unify_append ended h, List.map_append]
  rfl

theorem visible_newlines {cs : List Char} (h : ∀ c ∈ cs, Json.IsVisible c) : '\n' ∉ cs ∧ '\r' ∉ cs := by
  have hfeed : ¬ Json.IsVisible '\n' := by decide
  have hreturn : ¬ Json.IsVisible '\r' := by decide
  exact ⟨fun hmem => hfeed (h _ hmem), fun hmem => hreturn (h _ hmem)⟩

/-- A visible text that is the end of a file is one line of it. -/
theorem linesOfText_visible {cs : List Char} (h : ∀ c ∈ cs, Json.IsVisible c) (some : cs ≠ []) :
    linesOfText cs = [readLine cs] := by
  obtain ⟨hfeed, hreturn⟩ := visible_newlines h
  rw [linesOfText, unifyNewlines_of_plain hreturn, fileLines_single hfeed some, List.map_singleton]

/-- The line of a record is its text, and what follows has its own lines. -/
theorem fileLines_record {r : Record} (h : r.CanWrite) (rest : List Char) :
    fileLines (unifyNewlines (r.line.toList ++ rest)) = r.json.text :: fileLines (unifyNewlines rest) := by
  obtain ⟨hfeed, hreturn⟩ := visible_newlines h.isVisible
  have hlast : r.line.toList.getLast? = some '\n' := by rw [Record.line_toList, List.getLast?_concat]
  have hended : EndsLines r.line.toList := by
    intro c hc
    rw [hlast] at hc
    exact .inl (Option.some.inj hc).symm
  have hplain : '\r' ∉ r.line.toList := by
    rw [Record.line_toList, List.mem_append, not_or]
    exact ⟨hreturn, by decide⟩
  rw [fileLines_unify_append hended, unifyNewlines_of_plain hplain, Record.line_toList, fileLines_feed hfeed]
  · rfl
  · intro hcut
    rw [hlast] at hcut
    cases hcut

/-! ## What whole records say -/

/-- The text of some records. -/
def text (rs : List Record) : List Char := rs.flatMap fun r => r.line.toList

/-- The line of each record. -/
def linesOf (rs : List Record) : List Line := rs.map fun r => .ok (some r.fields)

theorem fileLines_text {rs : List Record} (h : ∀ r ∈ rs, r.CanWrite) (rest : List Char) :
    fileLines (unifyNewlines (text rs ++ rest)) = rs.map (fun r => r.json.text) ++ fileLines (unifyNewlines rest) := by
  induction rs with
  | nil => rfl
  | cons r rs ih =>
    obtain ⟨hr, hrs⟩ := List.forall_mem_cons.1 h
    rw [text, List.flatMap_cons, List.append_assoc, fileLines_record hr]
    exact congrArg (List.cons _) (ih hrs)

theorem linesOfText_text {rs : List Record} (proper : ∀ r ∈ rs, r.IsProper) (h : ∀ r ∈ rs, r.CanWrite) (rest : List Char) :
    linesOfText (text rs ++ rest) = linesOf rs ++ linesOfText rest := by
  have hread : (rs.map fun r => r.json.text).map readLine = linesOf rs := by
    rw [List.map_map]
    exact List.map_congr_left fun r hr => Record.readLine_text (proper r hr) (h r hr)
  rw [linesOfText, fileLines_text h, List.map_append, hread]
  rfl

theorem header_linesOf (rs : List Record) : header (linesOf rs) = .ok (rs.findSome? Record.toMetadata?) := by
  induction rs with
  | nil => rfl
  | cons r rs ih =>
    rw [linesOf, List.map_cons, header, Record.headerIn_fields, List.findSome?_cons]
    cases r with
    | header metadata => rfl
    | turn payload => exact ih

theorem turns_linesOf (rs : List Record) : turns (linesOf rs) = (rs.filterMap Record.toPayload?, none) := by
  induction rs with
  | nil => rfl
  | cons r rs ih =>
    rw [linesOf] at ih
    rw [linesOf, List.map_cons, turns, Record.turnIn_fields, ih, List.filterMap_cons]
    cases r <;> rfl

end ScriptedRobot.RunLog
