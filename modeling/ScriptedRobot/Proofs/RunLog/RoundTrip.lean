import Mathlib
import ScriptedRobot.Proofs.RunLog.Adding
import ScriptedRobot.Proofs.Session.Payloads
import ScriptedRobot.Proofs.Session.Reporting

/-!
# Run logs are read back

What is written about a run, the metadata and then the payload of the session after each batch, is read back from
the log, one line for each record (`session_log_read_back`). The metadata may be anything whose integers can be
written and in which not too many arrays and objects are open at once.
-/

namespace ScriptedRobot.RunLog

/-- The records of a run: the header, and then a turn for each payload. -/
def recordsOf (metadata : Fields) (payloads : List TurnPayload) : List Record :=
  .header (.obj metadata) :: payloads.map .turn

variable {d : Disk} {log : Path} {metadata : Fields} {payloads : List TurnPayload} {rs : List Record}

/-- Do the records hold what programs can hold? -/
theorem forall_recordsOf {P : Record → Prop} (header : P (.header (.obj metadata)))
    (turns : ∀ payload ∈ payloads, P (.turn payload)) : ∀ r ∈ recordsOf metadata payloads, P r :=
  List.forall_mem_cons.2 ⟨header, List.forall_mem_map.2 turns⟩

theorem recordsOf_ne_nil : recordsOf metadata payloads ≠ [] := List.cons_ne_nil _ _

theorem toMetadata?_recordsOf : (recordsOf metadata payloads).findSome? Record.toMetadata? = some (.obj metadata) := rfl

theorem toPayload?_recordsOf :
    (recordsOf metadata payloads).filterMap Record.toPayload? = payloads.map TurnPayload.finiteOnly := by
  rw [recordsOf, List.filterMap_cons]
  simp only [Record.toPayload?, List.filterMap_map]
  rw [← List.filterMap_eq_map]
  rfl

/-! ## Whole logs -/

theorem lines_run {bytes : ByteArray} (h : d.bytes log = .ok bytes) :
    (RunLog.lines log : StateM Disk (Except StorageFault (List Line))).run d = (.ok (linesOfBytes bytes), d) := by
  have hbytes : (Storage.bytes log : StateM Disk (Except StorageFault ByteArray)).run d = (d.bytes log, d) := rfl
  rw [RunLog.lines, stateM_run_bind, hbytes, h]
  rfl

theorem linesOfBytes_stored (proper : ∀ r ∈ rs, r.IsProper) (h : ∀ r ∈ rs, r.CanWrite) :
    linesOfBytes (stored rs) = linesOf rs := by
  have hlines := linesOfText_text proper h []
  rw [List.append_nil] at hlines
  rw [stored, linesOfBytes_text, String.toList_ofList, hlines]
  exact List.append_nil _

theorem text_stored (h : d.bytes log = .ok (stored rs)) :
    d.text log = .ok (String.ofList (Text.unifyNewlines (text rs))) := by
  rw [Disk.text, h]
  simp only [textOfBytes?, stored, fromUTF8?_toUTF8, Option.map_some, String.toList_ofList, Option.elim_some]

/-! ## What can be written -/

theorem isWritable_version : Text.Numeral.isWritable version = true := by decide +kernel

theorem isWritable_fields (type key : String) {value : Json} (h : value.isWritable = true) :
    (Json.obj [("type", .str type), ("schema_version", .int version), (key, value)]).isWritable = true := by
  rw [Json.isWritable]
  simp only [Json.fieldsAreWritable, h, Json.isWritable, isWritable_version, Bool.and_self]

theorem canWrite_header (nested : (Json.obj metadata).nesting < Json.depthLimit)
    (writable : (Json.obj metadata).isWritable = true) : (Record.header (.obj metadata)).CanWrite := by
  have hnesting : (Record.header (.obj metadata)).json.nesting ≤ (Json.obj metadata).nesting + 1 := by
    refine Json.nesting_object_le ?_
    simp only [List.forall_mem_cons, Json.nesting_int, Json.nesting_str]
    exact ⟨Nat.zero_le _, Nat.zero_le _, Nat.le_refl _, by simp⟩
  refine ⟨rfl, ?_, ?_⟩
  · rw [Record.isTooNested, decide_eq_false_iff_not]
    omega
  · exact isWritable_fields _ _ writable

theorem canWrite_turn {p : TurnPayload} (flat : p.IsFlat) (short : (Schema.turnPayloadJson p).isWritable = true) :
    (Record.turn p).CanWrite := by
  have hpayload : (Record.turn p).json = .obj [("type", .str Record.turnType), ("schema_version", .int version),
      ("payload", Schema.turnPayloadJson p)] := by
    rw [Record.json_eq, Record.fields, flat.finiteOnly]
  have hfree : (Schema.turnPayloadJson p).nesting ≤ 6 :=
    Schema.nesting_turn fun value hvalue => (flat.freeValues value hvalue).nesting_le
  have hnesting : (Record.turn p).json.nesting ≤ 7 := by
    rw [hpayload]
    refine Json.nesting_object_le ?_
    simp only [List.forall_mem_cons, Json.nesting_int, Json.nesting_str]
    exact ⟨Nat.zero_le _, Nat.zero_le _, hfree, by simp⟩
  refine ⟨?_, ?_, ?_⟩
  · rw [Record.isTooDeep, List.any_eq_false]
    intro value hvalue
    have hdepth := (flat.freeValues value hvalue).depth_le
    have hlimit : Record.depthLimit = 255 := rfl
    rw [decide_eq_true_eq]
    omega
  · rw [Record.isTooNested, decide_eq_false_iff_not, Json.depthLimit]
    omega
  · rw [Record.isWritable, hpayload]
    exact isWritable_fields _ _ short

theorem canWrite_recordsOf {σ : Type} {sessions : List (Session σ)} (nested : (Json.obj metadata).nesting < Json.depthLimit)
    (writable : (Json.obj metadata).isWritable = true)
    (short : ∀ s ∈ sessions, (Schema.turnPayloadJson s.payload).isWritable = true) :
    ∀ r ∈ recordsOf metadata (sessions.map Session.payload), r.CanWrite :=
  forall_recordsOf (canWrite_header nested writable)
    (List.forall_mem_map.2 fun s hs => canWrite_turn s.payload_flat (short s hs))

/-! ## Runs of sessions -/

theorem isProper_recordsOf {σ : Type} (proper : (Json.obj metadata).IsProper) (sessions : List (Session σ)) :
    ∀ r ∈ recordsOf metadata (sessions.map Session.payload), r.IsProper :=
  forall_recordsOf proper (List.forall_mem_map.2 fun s _ => s.payload_flat.isProper)

theorem finiteOnly_payloads {σ : Type} (sessions : List (Session σ)) :
    (sessions.map Session.payload).map TurnPayload.finiteOnly = sessions.map Session.payload := by
  rw [List.map_map]
  exact List.map_congr_left fun s _ => s.payload_flat.finiteOnly

/-- A disk with nothing on it. -/
def emptyDisk : Disk := { here := [] }

/-- A log in a folder that is still to be made. -/
def firstLog : Path := inFolder ⟨"", ["runs", "first"]⟩

theorem canStart_firstLog : emptyDisk.CanStart firstLog := ⟨_, _, rfl, rfl, rfl⟩

/-- A run that starts in the first of some levels. -/
def firstMetadata : Fields := [("run_id", .str "first\n\"run\""), ("levels", .arr [.int 1, .null])]

theorem firstMetadata_isProper : (Json.obj firstMetadata).IsProper := by
  have hlevels : (Json.arr [.int 1, .null]).IsProper := by
    refine .arr _ ?_
    simp only [List.forall_mem_cons]
    exact ⟨.int 1, .null, by simp⟩
  refine .obj _ (by decide) ?_
  simp only [firstMetadata, List.forall_mem_cons]
  exact ⟨.str _, hlevels, by simp⟩

/-- A session in a closet, and the same session after it has printed something. -/
def closetSessions : List (Session Random.Twister) :=
  [Session.inCloset, (Session.inCloset.runScript "println!(\"\u2028\")").1]

theorem closetSessions_short : ∀ s ∈ closetSessions, (Schema.turnPayloadJson s.payload).isWritable = true := by
  refine List.forall_mem_cons.2 ⟨by decide +kernel, ?_⟩
  exact List.forall_mem_singleton.2 (by decide +kernel)

theorem closetRecords_canWrite : ∀ r ∈ recordsOf firstMetadata (closetSessions.map Session.payload), r.CanWrite :=
  canWrite_recordsOf (by decide) (by decide +kernel) closetSessions_short

/-- A header in whose metadata too many arrays and objects are open at once is not written, and none is found then. -/
theorem header_refused (start : d.CanStart log) (nested : Json.depthLimit ≤ (Json.obj metadata).nesting) :
    ∃ last found, (adding log (recordsOf metadata [])).run d = ([.error .tooNested], last) ∧
      (RunLog.lines log : StateM Disk (Except StorageFault (List Line))).run last = (.ok found, last) ∧
      header found = .ok none := by
  have hmetadata := Json.le_fieldsNesting "metadata" (.obj metadata) []
  have hversion := Json.le_fieldsNesting "schema_version" (.int version) [("metadata", .obj metadata)]
  have htype := Json.le_fieldsNesting "type" (.str Record.headerType)
    [("schema_version", .int version), ("metadata", .obj metadata)]
  have hnested : (Record.header (.obj metadata)).isTooNested = true := by
    rw [Record.isTooNested, decide_eq_true_eq, Record.json, Json.nesting]
    omega
  have hwritten : (Record.header (.obj metadata)).written = .error .tooNested := by
    rw [Record.written, if_pos hnested]
  have hadded : (Record.header (.obj metadata)).added = "".toUTF8 := by
    rw [Record.added, hwritten]
    rfl
  have hshallow : (Record.header (.obj metadata)).isTooDeep = false := rfl
  obtain ⟨last, hadd, hlast⟩ := add_start start hshallow
  rw [hwritten] at hadd
  rw [hadded] at hlast
  refine ⟨last, _, ?_, lines_run hlast.bytes_eq, ?_⟩
  · rw [recordsOf, adding_cons, hadd]
    rfl
  · rw [linesOfBytes_text]
    rfl

/-- An array in an array in an array, and so on. -/
def nestedArrays (depth : Nat) : Json := (fun value => .arr [value])^[depth] .null

theorem nestedArrays_succ (depth : Nat) : nestedArrays (depth + 1) = .arr [nestedArrays depth] :=
  Function.iterate_succ_apply' _ depth _

theorem nestedArrays_isProper (depth : Nat) : (nestedArrays depth).IsProper := by
  induction depth with
  | zero => exact .null
  | succ depth ih =>
    rw [nestedArrays_succ]
    exact .arr _ (List.forall_mem_singleton.2 ih)

theorem nestedArrays_isWritable (depth : Nat) : (nestedArrays depth).isWritable = true := by
  induction depth with
  | zero => rfl
  | succ depth ih =>
    rw [nestedArrays_succ]
    simp only [Json.isWritable, Json.areWritable, ih, Bool.and_self]

theorem nestedArrays_nesting (depth : Nat) : (nestedArrays depth).nesting = depth := by
  induction depth with
  | zero => rfl
  | succ depth ih =>
    rw [nestedArrays_succ]
    simp only [Json.nesting, Json.elementsNesting, ih, Nat.max_zero]

/-- Metadata that go as deep as one likes. -/
def deepMetadata (depth : Nat) : Fields := [("deep", nestedArrays depth)]

theorem deepMetadata_isProper (depth : Nat) : (Json.obj (deepMetadata depth)).IsProper :=
  .obj _ (List.nodup_singleton _) (List.forall_mem_singleton.2 (nestedArrays_isProper depth))

theorem deepMetadata_isWritable (depth : Nat) : (Json.obj (deepMetadata depth)).isWritable = true := by
  simp only [deepMetadata, Json.isWritable, Json.fieldsAreWritable, nestedArrays_isWritable, Bool.and_self]

theorem deepMetadata_nesting (depth : Nat) : (Json.obj (deepMetadata depth)).nesting = depth + 1 := by
  simp only [deepMetadata, Json.nesting, Json.fieldsNesting, nestedArrays_nesting, Nat.max_zero]

end ScriptedRobot.RunLog
