import Mathlib.Data.List.ReduceOption
import ScriptedRobot.Proofs.Text.Lines
import ScriptedRobot.Script.Reader

/-!
# Scripts line by line

A script is read line by line, and its lines do not look at each other: `read_join` says that two scripts
with a line feed between them are read as the commands of the one and then those of the other. The calls on
a line are tried from left to right (`readLine_eq`).
-/

namespace ScriptedRobot.Script

open Text

/-- The lines of a script that are neither blank nor comments, without the blanks around them. -/
def codeLines (code : List Char) : List (List Char) := ((lines code).map trim).filter isCode

/-! ## Steps over a list that can fail -/

section Traversal

variable {ε α β : Type} {f : α → Except ε β}

theorem mapM_cons_ok {a : α} {l : List α} {bs : List β} (h : (a :: l).mapM f = .ok bs) :
    ∃ b rest, f a = .ok b ∧ l.mapM f = .ok rest ∧ bs = b :: rest := by
  rw [List.mapM_cons] at h
  cases ha : f a with
  | error e => rw [ha] at h; cases h
  | ok b =>
    cases hl : l.mapM f with
    | error e => rw [ha, hl] at h; cases h
    | ok rest =>
      rw [ha, hl] at h
      cases h
      exact ⟨b, rest, rfl, rfl, rfl⟩

/-- All steps succeed, or there is one that fails. -/
theorem mapM_total (l : List α) :
    (∃ bs, l.mapM f = .ok bs ∧ l.map f = bs.map .ok) ∨ ∃ e, l.mapM f = .error e ∧ ∃ a ∈ l, f a = .error e := by
  induction l with
  | nil => exact .inl ⟨[], rfl, rfl⟩
  | cons a l ih =>
    rw [List.mapM_cons]
    cases ha : f a with
    | error e => exact .inr ⟨e, rfl, a, List.mem_cons_self, ha⟩
    | ok b =>
      rcases ih with ⟨bs, hbs, hmap⟩ | ⟨e, he, d, hd, hfail⟩
      · exact .inl ⟨b :: bs, by rw [hbs]; rfl, by rw [List.map_cons, ha, hmap, List.map_cons]⟩
      · exact .inr ⟨e, by rw [he]; rfl, d, List.mem_cons_of_mem _ hd, hfail⟩

end Traversal

/-! ## Lines -/

theorem read_ok_iff {code : List Char} {commands : List Command} :
    read code = .ok commands ↔
      ∃ found, (codeLines code).mapM readLine = .ok found ∧ commands = found.reduceOption := by
  unfold read codeLines
  cases ((lines code).map trim |>.filter isCode).mapM readLine with
  | error e =>
    constructor
    · intro h
      cases h
    · rintro ⟨found, h, -⟩
      cases h
  | ok found =>
    constructor
    · intro h
      cases h
      exact ⟨found, rfl, rfl⟩
    · rintro ⟨found', h, rfl⟩
      cases h
      rfl

theorem line_of_read_error {code : List Char} {fault : NumeralFault} (h : read code = .error fault) :
    ∃ line ∈ codeLines code, readLine line = .error fault := by
  rcases mapM_total (f := readLine) (codeLines code) with ⟨found, hfound, -⟩ | ⟨fault', hfault, hline⟩
  · rw [read_ok_iff.2 ⟨found, hfound, rfl⟩] at h
    cases h
  · unfold codeLines at hfault
    simp only [read, hfault] at h
    cases h
    exact hline

/-- A script is read exactly if each of its lines is. -/
theorem read_isOk_iff {code : List Char} :
    (∃ commands, read code = .ok commands) ↔ ∀ line ∈ codeLines code, ∃ answer, readLine line = .ok answer := by
  constructor
  · rintro ⟨commands, h⟩ line hline
    obtain ⟨found, hfound, -⟩ := read_ok_iff.1 h
    rcases mapM_total (f := readLine) (codeLines code) with ⟨answers, -, hmap⟩ | ⟨fault, hfault, -⟩
    · have hmem : readLine line ∈ answers.map Except.ok := hmap ▸ List.mem_map_of_mem hline
      obtain ⟨answer, -, hanswer⟩ := List.mem_map.1 hmem
      exact ⟨answer, hanswer.symm⟩
    · rw [hfound] at hfault
      cases hfault
  · intro h
    cases hread : read code with
    | ok commands => exact ⟨commands, rfl⟩
    | error fault =>
      obtain ⟨line, hline, hfault⟩ := line_of_read_error hread
      obtain ⟨answer, hanswer⟩ := h line hline
      rw [hfault] at hanswer
      cases hanswer

/-- What a script says is what its lines say one by one. -/
theorem commands_of_read {code : List Char} {commands : List Command} (h : read code = .ok commands) :
    commands = (codeLines code).filterMap fun line => (readLine line).toOption.join := by
  obtain ⟨found, hfound, rfl⟩ := read_ok_iff.1 h
  clear h
  generalize codeLines code = ls at hfound ⊢
  induction ls generalizing found with
  | nil =>
    cases hfound
    rfl
  | cons line ls ih =>
    obtain ⟨answer, rest, hline, hrest, rfl⟩ := mapM_cons_ok hfound
    cases answer with
    | none => rw [List.reduceOption_cons_of_none, ih rest hrest, List.filterMap_cons_none (by rw [hline]; rfl)]
    | some c => rw [List.reduceOption_cons_of_some, ih rest hrest, List.filterMap_cons_some (by rw [hline]; rfl)]

/-- The lines of two scripts with a line feed between them are those of the one and then those of the
other: a line that comes in between is blank. -/
theorem codeLines_join (a b : List Char) : codeLines (a ++ '\n' :: b) = codeLines a ++ codeLines b := by
  obtain ⟨between, hblank, heq⟩ := lines_append_newline a b
  have hbetween : (between.map trim).filter isCode = [] := by
    rw [List.filter_eq_nil_iff]
    intro line hline
    obtain ⟨blank, hmem, rfl⟩ := List.mem_map.1 hline
    rw [hblank blank hmem]
    decide
  simp only [codeLines, heq, List.map_append, List.filter_append, hbetween, List.append_nil]

/-- Two scripts with a line feed between them say what the one says and then what the other says. -/
theorem read_join {a b : List Char} {ca cb : List Command} (ha : read a = .ok ca) (hb : read b = .ok cb) :
    read (a ++ '\n' :: b) = .ok (ca ++ cb) := by
  obtain ⟨found, hfound, rfl⟩ := read_ok_iff.1 ha
  obtain ⟨more, hmore, rfl⟩ := read_ok_iff.1 hb
  refine read_ok_iff.2 ⟨found ++ more, ?_, List.reduceOption_append found more |>.symm⟩
  rw [codeLines_join, List.mapM_append, hfound, hmore]
  rfl

/-! ## The calls on a line -/

/-- A call as it is found on a line: its kind, and what follows its opening parenthesis. -/
abbrev Call := CommandKind × List Char

/-- The calls on a line from left to right. -/
def calls (line : List Char) : List Call :=
  match _found : nextCall? false line with
  | none => []
  | some call => call :: calls call.2
termination_by line.length
decreasing_by
  obtain ⟨kind, rest⟩ := call
  exact length_nextCall? _found

/-- The command of a call, if its arguments make sense. -/
def Call.command? (call : Call) : Except NumeralFault (Option Command) := Script.command? call.1 call.2

/-- The command of the first call whose arguments make sense. -/
def firstCommand : List Call → Except NumeralFault (Option Command)
  | [] => .ok none
  | call :: rest => do
    match ← call.command? with
    | some command => return some command
    | none => firstCommand rest

/-- A line is read as the first of its calls whose arguments make sense. -/
theorem readLine_eq (line : List Char) : readLine line = firstCommand (calls line) := by
  induction hlength : line.length using Nat.strongRecOn generalizing line with
  | ind n ih =>
    rw [readLine, calls]
    split
    · rename_i hnone
      split
      · rfl
      · rename_i call hcall
        rw [hnone] at hcall
        cases hcall
    · rename_i kind rest hsome
      split
      · rename_i hnone
        rw [hsome] at hnone
        cases hnone
      · rename_i call hcall
        rw [hsome] at hcall
        cases hcall
        have hshorter : rest.length < n := hlength ▸ length_nextCall? hsome
        have hrest := ih rest.length hshorter rest rfl
        rw [hrest, firstCommand]
        rfl

theorem firstCommand_cons_none {call : Call} {rest : List Call} (h : call.command? = .ok none) :
    firstCommand (call :: rest) = firstCommand rest := by
  rw [firstCommand, h]
  rfl

theorem firstCommand_cons_some {call : Call} {rest : List Call} {c : Command}
    (h : call.command? = .ok (some c)) : firstCommand (call :: rest) = .ok (some c) := by
  rw [firstCommand, h]
  rfl

theorem firstCommand_cons_error {call : Call} {rest : List Call} {fault : NumeralFault}
    (h : call.command? = .error fault) : firstCommand (call :: rest) = .error fault := by
  rw [firstCommand, h]
  rfl

/-! ## Where characters come from -/

theorem afterChar?_suffix {c : Char} {cs rest : List Char} (h : afterChar? c cs = some rest) : rest <:+ cs := by
  cases cs with
  | nil => cases h
  | cons d cs =>
    simp only [afterChar?] at h
    split at h
    · cases h
      exact List.suffix_cons d _
    · cases h

theorem callAt?_suffix {cs rest : List Char} {kind : CommandKind} (h : callAt? cs = some (kind, rest)) :
    rest <:+ cs := by
  obtain ⟨⟨name, k⟩, -, found⟩ := List.exists_of_findSome?_eq_some h
  simp only [Option.bind_eq_bind, Option.bind_eq_some_iff] at found
  obtain ⟨tail, hafter, rest', hparen, heq⟩ := found
  cases heq
  have htail : tail <:+ cs := by
    unfold after? at hafter
    split at hafter
    · cases hafter
      exact List.drop_suffix _ cs
    · cases hafter
  have htrim : trimLeft tail <:+ tail := List.dropWhile_suffix _
  exact (afterChar?_suffix hparen).trans (htrim.trans htail)

theorem nextCall?_suffix {afterWord : Bool} {cs rest : List Char} {kind : CommandKind}
    (h : nextCall? afterWord cs = some (kind, rest)) : rest <:+ cs := by
  induction cs generalizing afterWord with
  | nil => cases h
  | cons c cs ih =>
    simp only [nextCall?] at h
    split at h
    · rename_i call found
      cases h
      cases afterWord with
      | true => cases found
      | false => exact callAt?_suffix (by simpa using found)
    · exact (ih h).trans (List.suffix_cons c cs)

theorem suffix_of_mem_calls {line : List Char} {call : Call} (h : call ∈ calls line) : call.2 <:+ line := by
  induction hlength : line.length using Nat.strongRecOn generalizing line with
  | ind n ih =>
    rw [calls] at h
    split at h
    · cases h
    · rename_i first hfirst
      obtain ⟨kind, rest⟩ := first
      have hsuffix := nextCall?_suffix hfirst
      rcases List.mem_cons.1 h with rfl | h
      · exact hsuffix
      · have hshorter : rest.length < n := hlength ▸ length_nextCall? hfirst
        exact (ih rest.length hshorter h rfl).trans hsuffix

/-- A line of code holds no line break. -/
theorem not_break_of_mem_codeLines {code line : List Char} {c : Char} (hline : line ∈ codeLines code)
    (hc : c ∈ line) : isLineBreak c = false := by
  obtain ⟨whole, hwhole, rfl⟩ := List.mem_map.1 (List.mem_of_mem_filter hline)
  have hfront : c ∈ (whole.dropWhile isBlank).reverse :=
    (List.dropWhile_suffix _).subset (List.mem_reverse.1 hc)
  have hmem : c ∈ whole := (List.dropWhile_suffix _).subset (List.mem_reverse.1 hfront)
  exact not_break_of_mem_lines hwhole hmem

end ScriptedRobot.Script
