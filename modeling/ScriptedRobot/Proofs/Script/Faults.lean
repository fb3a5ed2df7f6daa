import ScriptedRobot.Proofs.Schema.Arguments
import ScriptedRobot.Proofs.Script.Writing

/-!
# When scripts fail to be read

Whatever a line says, it yields one command or none, with one exception: a call of the right shape whose
numeral has too many digits. `read_total` says that a script is read unless the search for a call runs into
such a numeral on one of its lines (`Jams`), and that all commands that are read are ones that scripts can
spell. `read_overlong_level` is a script that is not read.
-/

namespace ScriptedRobot.Script

open Text

/-! ## Numerals in calls -/

/-- Digits of any script, perhaps behind a minus sign. -/
def IsNumeral (cs : List Char) : Prop :=
  ∃ ds, (∀ c ∈ ds, isDigit c = true) ∧ ds ≠ [] ∧ (cs = ds ∨ cs = '-' :: ds)

def TooLong (numeral : List Char) : Prop := Numeral.digitLimit < numeral.countP isDigit

theorem digits?_shape {cs ds rest : List Char} (h : digits? cs = some (ds, rest)) :
    (∀ c ∈ ds, isDigit c = true) ∧ ds ≠ [] := by
  unfold digits? at h
  split at h
  · cases h
  · rename_i hne
    cases h
    exact ⟨fun c hc => List.mem_takeWhile_imp hc, hne⟩

theorem integer?_shape {cs numeral rest : List Char} (h : integer? cs = some (numeral, rest)) : IsNumeral numeral := by
  unfold integer? at h
  split at h
  · obtain ⟨⟨ds, tail⟩, hdigits, heq⟩ := Option.map_eq_some_iff.1 h
    cases heq
    obtain ⟨hall, hne⟩ := digits?_shape hdigits
    exact ⟨ds, hall, hne, .inr rfl⟩
  · obtain ⟨hall, hne⟩ := digits?_shape h
    exact ⟨numeral, hall, hne, .inl rfl⟩

theorem integerPair?_shape {cs first second : List Char} (h : integerPair? cs = some (first, second)) :
    IsNumeral first ∧ IsNumeral second := by
  simp only [integerPair?, Option.bind_eq_bind, Option.bind_eq_some_iff] at h
  obtain ⟨⟨numeral, rest⟩, hfirst, rest', -, ⟨numeral', rest''⟩, hsecond, heq⟩ := h
  split at heq
  · cases heq
    exact ⟨integer?_shape hfirst, integer?_shape hsecond⟩
  · cases heq

theorem natural?_shape {cs ds : List Char} (h : natural? cs = some ds) :
    (∀ c ∈ ds, isDigit c = true) ∧ ds ≠ [] := by
  simp only [natural?, Option.bind_eq_bind, Option.bind_eq_some_iff] at h
  obtain ⟨⟨ds', rest⟩, hdigits, heq⟩ := h
  split at heq
  · cases heq
    exact digits?_shape hdigits
  · cases heq

theorem countP_isDigit {ds : List Char} (h : ∀ c ∈ ds, isDigit c = true) : ds.countP isDigit = ds.length :=
  List.countP_eq_length.2 h

theorem read_natural {ds : List Char} (h : ∀ c ∈ ds, isDigit c = true) (nonempty : ds ≠ []) :
    (TooLong ds ∧ Numeral.read ds = .error (.tooLong (ds.countP isDigit))) ∨
      (¬ TooLong ds ∧ ∃ n, Numeral.read ds = .ok n ∧ 0 ≤ n ∧ Numeral.isWritable n = true) := by
  rw [read_digits h nonempty, TooLong, countP_isDigit h]
  by_cases hlong : Numeral.digitLimit < ds.length
  · exact .inl ⟨hlong, if_pos hlong⟩
  · have hbound : decimal ds < Numeral.writeBound := decimal_lt_writeBound h (by omega)
    exact .inr ⟨hlong, decimal ds, if_neg hlong, Int.natCast_nonneg _, decide_eq_true hbound⟩

/-- A numeral is read unless it is too long, and then the number can be written. -/
theorem read_numeral {numeral : List Char} (h : IsNumeral numeral) :
    (TooLong numeral ∧ Numeral.read numeral = .error (.tooLong (numeral.countP isDigit))) ∨
      (¬ TooLong numeral ∧ ∃ n, Numeral.read numeral = .ok n ∧ Numeral.isWritable n = true) := by
  obtain ⟨ds, hall, hne, rfl | rfl⟩ := h
  · rcases read_natural hall hne with hlong | ⟨hshort, n, hread, -, hwritable⟩
    · exact .inl hlong
    · exact .inr ⟨hshort, n, hread, hwritable⟩
  · have hcount : ('-' :: ds).countP isDigit = ds.length := by
      rw [List.countP_cons_of_neg (by decide), countP_isDigit hall]
    rw [read_negated hall hne, TooLong, hcount]
    by_cases hlong : Numeral.digitLimit < ds.length
    · exact .inl ⟨hlong, if_pos hlong⟩
    · have hbound : decimal ds < Numeral.writeBound := decimal_lt_writeBound hall (by omega)
      have habs : (-(decimal ds : Int)).natAbs = decimal ds := by omega
      refine .inr ⟨hlong, -(decimal ds : Int), if_neg hlong, ?_⟩
      rw [Numeral.isWritable, habs]
      exact decide_eq_true hbound

/-- The numerals of an argument that has the right shape. -/
def numeralsOf : CommandKind → List Char → List (List Char)
  | .laserTile, arg =>
    match integerPair? arg with
    | some (first, second) => [first, second]
    | none => []
  | .gotoLevel, arg => (natural? arg).toList
  | _, _ => []

/-- An argument fails to be read if one of its numerals is too long, and never else. -/
theorem commandOf_fails_or (kind : CommandKind) (arg : List Char) :
    (∃ numeral ∈ numeralsOf kind arg, TooLong numeral ∧
        commandOf kind arg = .error (.tooLong (numeral.countP isDigit))) ∨
      ((∀ numeral ∈ numeralsOf kind arg, ¬ TooLong numeral) ∧ ∃ answer, commandOf kind arg = .ok answer) := by
  cases kind with
  | laserTile =>
    cases hpair : integerPair? arg with
    | none => exact .inr ⟨by simp [numeralsOf, hpair], none, by simp only [commandOf, hpair]⟩
    | some pair =>
      obtain ⟨first, second⟩ := pair
      obtain ⟨hfirst, hsecond⟩ := integerPair?_shape hpair
      simp only [numeralsOf, commandOf, hpair]
      rcases read_numeral hfirst with ⟨hlong, hread⟩ | ⟨hshort, x, hread, -⟩
      · exact .inl ⟨first, List.mem_cons_self, hlong, by rw [hread]; rfl⟩
      rcases read_numeral hsecond with ⟨hlong', hread'⟩ | ⟨hshort', y, hread', -⟩
      · exact .inl ⟨second, by simp, hlong', by rw [hread, hread']; rfl⟩
      · refine .inr ⟨?_, some (.laserTile ⟨x, y⟩), by rw [hread, hread']; rfl⟩
        intro numeral hmem
        rcases List.mem_pair.1 hmem with rfl | rfl
        · exact hshort
        · exact hshort'
  | gotoLevel =>
    cases hnatural : natural? arg with
    | none => exact .inr ⟨by simp [numeralsOf, hnatural], none, by simp only [commandOf, hnatural]⟩
    | some ds =>
      obtain ⟨hall, hne⟩ := natural?_shape hnatural
      simp only [numeralsOf, commandOf, hnatural, Option.toList_some, List.mem_singleton]
      rcases read_natural hall hne with ⟨hlong, hread⟩ | ⟨hshort, n, hread, -, -⟩
      · exact .inl ⟨ds, rfl, hlong, by rw [hread]; rfl⟩
      · refine .inr ⟨?_, some (.gotoLevel n), by rw [hread]; rfl⟩
        rintro numeral rfl
        exact hshort
  | _ => exact .inr ⟨by simp [numeralsOf], _, rfl⟩

namespace Call

def numerals (call : Call) : List (List Char) := ((argument? call.2).map (numeralsOf call.1)).getD []

theorem command?_fails_or (call : Call) :
    (∃ numeral ∈ call.numerals, TooLong numeral ∧ call.command? = .error (.tooLong (numeral.countP isDigit))) ∨
      ((∀ numeral ∈ call.numerals, ¬ TooLong numeral) ∧ ∃ answer, call.command? = .ok answer) := by
  obtain ⟨kind, rest⟩ := call
  by_cases hprinting : kind ∈ printingKinds
  · have hnumerals : numerals (kind, rest) = [] := by
      unfold numerals
      cases argument? rest <;> cases kind <;> first | rfl | exact absurd hprinting (by decide)
    rw [hnumerals]
    refine .inr ⟨by simp, ?_⟩
    cases kind <;> first | exact ⟨_, rfl⟩ | exact absurd hprinting (by decide)
  · cases hargument : argument? rest with
    | none =>
      exact .inr ⟨by simp [numerals, hargument], none, command?_eq_none hprinting hargument⟩
    | some arg =>
      have hnumerals : numerals (kind, rest) = numeralsOf kind arg := by
        rw [numerals, hargument]
        rfl
      have hcommand : Call.command? (kind, rest) = commandOf kind arg := command?_eq_commandOf hprinting hargument
      rw [hnumerals, hcommand]
      exact commandOf_fails_or kind arg

end Call

/-! ## The search for a call -/

/-- Does the search for a call run into a numeral that is too long? The calls before it make no sense and are
passed over. -/
inductive Jams : List Call → Prop
  | here {call : Call} {rest : List Call} (long : ∃ numeral ∈ call.numerals, TooLong numeral) : Jams (call :: rest)
  | later {call : Call} {rest : List Call} (passed : call.command? = .ok none) (jams : Jams rest) :
      Jams (call :: rest)

/-- The command of the leftmost call that makes sense. -/
def usable? (cs : List Call) : Option Command := cs.findSome? fun call => call.command?.toOption.join

theorem firstCommand_fails_or (cs : List Call) :
    (Jams cs ∧ ∃ digits, Numeral.digitLimit < digits ∧ firstCommand cs = .error (.tooLong digits)) ∨
      (¬ Jams cs ∧ firstCommand cs = .ok (usable? cs)) := by
  induction cs with
  | nil =>
    refine .inr ⟨?_, rfl⟩
    intro h
    cases h
  | cons call cs ih =>
    rcases call.command?_fails_or with ⟨numeral, hmem, hlong, herror⟩ | ⟨hshort, answer, hanswer⟩
    · exact .inl ⟨.here ⟨numeral, hmem, hlong⟩, _, hlong, firstCommand_cons_error herror⟩
    have hhere : ¬ ∃ numeral ∈ call.numerals, TooLong numeral := by
      rintro ⟨numeral, hmem, hlong⟩
      exact hshort numeral hmem hlong
    cases answer with
    | none =>
      have husable : usable? (call :: cs) = usable? cs := by
        rw [usable?, List.findSome?_cons, hanswer]
        rfl
      rw [firstCommand_cons_none hanswer, husable]
      rcases ih with ⟨hjams, hfault⟩ | ⟨hfree, hread⟩
      · exact .inl ⟨.later hanswer hjams, hfault⟩
      · refine .inr ⟨?_, hread⟩
        rintro (hlong | ⟨-, hjams⟩)
        · exact hhere hlong
        · exact hfree hjams
    | some c =>
      have husable : usable? (call :: cs) = some c := by
        rw [usable?, List.findSome?_cons, hanswer]
        rfl
      rw [firstCommand_cons_some hanswer, husable]
      refine .inr ⟨?_, rfl⟩
      rintro (hlong | ⟨hpassed, -⟩)
      · exact hhere hlong
      · rw [hanswer] at hpassed
        cases hpassed

theorem call_of_usable? {cs : List Call} {c : Command} (h : usable? cs = some c) :
    ∃ call ∈ cs, call.command? = .ok (some c) := by
  obtain ⟨call, hmem, hcall⟩ := List.exists_of_findSome?_eq_some h
  refine ⟨call, hmem, ?_⟩
  cases hcommand : call.command? with
  | error fault =>
    rw [hcommand] at hcall
    cases hcall
  | ok answer =>
    rw [hcommand] at hcall
    exact congrArg _ hcall

/-! ## Commands that are read -/

theorem unescape_only_feeds {c : Char} (h : isLineBreak c = false) (hbreak : isLineBreak (unescape c) = true) :
    unescape c = '\n' := by
  unfold unescape at hbreak ⊢
  split at hbreak
  · rfl
  · exact absurd hbreak (by decide)
  · rw [h] at hbreak
    cases hbreak

theorem literalBody?_only_feeds {cs text rest : List Char} (h : ∀ c ∈ cs, isLineBreak c = false)
    (read : literalBody? cs = some (text, rest)) : ∀ c ∈ text, isLineBreak c = true → c = '\n' := by
  fun_induction literalBody? cs generalizing text rest with
  | case1 => cases read
  | case2 => cases read; simp
  | case3 => cases read
  | case4 => cases read
  | case5 c cs hfeed ih =>
    obtain ⟨⟨text', rest'⟩, hread, heq⟩ := Option.map_eq_some_iff.1 read
    cases heq
    intro d hd hbreak
    rcases List.mem_cons.1 hd with rfl | hd
    · exact unescape_only_feeds (h c (by simp)) hbreak
    · exact ih (fun e he => h e (by simp [he])) hread d hd hbreak
  | case6 c cs _ _ _ ih =>
    obtain ⟨⟨text', rest'⟩, hread, heq⟩ := Option.map_eq_some_iff.1 read
    cases heq
    intro d hd hbreak
    rcases List.mem_cons.1 hd with rfl | hd
    · rw [h d (by simp)] at hbreak
      cases hbreak
    · exact ih (fun e he => h e (by simp [he])) hread d hd hbreak

theorem printed?_only_feeds {cs : List Char} {text : String} (h : ∀ c ∈ cs, isLineBreak c = false)
    (read : printed? cs = some text) : OnlyFeeds text := by
  unfold printed? at read
  split at read
  · rename_i body rest hliteral
    obtain ⟨inside, hquote, hbody⟩ := Option.bind_eq_some_iff.1 hliteral
    have hsuffix : inside <:+ cs := (afterChar?_suffix hquote).trans (List.dropWhile_suffix _)
    split at read
    · cases read
      rw [OnlyFeeds, String.toList_ofList]
      exact literalBody?_only_feeds (fun c hc => h c (hsuffix.subset hc)) hbody
    · cases read
  · obtain ⟨inside, -, hread⟩ := Option.bind_eq_some_iff.1 read
    split at hread
    · cases hread
      decide
    · cases hread

theorem writable_of_commandOf {kind : CommandKind} {arg : List Char} {c : Command}
    (h : commandOf kind arg = .ok (some c)) : Writable c := by
  cases kind with
  | move | scan | laserDirection =>
    obtain ⟨heading, -, rfl⟩ := Option.map_eq_some_iff.1 (Except.ok.inj h)
    trivial
  | setAutoGrab | openDoor =>
    obtain ⟨b, -, rfl⟩ := Option.map_eq_some_iff.1 (Except.ok.inj h)
    trivial
  | grab | searchAll | skipLevel =>
    simp only [commandOf] at h
    split at h
    · cases h
      trivial
    · cases h
  | laserTile =>
    cases hpair : integerPair? arg with
    | none =>
      simp only [commandOf, hpair] at h
      cases h
    | some pair =>
      obtain ⟨first, second⟩ := pair
      obtain ⟨hfirst, hsecond⟩ := integerPair?_shape hpair
      simp only [commandOf, hpair] at h
      rcases read_numeral hfirst with ⟨-, hread⟩ | ⟨-, x, hread, hx⟩
      · rw [hread] at h
        cases h
      rcases read_numeral hsecond with ⟨-, hread'⟩ | ⟨-, y, hread', hy⟩
      · rw [hread, hread'] at h
        cases h
      · rw [hread, hread'] at h
        cases h
        exact ⟨hx, hy⟩
  | gotoLevel =>
    cases hnatural : natural? arg with
    | none =>
      simp only [commandOf, hnatural] at h
      cases h
    | some ds =>
      obtain ⟨hall, hne⟩ := natural?_shape hnatural
      simp only [commandOf, hnatural] at h
      rcases read_natural hall hne with ⟨-, hread⟩ | ⟨-, n, hread, hnonneg, hwritable⟩
      · rw [hread] at h
        cases h
      · rw [hread] at h
        cases h
        exact ⟨hnonneg, hwritable⟩
  | println | eprintln | panic => cases h

/-- A command that is read from a line can be spelled in one. -/
theorem writable_of_command? {call : Call} {c : Command} (plain : ∀ d ∈ call.2, isLineBreak d = false)
    (h : call.command? = .ok (some c)) : Writable c := by
  obtain ⟨kind, rest⟩ := call
  by_cases hprinting : kind ∈ printingKinds
  · cases kind with
    | println | eprintln =>
      obtain ⟨text, hread, rfl⟩ := Option.map_eq_some_iff.1 (Except.ok.inj h)
      exact printed?_only_feeds plain hread
    | panic =>
      obtain ⟨text, hread, rfl⟩ := Option.map_eq_some_iff.1 (Except.ok.inj h)
      by_cases hempty : text = ""
      · rw [if_pos hempty]
        trivial
      · rw [if_neg hempty]
        exact ⟨hempty, printed?_only_feeds plain hread⟩
    | _ => exact absurd hprinting (by decide)
  · cases hargument : argument? rest with
    | none =>
      have hnone : Call.command? (kind, rest) = .ok none := command?_eq_none hprinting hargument
      rw [hnone] at h
      cases h
    | some arg =>
      have hcommand : Call.command? (kind, rest) = commandOf kind arg := command?_eq_commandOf hprinting hargument
      rw [hcommand] at h
      exact writable_of_commandOf h

/-! ## Scripts -/

theorem writable_of_read {code : List Char} {c : Command} {line : List Char} (hline : line ∈ codeLines code)
    (h : usable? (calls line) = some c) : Writable c := by
  obtain ⟨call, hcall, hcommand⟩ := call_of_usable? h
  refine writable_of_command? ?_ hcommand
  intro d hd
  exact not_break_of_mem_codeLines hline ((suffix_of_mem_calls hcall).subset hd)

/-- Reading succeeds unless the search for a call runs into a numeral that is too long on some line. Then the
commands are those of the leftmost calls that make sense, at most one a line, and all of them are valid. -/
theorem read_total (code : List Char) :
    ((∃ commands, read code = .ok commands) ↔ ∀ line ∈ codeLines code, ¬ Jams (calls line)) ∧
      (∀ fault, read code = .error fault → ∃ digits, Numeral.digitLimit < digits ∧ fault = .tooLong digits) ∧
      ∀ commands, read code = .ok commands →
        commands = (codeLines code).filterMap (fun line => usable? (calls line)) ∧
          ∀ c ∈ commands, Writable c ∧ (Schema.CommandRecord.ofCommand c).check = .valid c := by
  refine ⟨?_, ?_, ?_⟩
  · rw [read_isOk_iff]
    refine forall₂_congr fun line _ => ?_
    rw [readLine_eq]
    rcases firstCommand_fails_or (calls line) with ⟨hjams, digits, -, hfault⟩ | ⟨hfree, hread⟩
    · simp [hjams, hfault]
    · simp [hfree, hread]
  · intro fault h
    obtain ⟨line, -, hline⟩ := line_of_read_error h
    rw [readLine_eq] at hline
    rcases firstCommand_fails_or (calls line) with ⟨-, digits, hlong, hfault⟩ | ⟨-, hread⟩
    · rw [hline] at hfault
      exact ⟨digits, hlong, Except.error.inj hfault⟩
    · rw [hread] at hline
      cases hline
  · intro commands h
    have hanswers : ∀ line ∈ codeLines code, (readLine line).toOption.join = usable? (calls line) := by
      intro line hline
      obtain ⟨answer, hanswer⟩ := read_isOk_iff.1 ⟨commands, h⟩ line hline
      rw [readLine_eq] at hanswer ⊢
      rcases firstCommand_fails_or (calls line) with ⟨-, digits, -, hfault⟩ | ⟨-, hread⟩
      · rw [hanswer] at hfault
        cases hfault
      · rw [hread]
        rfl
    have hcommands : commands = (codeLines code).filterMap fun line => usable? (calls line) := by
      rw [commands_of_read h]
      exact List.filterMap_congr hanswers
    refine ⟨hcommands, ?_⟩
    intro c hc
    rw [hcommands] at hc
    obtain ⟨line, hline, husable⟩ := List.mem_filterMap.1 hc
    exact ⟨writable_of_read hline husable, Schema.check_ofCommand c⟩

theorem readLine_overlong_level {ds : List Char} (h : ∀ c ∈ ds, isDigit c = true)
    (long : Numeral.digitLimit < ds.length) (plain : ∀ c ∈ ds, isBlank c = false ∧ c ≠ ')') :
    readLine ("goto_level".toList ++ '(' :: (ds ++ [')'])) = .error (.tooLong ds.length) := by
  have hne : ds ≠ [] := by
    rintro rfl
    simp at long
  have htrim : trimLeft ds = ds := by
    obtain ⟨d, rest, rfl⟩ := List.exists_cons_of_ne_nil hne
    exact trimLeft_of_not_isBlank (plain d List.mem_cons_self).1 rest
  have hnatural : natural? ds = some ds := by
    have hdigits := digits?_append [] h hne (by simp)
    rw [List.append_nil] at hdigits
    unfold natural?
    rw [htrim, hdigits]
    rfl
  have hparen : ')' ∉ ds := fun hmem => (plain ')' hmem).2 rfl
  have hcommand : command? .gotoLevel (ds ++ [')']) = .error (.tooLong ds.length) := by
    rw [command?_eq_commandOf (by decide) (argument?_append ds hparen [])]
    simp only [commandOf, hnatural, read_digits h hne, if_pos long]
    rfl
  have hcall : callAt? ("goto_level".toList ++ '(' :: (ds ++ [')'])) = some (.gotoLevel, ds ++ [')']) :=
    callAt?_callName .gotoLevel _
  rw [readLine_of_callAt? hcall (by rw [hcommand]; simp), hcommand]

theorem read_goto_ones {n : Nat} (h : Numeral.digitLimit < n) :
    read ("goto_level".toList ++ '(' :: (List.replicate n '1' ++ [')'])) = .error (.tooLong n) := by
  have hones : ∀ c ∈ List.replicate n '1', c = '1' := fun c hc => List.eq_of_mem_replicate hc
  have hlength : (List.replicate n '1').length = n := List.length_replicate
  generalize List.replicate n '1' = ds at hones hlength ⊢
  have hline : readLine ("goto_level".toList ++ '(' :: (ds ++ [')'])) = .error (.tooLong ds.length) := by
    apply readLine_overlong_level
    · intro c hc
      rw [hones c hc]
      decide
    · omega
    · intro c hc
      rw [hones c hc]
      decide
  have hplain : ∀ c ∈ "goto_level".toList ++ '(' :: (ds ++ [')']), isLineBreak c = false := by
    intro c hc
    simp only [List.mem_append, List.mem_cons, List.not_mem_nil, or_false] at hc
    rcases hc with hc | rfl | hc | rfl
    · exact not_break_of_any (by decide) c hc
    · decide
    · rw [hones c hc]
      decide
    · decide
  have htrim : trim ("goto_level".toList ++ '(' :: (ds ++ [')'])) = "goto_level".toList ++ '(' :: (ds ++ [')']) :=
    trim_append ("oto_level(".toList ++ ds) (fun c hc => absurd hc List.not_mem_nil) (by decide) (by decide)
  have hcode : ((lines ("goto_level".toList ++ '(' :: (ds ++ [')']))).map trim).filter isCode =
      ["goto_level".toList ++ '(' :: (ds ++ [')'])] := by
    rw [lines_eq_singleton hplain (by simp), List.map_singleton, htrim]
    rfl
  rw [read, hcode, List.mapM_cons, hline, hlength]
  rfl

/-- A level whose number has one digit too many is not passed over: the script fails. -/
theorem read_overlong_level :
    read ("goto_level".toList ++ '(' :: (List.replicate 4301 '1' ++ [')'])) = .error (.tooLong 4301) :=
  read_goto_ones (by decide)

end ScriptedRobot.Script
