import ScriptedRobot.Proofs.Script.Reading
import ScriptedRobot.Proofs.Text.Blanks
import ScriptedRobot.Proofs.Text.Numerals
import ScriptedRobot.Script.Printer

/-!
# Written scripts are read back

`read_scriptText`: commands that are written out as calls, each on a line of its own with any indentation and
perhaps with a semicolon, are read as these commands in order. The commands that scripts can spell are the
`Command.Writable` ones.

The text of a command is a name, a parenthesis and an argument (`commandText_eq`). The name is found at the
front of the line (`callAt?_callName`) and the argument is read back whatever follows its closing
parenthesis (`command?_argumentText`).
-/

namespace ScriptedRobot.Script

open Text

/-- A text whose only line breaks are line feeds. -/
def OnlyFeeds (text : String) : Prop := ∀ c ∈ text.toList, isLineBreak c = true → c = '\n'

instance (text : String) : Decidable (OnlyFeeds text) :=
  List.decidableBAll (fun c => isLineBreak c = true → c = '\n') text.toList

/-- Can a script spell this command? Its numbers are short enough to be written, levels are not negative, and
texts keep to line feeds. An empty message is spelled as none at all. -/
def Writable : Command → Prop
  | .laserTile p => Numeral.isWritable p.x = true ∧ Numeral.isWritable p.y = true
  | .gotoLevel n => 0 ≤ n ∧ Numeral.isWritable n = true
  | .println text => OnlyFeeds text
  | .eprintln text => OnlyFeeds text
  | .panic (some text) => text ≠ "" ∧ OnlyFeeds text
  | .move _ | .grab | .scan _ | .searchAll | .setAutoGrab _ | .laserDirection _ | .openDoor _
  | .skipLevel | .panic none => True

instance : DecidablePred Writable
  | .laserTile _ | .gotoLevel _ | .panic (some _) => inferInstanceAs (Decidable (_ ∧ _))
  | .println text | .eprintln text => inferInstanceAs (Decidable (OnlyFeeds text))
  | .move _ | .grab | .scan _ | .searchAll | .setAutoGrab _ | .laserDirection _ | .openDoor _
  | .skipLevel | .panic none => inferInstanceAs (Decidable True)

/-! ## The parts of a call -/

def callName : CommandKind → String
  | .move => "move"
  | .grab => "grab"
  | .scan => "scan"
  | .searchAll => "search_all"
  | .setAutoGrab => "set_auto_grab"
  | .laserDirection => "laser_direction"
  | .laserTile => "laser_tile"
  | .openDoor => "open_door"
  | .skipLevel => "skip_level"
  | .gotoLevel => "goto_level"
  | .println => "println!"
  | .eprintln => "eprintln!"
  | .panic => "panic!"

def argumentText : Command → List Char
  | .move h | .scan h | .laserDirection h => h.word.toList
  | .setAutoGrab b | .openDoor b => (flagWord b).toList
  | .laserTile p => p.x.repr.toList ++ ',' :: ' ' :: p.y.repr.toList
  | .gotoLevel n => n.repr.toList
  | .println text | .eprintln text | .panic (some text) => '"' :: (text.toList.flatMap escaped ++ ['"'])
  | .grab | .searchAll | .skipLevel | .panic none => []

theorem literal_toList (text : String) : (literal text).toList = '"' :: (text.toList.flatMap escaped ++ ['"']) := by
  rw [literal, String.toList_ofList]
  rfl

theorem commandText_eq (c : Command) :
    (commandText c).toList = (callName c.kind).toList ++ '(' :: (argumentText c ++ [')']) := by
  cases c with
  | move heading =>
    show ("move(" ++ heading.word ++ ")").toList = _
    simp [argumentText, callName, Command.kind]
  | scan heading =>
    show ("scan(" ++ heading.word ++ ")").toList = _
    simp [argumentText, callName, Command.kind]
  | laserDirection heading =>
    show ("laser_direction(" ++ heading.word ++ ")").toList = _
    simp [argumentText, callName, Command.kind]
  | setAutoGrab b =>
    show ("set_auto_grab(" ++ flagWord b ++ ")").toList = _
    simp [argumentText, callName, Command.kind]
  | openDoor b =>
    show ("open_door(" ++ flagWord b ++ ")").toList = _
    simp [argumentText, callName, Command.kind]
  | grab | searchAll | skipLevel => rfl
  | laserTile p =>
    show ("laser_tile" ++ ("(" ++ p.x.repr ++ ", " ++ p.y.repr ++ ")")).toList = _
    simp [argumentText, callName, Command.kind]
  | gotoLevel n =>
    show ("goto_level(" ++ n.repr ++ ")").toList = _
    simp [argumentText, callName, Command.kind]
  | println text =>
    show ("println!(" ++ literal text ++ ")").toList = _
    simp [argumentText, callName, Command.kind, literal_toList]
  | eprintln text =>
    show ("eprintln!(" ++ literal text ++ ")").toList = _
    simp [argumentText, callName, Command.kind, literal_toList]
  | panic message =>
    cases message with
    | none => rfl
    | some text =>
      show ("panic!(" ++ literal text ++ ")").toList = _
      simp [argumentText, callName, Command.kind, literal_toList]

/-- The name at the front of a call is found, although names begin with each other. -/
theorem callAt?_callName (kind : CommandKind) (rest : List Char) :
    callAt? ((callName kind).toList ++ '(' :: rest) = some (kind, rest) := by
  cases kind <;> rfl

/-! ## Arguments up to the closing parenthesis -/

theorem argument?_append (cs : List Char) (h : ')' ∉ cs) (rest : List Char) :
    argument? (cs ++ ')' :: rest) = some cs := by
  have hall : ∀ c ∈ cs, (decide (c ≠ ')')) = true := by
    intro c hc
    have hne : c ≠ ')' := fun heq => h (heq ▸ hc)
    exact decide_eq_true hne
  unfold argument?
  rw [if_pos (by simp), List.takeWhile_append_of_pos hall, List.takeWhile_cons_of_neg (by simp), List.append_nil]

theorem heading?_word (h : Heading) : heading? h.word.toList = some h := by
  cases h <;> rfl

theorem flag?_flagWord (b : Bool) : flag? (flagWord b).toList = some b := by
  cases b <;> rfl

/-! ## Numbers -/

theorem not_isBlank_of_ascii {c : Char} (h : c.isDigit = true) : isBlank c = false := by
  have hrange : 48 ≤ c.toNat ∧ c.toNat ≤ 57 := Char.isDigit_iff_toNat.1 h
  simp [isBlank, isWhiteSpace, whiteSpaceRanges, inRanges]
  omega

theorem digits?_append {ds : List Char} (rest : List Char) (h : ∀ c ∈ ds, isDigit c = true) (nonempty : ds ≠ [])
    (stops : ∀ c ∈ rest.head?, isDigit c = false) : digits? (ds ++ rest) = some (ds, rest) := by
  have hstop : rest.takeWhile isDigit = [] ∧ rest.dropWhile isDigit = rest := by
    cases rest with
    | nil => exact ⟨rfl, rfl⟩
    | cons c rest =>
      have hc : isDigit c = false := stops c rfl
      exact ⟨List.takeWhile_cons_of_neg (by simp [hc]), List.dropWhile_cons_of_neg (by simp [hc])⟩
  unfold digits?
  rw [List.takeWhile_append_of_pos h, List.dropWhile_append_of_pos h, hstop.1, hstop.2, List.append_nil]
  obtain ⟨d, ds, rfl⟩ := List.exists_cons_of_ne_nil nonempty
  rfl

theorem digits?_toDigits (n : Nat) (rest : List Char) (stops : ∀ c ∈ rest.head?, isDigit c = false) :
    digits? (Nat.toDigits 10 n ++ rest) = some (Nat.toDigits 10 n, rest) :=
  digits?_append rest (fun _ hc => isDigit_of_mem_toDigits hc) Nat.toDigits_ne_nil stops

theorem trimLeft_toDigits (n : Nat) (rest : List Char) :
    trimLeft (Nat.toDigits 10 n ++ rest) = Nat.toDigits 10 n ++ rest := by
  obtain ⟨d, ds, hcons, hd⟩ := toDigits_eq_cons n
  rw [hcons, List.cons_append]
  exact trimLeft_of_not_isBlank (not_isBlank_of_ascii hd) _

theorem integer?_toDigits (n : Nat) (rest : List Char) (stops : ∀ c ∈ rest.head?, isDigit c = false) :
    integer? (Nat.toDigits 10 n ++ rest) = some (Nat.toDigits 10 n, rest) := by
  have hdigits := digits?_toDigits n rest stops
  unfold integer?
  split
  · rename_i tail heq
    obtain ⟨d, ds, hcons, hdigit⟩ := toDigits_eq_cons n
    rw [hcons, List.cons_append] at heq
    have hd : d = '-' := (List.cons.inj heq).1
    rw [hd] at hdigit
    cases hdigit
  · exact hdigits

/-- A number is found in front of whatever does not go on with digits, with blanks before it. -/
theorem integer?_intRepr (n : Int) (rest : List Char) (stops : ∀ c ∈ rest.head?, isDigit c = false) :
    integer? (trimLeft (n.repr.toList ++ rest)) = some (n.repr.toList, rest) := by
  rcases intRepr_toList n with ⟨-, heq⟩ | ⟨-, heq⟩
  · rw [heq, trimLeft_toDigits]
    exact integer?_toDigits _ rest stops
  · rw [heq, List.cons_append, trimLeft_of_not_isBlank (by decide)]
    simp only [integer?, digits?_toDigits _ rest stops, Option.map_some]

theorem integerPair?_text (x y : Int) :
    integerPair? (x.repr.toList ++ ',' :: ' ' :: y.repr.toList) = some (x.repr.toList, y.repr.toList) := by
  have hfirst := integer?_intRepr x (',' :: ' ' :: y.repr.toList) (by
    intro c hc
    cases hc
    decide)
  have hsecond := integer?_intRepr y [] (by simp)
  have hcomma : trimLeft (',' :: ' ' :: y.repr.toList) = ',' :: ' ' :: y.repr.toList :=
    trimLeft_of_not_isBlank (by decide) _
  have hblank : trimLeft (' ' :: y.repr.toList) = trimLeft (y.repr.toList ++ []) := by
    rw [List.append_nil, trimLeft, List.dropWhile_cons_of_pos (by decide)]
    rfl
  unfold integerPair?
  rw [hfirst]
  simp only [Option.bind_eq_bind, Option.bind_some, hcomma, afterChar?, if_true, hblank, hsecond]
  rfl

theorem natural?_repr {n : Int} (h : 0 ≤ n) : natural? n.repr.toList = some n.repr.toList := by
  rcases intRepr_toList n with ⟨-, heq⟩ | ⟨hneg, -⟩
  · have htrim := trimLeft_toDigits n.natAbs []
    have hdigits := digits?_toDigits n.natAbs [] (by simp)
    rw [List.append_nil] at htrim hdigits
    unfold natural?
    rw [heq, htrim, hdigits]
    rfl
  · omega

theorem mem_intRepr {n : Int} {c : Char} (h : c ∈ n.repr.toList) : c = '-' ∨ c.isDigit = true := by
  have hdigit : ∀ d ∈ Nat.toDigits 10 n.natAbs, d.isDigit = true :=
    fun d hd => Nat.isDigit_of_mem_toDigits (by decide) (by decide) hd
  rcases intRepr_toList n with ⟨-, heq⟩ | ⟨-, heq⟩
  · exact .inr (hdigit c (heq ▸ h))
  · rw [heq] at h
    rcases List.mem_cons.1 h with hminus | h
    · exact .inl hminus
    · exact .inr (hdigit c h)

theorem not_paren_mem_intRepr (n : Int) : ')' ∉ n.repr.toList := by
  intro h
  rcases mem_intRepr h with h | h <;> cases h

/-! ## Texts -/

theorem literalBody?_plain {c : Char} (hquote : c ≠ '"') (hslash : c ≠ '\\') (cs : List Char) :
    literalBody? (c :: cs) = (literalBody? cs).map fun found => (c :: found.1, found.2) := by
  rw [literalBody?]
  · exact hquote
  · exact fun h _ => absurd h hslash
  · exact fun _ _ h _ => absurd h hslash

/-- A text literal is read as its text, up to its own closing quote. -/
theorem literalBody?_escaped (text rest : List Char) :
    literalBody? (text.flatMap escaped ++ '"' :: rest) = some (text, rest) := by
  induction text with
  | nil => rfl
  | cons c text ih =>
    rw [List.flatMap_cons, List.append_assoc]
    by_cases hslash : c = '\\'
    · subst hslash
      simp [escaped, literalBody?, ih, unescape]
    by_cases hquote : c = '"'
    · subst hquote
      simp [escaped, literalBody?, ih, unescape]
    by_cases hfeed : c = '\n'
    · subst hfeed
      simp [escaped, literalBody?, ih, unescape]
    by_cases htab : c = '\t'
    · subst htab
      simp [escaped, literalBody?, ih, unescape]
    -- any other character stands for itself
    · have hplain : escaped c = [c] := by simp [escaped]
      rw [hplain, List.cons_append, List.nil_append, literalBody?_plain hquote hslash, ih]
      rfl

theorem printed?_literal (text : String) (rest : List Char) :
    printed? (('"' :: (text.toList.flatMap escaped ++ ['"'])) ++ ')' :: rest) = some text := by
  have hliteral : literal? (('"' :: (text.toList.flatMap escaped ++ ['"'])) ++ ')' :: rest) =
      some (text.toList, ')' :: rest) := by
    have htrim : trimLeft (('"' :: (text.toList.flatMap escaped ++ ['"'])) ++ ')' :: rest) =
        '"' :: (text.toList.flatMap escaped ++ '"' :: ')' :: rest) := by
      rw [List.cons_append, trimLeft_of_not_isBlank (by decide), List.append_assoc]
      rfl
    rw [literal?, htrim]
    exact literalBody?_escaped text.toList (')' :: rest)
  unfold printed?
  rw [hliteral]
  simp

theorem printed?_nothing (rest : List Char) : printed? (')' :: rest) = some "" := by
  have hargument := argument?_append [] (by simp) rest
  rw [List.nil_append] at hargument
  have hliteral : literal? (')' :: rest) = none := rfl
  unfold printed?
  rw [hliteral, hargument]
  rfl

/-! ## One command -/

/-- The kinds whose argument is a text. Every other argument ends at the first closing parenthesis. -/
def printingKinds : List CommandKind := [.println, .eprintln, .panic]

theorem command?_eq_commandOf {kind : CommandKind} (h : kind ∉ printingKinds) {rest arg : List Char}
    (found : argument? rest = some arg) : command? kind rest = commandOf kind arg := by
  unfold command?
  rw [found]
  cases kind with
  | println | eprintln | panic => exact absurd (by decide) h
  | _ => rfl

theorem command?_eq_none {kind : CommandKind} (h : kind ∉ printingKinds) {rest : List Char}
    (missing : argument? rest = none) : command? kind rest = .ok none := by
  unfold command?
  rw [missing]
  cases kind with
  | println | eprintln | panic => exact absurd (by decide) h
  | _ => rfl

theorem not_paren_argumentText {c : Command} (h : c.kind ∉ printingKinds) : ')' ∉ argumentText c := by
  cases c with
  | move heading | scan heading | laserDirection heading => cases heading <;> decide
  | setAutoGrab b | openDoor b => cases b <;> decide
  | grab | searchAll | skipLevel => exact List.not_mem_nil
  | gotoLevel n => exact not_paren_mem_intRepr n
  | laserTile p =>
    simp only [argumentText, List.mem_append, List.mem_cons, not_or]
    exact ⟨not_paren_mem_intRepr p.x, by decide, by decide, not_paren_mem_intRepr p.y⟩
  | println text | eprintln text | panic message => exact absurd (by simp [printingKinds, Command.kind]) h

theorem commandOf_argumentText {c : Command} (h : Writable c) (plain : c.kind ∉ printingKinds) :
    commandOf c.kind (argumentText c) = .ok (some c) := by
  cases c with
  | move heading | scan heading | laserDirection heading => simp [commandOf, argumentText, Command.kind, heading?_word]
  | setAutoGrab b | openDoor b => simp [commandOf, argumentText, Command.kind, flag?_flagWord]
  | grab | searchAll | skipLevel => rfl
  | laserTile p =>
    obtain ⟨hx, hy⟩ := h
    simp only [commandOf, argumentText, Command.kind, integerPair?_text, read_intRepr hx, read_intRepr hy]
    rfl
  | gotoLevel n =>
    obtain ⟨hnonneg, hwritable⟩ := h
    simp only [commandOf, argumentText, Command.kind, natural?_repr hnonneg, read_intRepr hwritable]
    rfl
  | println text | eprintln text | panic message => exact absurd (by simp [printingKinds, Command.kind]) plain

/-- The argument of a call is read back, whatever follows the closing parenthesis. -/
theorem command?_argumentText {c : Command} (h : Writable c) (rest : List Char) :
    command? c.kind (argumentText c ++ ')' :: rest) = .ok (some c) := by
  by_cases hprinting : c.kind ∈ printingKinds
  · cases c with
    | println text | eprintln text => rw [Command.kind, argumentText, command?, printed?_literal, Option.map_some]
    | panic message =>
      cases message with
      | none => rw [Command.kind, argumentText, List.nil_append, command?, printed?_nothing, Option.map_some, if_pos rfl]
      | some text =>
        have hnonempty : text ≠ "" := h.1
        rw [Command.kind, argumentText, command?, printed?_literal, Option.map_some, if_neg hnonempty]
    | _ => simp [printingKinds, Command.kind] at hprinting
  · rw [command?_eq_commandOf hprinting (argument?_append _ (not_paren_argumentText hprinting) rest)]
    exact commandOf_argumentText h hprinting

/-- A call at the front of a line is what the line says, unless its argument makes no sense. -/
theorem readLine_of_callAt? {line rest : List Char} {kind : CommandKind} (call : callAt? line = some (kind, rest))
    (sense : command? kind rest ≠ .ok none) : readLine line = command? kind rest := by
  have hfirst : nextCall? false line = some (kind, rest) := by
    cases line with
    | nil => cases call
    | cons d ds => simp [nextCall?, call]
  rw [readLine]
  split
  · rename_i hnone
    rw [hfirst] at hnone
    cases hnone
  · rename_i kind' rest' hsome
    rw [hfirst] at hsome
    cases hsome
    cases hcommand : command? kind rest with
    | error fault => rfl
    | ok answer =>
      cases answer with
      | none => exact absurd hcommand sense
      | some c => rfl

theorem readLine_commandText {c : Command} (h : Writable c) (rest : List Char) :
    readLine ((commandText c).toList ++ rest) = .ok (some c) := by
  have hline : (commandText c).toList ++ rest =
      (callName c.kind).toList ++ '(' :: (argumentText c ++ ')' :: rest) := by
    rw [commandText_eq]
    simp
  have hcommand := command?_argumentText h rest
  rw [hline, readLine_of_callAt? (callAt?_callName c.kind _) (by rw [hcommand]; simp), hcommand]

/-! ## One line -/

/-- A line of a script: a call behind spaces and tabs, perhaps with a semicolon at its end. -/
structure Line where
  indent : List Char
  command : Command
  semicolon : Bool
  indented : ∀ c ∈ indent, c = ' ' ∨ c = '\t' := by simp

/-- What stands behind the indentation. -/
def Line.call (l : Line) : String := commandText l.command ++ (if l.semicolon then ";" else "")

def Line.text (l : Line) : String := String.ofList l.indent ++ l.call

/-- The lines of a script, one below the other. -/
def scriptText (ls : List Line) : String := "\n".intercalate (ls.map Line.text)

/-! ### Line breaks -/

theorem not_break_of_ascii {c : Char} (h : c.isDigit = true) : isLineBreak c = false := by
  have hrange : 48 ≤ c.toNat ∧ c.toNat ≤ 57 := Char.isDigit_iff_toNat.1 h
  have hne : ∀ d : Char, d.toNat < 48 ∨ 57 < d.toNat → c ≠ d := by
    rintro d hd rfl
    omega
  simp only [isLineBreak, List.contains_eq_mem, List.mem_cons, List.not_mem_nil, or_false, decide_eq_false_iff_not,
    not_or]
  refine ⟨?_, ?_, ?_, ?_, ?_, ?_, ?_, ?_, ?_, ?_⟩ <;> exact hne _ (by decide)

theorem not_break_of_mem_intRepr {n : Int} {c : Char} (h : c ∈ n.repr.toList) : isLineBreak c = false := by
  rcases mem_intRepr h with rfl | h
  · decide
  · exact not_break_of_ascii h

theorem not_break_of_mem_escaped {c d : Char} (h : isLineBreak c = true → c = '\n') (hd : d ∈ escaped c) :
    isLineBreak d = false := by
  have hpair : ∀ e : Char, isLineBreak e = false → d ∈ ['\\', e] → isLineBreak d = false := by
    intro e he hmem
    rcases List.mem_pair.1 hmem with rfl | rfl
    · decide
    · exact he
  unfold escaped at hd
  split at hd
  · exact hpair _ (by decide) hd
  · exact hpair _ (by decide) hd
  · exact hpair _ (by decide) hd
  · exact hpair _ (by decide) hd
  · rename_i hfeed _
    rw [List.mem_singleton] at hd
    subst hd
    by_contra hbreak
    exact hfeed (h (by simpa using hbreak))

theorem not_break_of_mem_literal {text : String} (h : OnlyFeeds text) {d : Char}
    (hd : d ∈ '"' :: (text.toList.flatMap escaped ++ ['"'])) : isLineBreak d = false := by
  rcases List.mem_cons.1 hd with rfl | hd
  · decide
  rcases List.mem_append.1 hd with hd | hd
  · obtain ⟨c, hc, hd⟩ := List.mem_flatMap.1 hd
    exact not_break_of_mem_escaped (h c hc) hd
  · rw [List.mem_singleton.1 hd]
    decide

theorem not_break_of_mem_argumentText {c : Command} (h : Writable c) {d : Char} (hd : d ∈ argumentText c) :
    isLineBreak d = false := by
  have hwords : ∀ heading : Heading, ∀ d ∈ heading.word.toList, isLineBreak d = false := by
    intro heading
    exact not_break_of_any (by cases heading <;> decide)
  have hflags : ∀ b, ∀ d ∈ (flagWord b).toList, isLineBreak d = false := by
    intro b
    exact not_break_of_any (by cases b <;> decide)
  cases c with
  | move heading | scan heading | laserDirection heading => exact hwords heading d hd
  | setAutoGrab b | openDoor b => exact hflags b d hd
  | grab | searchAll | skipLevel => cases hd
  | laserTile p =>
    simp only [argumentText, List.mem_append, List.mem_cons] at hd
    rcases hd with hd | rfl | rfl | hd
    · exact not_break_of_mem_intRepr hd
    · decide
    · decide
    · exact not_break_of_mem_intRepr hd
  | gotoLevel n => exact not_break_of_mem_intRepr hd
  | println text | eprintln text => exact not_break_of_mem_literal h hd
  | panic message =>
    cases message with
    | none => cases hd
    | some text => exact not_break_of_mem_literal h.2 hd

/-- The text of a command keeps to its line, because line feeds in it are escaped. -/
theorem not_break_of_mem_commandText {c : Command} (h : Writable c) {d : Char}
    (hd : d ∈ (commandText c).toList) : isLineBreak d = false := by
  have hname : ∀ kind, ∀ d ∈ (callName kind).toList, isLineBreak d = false := by
    intro kind
    exact not_break_of_any (by cases kind <;> decide)
  rw [commandText_eq] at hd
  simp only [List.mem_append, List.mem_cons, List.not_mem_nil, or_false] at hd
  rcases hd with hd | rfl | hd | rfl
  · exact hname c.kind d hd
  · decide
  · exact not_break_of_mem_argumentText h hd
  · decide

theorem not_break_of_mem_call {l : Line} (h : Writable l.command) {d : Char} (hd : d ∈ l.call.toList) :
    isLineBreak d = false := by
  obtain ⟨indent, c, semicolon, indented⟩ := l
  simp only [Line.call, String.toList_append, List.mem_append] at hd
  rcases hd with hd | hd
  · exact not_break_of_mem_commandText h hd
  · cases semicolon with
    | false => cases hd
    | true =>
      have hsemicolon : d = ';' := by simpa using hd
      rw [hsemicolon]
      decide

/-! ### Blanks around the call -/

theorem trim_append {indent : List Char} (middle : List Char) {first last : Char} (hindent : ∀ c ∈ indent, isBlank c = true)
    (hfirst : isBlank first = false) (hlast : isBlank last = false) :
    trim (indent ++ first :: (middle ++ [last])) = first :: (middle ++ [last]) := by
  have hreverse : (first :: (middle ++ [last])).reverse = last :: (first :: middle).reverse := by simp
  rw [trim, trimWhere, List.dropWhile_append_of_pos hindent, List.dropWhile_cons_of_neg (by simp [hfirst]),
    hreverse, List.dropWhile_cons_of_neg (by simp [hlast]), ← hreverse, List.reverse_reverse]

/-- A call starts with a letter and ends with a parenthesis or a semicolon. -/
theorem call_ends (l : Line) : ∃ first middle last, l.call.toList = first :: (middle ++ [last]) ∧
    isBlank first = false ∧ first ≠ '/' ∧ isBlank last = false := by
  have hname : ∀ kind, ∃ first rest, (callName kind).toList = first :: rest ∧ isBlank first = false ∧ first ≠ '/' := by
    intro kind
    cases kind <;> exact ⟨_, _, rfl, by decide, by decide⟩
  obtain ⟨indent, c, semicolon, indented⟩ := l
  obtain ⟨first, rest, heq, hblank, hslash⟩ := hname c.kind
  cases semicolon with
  | false =>
    refine ⟨first, rest ++ '(' :: argumentText c, ')', ?_, hblank, hslash, by decide⟩
    simp [Line.call, commandText_eq, heq]
  | true =>
    refine ⟨first, rest ++ '(' :: (argumentText c ++ [')']), ';', ?_, hblank, hslash, by decide⟩
    simp [Line.call, commandText_eq, heq]

/-- The only line of code in the line of a call is the call. -/
theorem codeLines_text {l : Line} (h : Writable l.command) : codeLines l.text.toList = [l.call.toList] := by
  obtain ⟨first, middle, last, hcall, hfirst, hslash, hlast⟩ := call_ends l
  have htext : l.text.toList = l.indent ++ l.call.toList := by
    rw [Line.text, String.toList_append, String.toList_ofList]
  have hindent : ∀ c ∈ l.indent, isBlank c = true ∧ isLineBreak c = false := by
    intro c hc
    rcases l.indented c hc with rfl | rfl <;> decide
  have hlines : lines l.text.toList = [l.text.toList] := by
    apply lines_eq_singleton
    · intro c hc
      rw [htext] at hc
      rcases List.mem_append.1 hc with hc | hc
      · exact (hindent c hc).2
      · exact not_break_of_mem_call h hc
    · rw [htext, hcall]
      simp
  have htrim : trim l.text.toList = l.call.toList := by
    rw [htext, hcall]
    exact trim_append middle (fun c hc => (hindent c hc).1) hfirst hlast
  have hcode : isCode l.call.toList = true := by
    simp [isCode, hcall, Ne.symm hslash]
  rw [codeLines, hlines, List.map_singleton, htrim, List.filter_cons_of_pos hcode, List.filter_nil]

theorem read_text {l : Line} (h : Writable l.command) : read l.text.toList = .ok [l.command] := by
  refine read_ok_iff.2 ⟨[some l.command], ?_, rfl⟩
  rw [codeLines_text h, List.mapM_cons, Line.call, String.toList_append, readLine_commandText h]
  rfl

/-! ## Whole scripts -/

/-- Commands that are written out one below the other, with any indentation and with or without semicolons,
are read as these commands in order. -/
theorem read_scriptText (ls : List Line) (h : ∀ l ∈ ls, Writable l.command) :
    read (scriptText ls).toList = .ok (ls.map (·.command)) := by
  induction ls with
  | nil => rfl
  | cons l ls ih =>
    have hl : read l.text.toList = .ok [l.command] := read_text (h l List.mem_cons_self)
    have hls := ih fun next hmem => h next (List.mem_cons_of_mem l hmem)
    cases ls with
    | nil => exact hl
    | cons next ls =>
      have htext : (scriptText (l :: next :: ls)).toList =
          l.text.toList ++ '\n' :: (scriptText (next :: ls)).toList := by
        unfold scriptText
        rw [List.map_cons, List.map_cons, String.intercalate_cons_cons, String.toList_append, String.toList_append,
          List.append_assoc]
        rfl
      rw [htext]
      exact read_join hl hls

/-- Messages may look like comments, calls and literals of their own. -/
def mixedLines : List Line :=
  [⟨[' ', '\t'], .println "a \"b\\\" \\ // ) grab();\n\tpanic!(\"x\")", true, by simp⟩,
   ⟨[], .panic none, false, by simp⟩,
   ⟨['\t'], .laserTile ⟨-70, 0⟩, true, by simp⟩,
   ⟨[], .gotoLevel 0, false, by simp⟩,
   ⟨[' '], .panic (some "\\n)"), true, by simp⟩,
   ⟨[], .openDoor false, false, by simp⟩]

theorem read_scriptText_mixed :
    (∀ l ∈ mixedLines, Writable l.command) ∧
      read (scriptText mixedLines).toList = .ok
        [.println "a \"b\\\" \\ // ) grab();\n\tpanic!(\"x\")", .panic none, .laserTile ⟨-70, 0⟩, .gotoLevel 0,
          .panic (some "\\n)"), .openDoor false] :=
  have hwritable : ∀ l ∈ mixedLines, Writable l.command := by decide +kernel
  ⟨hwritable, read_scriptText mixedLines hwritable⟩

end ScriptedRobot.Script
