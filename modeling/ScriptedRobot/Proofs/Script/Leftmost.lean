import ScriptedRobot.Proofs.Script.Offsets

/-!
# The leftmost usable call

What a line is read as, said without the search: of all offsets at which a call starts whose arguments make a command
(`Usable`), the first. The arguments are described by what is written (`Makes`).
-/

namespace ScriptedRobot.Script

open Text

/-! ## Arguments -/

/-- What stands between the quotes of a literal, and the text that it is read as. -/
inductive Literal : List Char → List Char → Prop
  | done : Literal [] []
  | plain {c : Char} {body text : List Char} (quote : c ≠ '"') (slash : c ≠ '\\') (more : Literal body text) :
      Literal (c :: body) (c :: text)
  | escape {c : Char} {body text : List Char} (feed : c ≠ '\n') (more : Literal body text) :
      Literal ('\\' :: c :: body) (unescape c :: text)

/-- The arguments of a call that prints the text: a literal with a closing parenthesis somewhere behind it, or blanks
in front of one. -/
inductive Prints : List Char → String → Prop
  | literal {blanks body text rest : List Char} (blank : allBlank blanks = true) (inside : Literal body text)
      (closed : ')' ∈ rest) : Prints (blanks ++ '"' :: (body ++ '"' :: rest)) (String.ofList text)
  | nothing {blanks rest : List Char} (blank : allBlank blanks = true) : Prints (blanks ++ ')' :: rest) ""

/-- The arguments, with whatever follows them, make the command with a name of the kind. -/
inductive Makes : CommandKind → List Char → Command → Prop
  | println {rest : List Char} {text : String} (prints : Prints rest text) : Makes .println rest (.println text)
  | eprintln {rest : List Char} {text : String} (prints : Prints rest text) : Makes .eprintln rest (.eprintln text)
  | panic {rest : List Char} {text : String} (prints : Prints rest text) :
      Makes .panic rest (.panic (if text = "" then none else some text))
  | plain {kind : CommandKind} {arg rest : List Char} {c : Command} (other : kind ∉ printingKinds) (ends : ')' ∉ arg)
      (reads : commandOf kind arg = .ok (some c)) : Makes kind (arg ++ ')' :: rest) c

theorem literalBody?_eq_some_iff {cs text rest : List Char} :
    literalBody? cs = some (text, rest) ↔ ∃ body, Literal body text ∧ cs = body ++ '"' :: rest := by
  constructor
  · intro h
    fun_induction literalBody? cs generalizing text rest with
    | case1 => cases h
    | case2 cs =>
      cases h
      exact ⟨[], .done, rfl⟩
    | case3 => cases h
    | case4 => cases h
    | case5 c cs hfeed ih =>
      obtain ⟨⟨text', rest'⟩, hread, heq⟩ := Option.map_eq_some_iff.1 h
      cases heq
      obtain ⟨body, hbody, rfl⟩ := ih hread
      exact ⟨'\\' :: c :: body, .escape hfeed hbody, rfl⟩
    | case6 c cs hquote hlone hescape ih =>
      obtain ⟨⟨text', rest'⟩, hread, heq⟩ := Option.map_eq_some_iff.1 h
      cases heq
      obtain ⟨body, hbody, hcs⟩ := ih hread
      have hslash : c ≠ '\\' := by
        intro heq
        cases cs with
        | nil => exact hlone heq rfl
        | cons d cs => exact hescape d cs heq rfl
      exact ⟨c :: body, .plain hquote hslash hbody, by rw [hcs, List.cons_append]⟩
  · rintro ⟨body, hbody, rfl⟩
    induction hbody with
    | done => rfl
    | plain quote slash more ih => rw [List.cons_append, literalBody?_plain quote slash, ih]; rfl
    | escape feed more ih =>
      rw [List.cons_append, List.cons_append, literalBody?, if_neg feed, ih]
      rfl

theorem literal?_eq_some_iff {cs text rest : List Char} :
    literal? cs = some (text, rest) ↔
      ∃ blanks body, allBlank blanks = true ∧ Literal body text ∧ cs = blanks ++ '"' :: (body ++ '"' :: rest) := by
  simp only [literal?, Option.bind_eq_bind, Option.bind_eq_some_iff, afterChar?_eq_some_iff, literalBody?_eq_some_iff,
    trimLeft_eq_cons_iff (show isBlank '"' = false by decide)]
  constructor
  · rintro ⟨inside, ⟨blanks, hblanks, rfl⟩, body, hbody, rfl⟩
    exact ⟨blanks, body, hblanks, hbody, rfl⟩
  · rintro ⟨blanks, body, hblanks, hbody, rfl⟩
    exact ⟨_, ⟨blanks, hblanks, rfl⟩, body, hbody, rfl⟩

theorem argument?_eq_some_iff {cs arg : List Char} :
    argument? cs = some arg ↔ ')' ∉ arg ∧ ∃ rest, cs = arg ++ ')' :: rest := by
  constructor
  · intro h
    have hclosed : ')' ∈ cs := by
      by_contra hopen
      rw [argument?, if_neg hopen] at h
      cases h
    obtain ⟨before, rest, rfl, hends⟩ := List.eq_append_cons_of_mem hclosed
    rw [argument?_append before hends rest] at h
    cases h
    exact ⟨hends, rest, rfl⟩
  · rintro ⟨hends, rest, rfl⟩
    exact argument?_append arg hends rest

theorem printed?_eq_some_iff {cs : List Char} {text : String} : printed? cs = some text ↔ Prints cs text := by
  constructor
  · intro h
    unfold printed? at h
    split at h
    · rename_i body rest hliteral
      obtain ⟨blanks, inside, hblanks, hinside, rfl⟩ := literal?_eq_some_iff.1 hliteral
      split at h
      · rename_i hclosed
        cases h
        exact .literal hblanks hinside hclosed
      · cases h
    · obtain ⟨blanks, hargument, hread⟩ := Option.bind_eq_some_iff.1 h
      obtain ⟨-, rest, rfl⟩ := argument?_eq_some_iff.1 hargument
      split at hread
      · rename_i hblanks
        cases hread
        exact .nothing hblanks
      · cases hread
  · intro h
    cases h with
    | @literal blanks body text rest hblanks hinside hclosed =>
      have hliteral : literal? (blanks ++ '"' :: (body ++ '"' :: rest)) = some (text, rest) :=
        literal?_eq_some_iff.2 ⟨blanks, body, hblanks, hinside, rfl⟩
      unfold printed?
      rw [hliteral]
      exact if_pos hclosed
    | @nothing blanks rest hblanks =>
      have hliteral : literal? (blanks ++ ')' :: rest) = none := by
        rw [literal?, trimLeft_append hblanks, trimLeft_of_not_isBlank (by decide)]
        rfl
      have hends : ')' ∉ blanks := by
        intro hmem
        have hblank := List.all_eq_true.1 hblanks _ hmem
        revert hblank
        decide
      unfold printed?
      rw [hliteral, argument?_append blanks hends rest]
      exact if_pos hblanks

theorem command?_eq_some_iff {kind : CommandKind} {rest : List Char} {c : Command} :
    command? kind rest = .ok (some c) ↔ Makes kind rest c := by
  constructor
  · intro h
    by_cases hprinting : kind ∈ printingKinds
    · cases kind with
      | println =>
        obtain ⟨text, hprinted, rfl⟩ := Option.map_eq_some_iff.1 (Except.ok.inj h)
        exact .println (printed?_eq_some_iff.1 hprinted)
      | eprintln =>
        obtain ⟨text, hprinted, rfl⟩ := Option.map_eq_some_iff.1 (Except.ok.inj h)
        exact .eprintln (printed?_eq_some_iff.1 hprinted)
      | panic =>
        obtain ⟨text, hprinted, rfl⟩ := Option.map_eq_some_iff.1 (Except.ok.inj h)
        exact .panic (printed?_eq_some_iff.1 hprinted)
      | _ => exact absurd hprinting (by decide)
    · cases hargument : argument? rest with
      | none =>
        rw [command?_eq_none hprinting hargument] at h
        cases h
      | some arg =>
        rw [command?_eq_commandOf hprinting hargument] at h
        obtain ⟨hends, rest, rfl⟩ := argument?_eq_some_iff.1 hargument
        exact .plain hprinting hends h
  · intro h
    cases h with
    | println prints | eprintln prints | panic prints =>
      rw [command?, printed?_eq_some_iff.2 prints]
      rfl
    | plain other ends reads => rw [command?_eq_commandOf other (argument?_append _ ends _), reads]

/-! ## Numerals -/

theorem digits?_eq {cs ds rest : List Char} (h : digits? cs = some (ds, rest)) : cs = ds ++ rest := by
  unfold digits? at h
  split at h
  · cases h
  · cases h
    exact List.takeWhile_append_dropWhile.symm

theorem integer?_eq {cs numeral rest : List Char} (h : integer? cs = some (numeral, rest)) : cs = numeral ++ rest := by
  unfold integer? at h
  split at h
  · obtain ⟨⟨ds, tail⟩, hdigits, heq⟩ := Option.map_eq_some_iff.1 h
    cases heq
    rw [digits?_eq hdigits]
    rfl
  · exact digits?_eq h

theorem infix_of_trimLeft_eq {cs a b : List Char} (h : trimLeft cs = a ++ b) : a <:+: cs ∧ b <:+: cs := by
  have hsuffix : a ++ b <:+: cs := h ▸ (List.dropWhile_suffix _).isInfix
  exact ⟨(List.prefix_append a b).isInfix.trans hsuffix, (List.suffix_append a b).isInfix.trans hsuffix⟩

theorem infix_of_integerPair? {arg first second : List Char} (h : integerPair? arg = some (first, second)) :
    first <:+: arg ∧ second <:+: arg := by
  simp only [integerPair?, Option.bind_eq_bind, Option.bind_eq_some_iff, afterChar?_eq_some_iff] at h
  obtain ⟨⟨numeral, rest⟩, hinteger, rest', hcomma, ⟨numeral', rest''⟩, hinteger', heq⟩ := h
  split at heq
  · cases heq
    obtain ⟨hinside, hrest⟩ := infix_of_trimLeft_eq (integer?_eq hinteger)
    have hrest' : rest' <:+: rest := (infix_of_trimLeft_eq (a := [',']) hcomma).2
    have hinside' : numeral' <:+: rest' := (infix_of_trimLeft_eq (integer?_eq hinteger')).1
    exact ⟨hinside, hinside'.trans (hrest'.trans hrest)⟩
  · cases heq

theorem infix_of_natural? {arg ds : List Char} (h : natural? arg = some ds) : ds <:+: arg := by
  simp only [natural?, Option.bind_eq_bind, Option.bind_eq_some_iff] at h
  obtain ⟨⟨ds', rest⟩, hdigits, heq⟩ := h
  split at heq
  · cases heq
    exact (infix_of_trimLeft_eq (digits?_eq hdigits)).1
  · cases heq

/-- The numerals of an argument stand in it. -/
theorem infix_of_mem_numeralsOf {kind : CommandKind} {arg numeral : List Char} (h : numeral ∈ numeralsOf kind arg) :
    IsNumeral numeral ∧ numeral <:+: arg := by
  cases kind with
  | laserTile =>
    cases hpair : integerPair? arg with
    | none => simp [numeralsOf, hpair] at h
    | some pair =>
      obtain ⟨first, second⟩ := pair
      obtain ⟨hfirst, hsecond⟩ := integerPair?_shape hpair
      obtain ⟨hinside, hinside'⟩ := infix_of_integerPair? hpair
      simp only [numeralsOf, hpair, List.mem_pair] at h
      rcases h with rfl | rfl
      · exact ⟨hfirst, hinside⟩
      · exact ⟨hsecond, hinside'⟩
  | gotoLevel =>
    have hnatural : natural? arg = some numeral := Option.mem_toList.1 h
    obtain ⟨hall, hne⟩ := natural?_shape hnatural
    exact ⟨⟨numeral, hall, hne, .inl rfl⟩, infix_of_natural? hnatural⟩
  | _ => cases h

/-- No run of digits in the line is longer than a numeral may be. -/
def DigitsFit (line : List Char) : Prop :=
  ∀ ds, ds <:+: line → (∀ c ∈ ds, isDigit c = true) → ds.length ≤ Numeral.digitLimit

theorem DigitsFit.not_tooLong {line numeral : List Char} (fit : DigitsFit line) (h : IsNumeral numeral)
    (inside : numeral <:+: line) : ¬ TooLong numeral := by
  obtain ⟨ds, hall, -, rfl | rfl⟩ := h
  · rw [TooLong, countP_isDigit hall]
    exact Nat.not_lt.2 (fit _ inside hall)
  · rw [TooLong, List.countP_cons_of_neg (by decide), countP_isDigit hall]
    exact Nat.not_lt.2 (fit ds ((List.suffix_cons '-' ds).isInfix.trans inside) hall)

theorem not_jams {cs : List Call} (h : ∀ call ∈ cs, ∀ numeral ∈ call.numerals, ¬ TooLong numeral) : ¬ Jams cs := by
  intro hjams
  induction hjams with
  | here long =>
    obtain ⟨numeral, hmem, hlong⟩ := long
    exact h _ List.mem_cons_self numeral hmem hlong
  | later passed jams ih => exact ih fun call hcall => h call (List.mem_cons_of_mem _ hcall)

theorem DigitsFit.readLine {line : List Char} (fit : DigitsFit line) :
    readLine line = .ok (usable? (calls line)) := by
  have hfree : ¬ Jams (calls line) := by
    refine not_jams fun call hcall numeral hnumeral => ?_
    obtain ⟨arg, hargument, hmem⟩ : ∃ arg, argument? call.2 = some arg ∧ numeral ∈ numeralsOf call.1 arg := by
      unfold Call.numerals at hnumeral
      cases hargument : argument? call.2 with
      | none => simp [hargument] at hnumeral
      | some arg => exact ⟨arg, rfl, by simpa [hargument] using hnumeral⟩
    obtain ⟨hshape, hinside⟩ := infix_of_mem_numeralsOf hmem
    obtain ⟨-, rest, hrest⟩ := argument?_eq_some_iff.1 hargument
    have harg : arg <:+: line :=
      (hrest ▸ (List.prefix_append arg _).isInfix).trans (suffix_of_mem_calls hcall).isInfix
    exact fit.not_tooLong hshape (hinside.trans harg)
  rw [readLine_eq]
  rcases firstCommand_fails_or (calls line) with ⟨hjams, -⟩ | ⟨-, hread⟩
  · exact absurd hjams hfree
  · exact hread

/-! ## The first offset -/

/-- At the offset of the line starts a call whose arguments make the command. -/
def Usable (line : List Char) (i : Nat) (c : Command) : Prop :=
  ∃ kind rest, StartsAt line i kind rest ∧ Makes kind rest c

theorem Usable.unique {line : List Char} {i : Nat} {c d : Command} (h : Usable line i c) (h' : Usable line i d) :
    c = d := by
  obtain ⟨kind, rest, starts, makes⟩ := h
  obtain ⟨kind', rest', starts', makes'⟩ := h'
  cases starts.spelled.unique starts'.spelled
  have hsame := (command?_eq_some_iff.2 makes).symm.trans (command?_eq_some_iff.2 makes')
  exact Option.some.inj (Except.ok.inj hsame)

/-- The command of a call that was found at an offset. -/
def madeAt? (found : Nat × Call) : Option Command := found.2.command?.toOption.join

theorem madeAt?_eq_some_iff {i : Nat} {kind : CommandKind} {rest : List Char} {c : Command} :
    madeAt? (i, kind, rest) = some c ↔ Makes kind rest c := by
  rw [← command?_eq_some_iff]
  show (Script.command? kind rest).toOption.join = some c ↔ _
  cases Script.command? kind rest with
  | error fault => exact ⟨nofun, nofun⟩
  | ok answer => exact ⟨fun h => congrArg _ h, fun h => Except.ok.inj h⟩

theorem usable_iff {line : List Char} {i : Nat} {c : Command} :
    Usable line i c ↔ ∃ found ∈ offsetCalls 0 false line, found.1 = i ∧ madeAt? found = some c := by
  constructor
  · rintro ⟨kind, rest, starts, makes⟩
    exact ⟨(i, kind, rest), mem_offsetCalls.2 starts, rfl, madeAt?_eq_some_iff.2 makes⟩
  · rintro ⟨⟨_, kind, rest⟩, hfound, rfl, hmade⟩
    exact ⟨kind, rest, mem_offsetCalls.1 hfound, madeAt?_eq_some_iff.1 hmade⟩

theorem usable?_calls (line : List Char) : usable? (calls line) = (offsetCalls 0 false line).findSome? madeAt? := by
  rw [usable?, ← map_snd_offsetCalls 0, List.findSome?_map]
  rfl

theorem usable?_eq_none_iff {line : List Char} : usable? (calls line) = none ↔ ∀ i c, ¬ Usable line i c := by
  rw [usable?_calls, List.findSome?_eq_none_iff]
  constructor
  · intro h i c husable
    obtain ⟨found, hfound, -, hmade⟩ := usable_iff.1 husable
    rw [h found hfound] at hmade
    cases hmade
  · intro h found hfound
    cases hmade : madeAt? found with
    | none => rfl
    | some c => exact absurd (usable_iff.2 ⟨found, hfound, rfl, hmade⟩) (h found.1 c)

theorem first_of_usable? {line : List Char} {c : Command} (h : usable? (calls line) = some c) :
    ∃ i, Usable line i c ∧ ∀ j < i, ∀ d, ¬ Usable line j d := by
  rw [usable?_calls, List.findSome?_eq_some_iff] at h
  obtain ⟨before, found, after, hsplit, hmade, hbefore⟩ := h
  have hsorted := pairwise_offsetCalls 0 false line
  rw [hsplit, List.pairwise_append, List.pairwise_cons] at hsorted
  refine ⟨found.1, usable_iff.2 ⟨found, by rw [hsplit]; simp, rfl, hmade⟩, ?_⟩
  rintro j hj d husable
  obtain ⟨earlier, hearlier, rfl, hmade'⟩ := usable_iff.1 husable
  rw [hsplit, List.mem_append, List.mem_cons] at hearlier
  rcases hearlier with hmem | rfl | hmem
  · rw [hbefore earlier hmem] at hmade'
    cases hmade'
  · exact Nat.lt_irrefl _ hj
  · exact Nat.lt_asymm hj (hsorted.2.1.1 earlier hmem)

theorem usable?_eq_some_iff {line : List Char} {c : Command} :
    usable? (calls line) = some c ↔ ∃ i, Usable line i c ∧ ∀ j < i, ∀ d, ¬ Usable line j d := by
  refine ⟨first_of_usable?, ?_⟩
  rintro ⟨i, husable, hfirst⟩
  cases hfound : usable? (calls line) with
  | none => exact absurd husable (usable?_eq_none_iff.1 hfound i c)
  | some d =>
    obtain ⟨j, husable', hfirst'⟩ := first_of_usable? hfound
    have hle : i ≤ j := Nat.not_lt.1 fun hlt => hfirst j hlt d husable'
    have hge : j ≤ i := Nat.not_lt.1 fun hlt => hfirst' i hlt c husable
    obtain rfl := Nat.le_antisymm hle hge
    rw [husable.unique husable']

/-- A line is read as the command of the first offset at which a usable call starts, and as none if there is no such
offset. The search comes upon the calls at all offsets, from left to right, and takes none of them for another. -/
theorem readLine_leftmost {line : List Char} (fit : DigitsFit line) :
    (∀ c, readLine line = .ok (some c) ↔ ∃ i, Usable line i c ∧ ∀ j < i, ∀ d, ¬ Usable line j d) ∧
      (readLine line = .ok none ↔ ∀ i c, ¬ Usable line i c) ∧
      ∃ found : List (Nat × Call), calls line = found.map Prod.snd ∧ found.Pairwise (fun a b => a.1 < b.1) ∧
        ∀ i kind rest, (i, kind, rest) ∈ found ↔ StartsAt line i kind rest := by
  rw [fit.readLine]
  refine ⟨fun c => ?_, ?_, offsetCalls 0 false line, (map_snd_offsetCalls 0 line).symm,
    pairwise_offsetCalls 0 false line, fun i kind rest => mem_offsetCalls⟩
  · rw [Except.ok.injEq, usable?_eq_some_iff]
  · rw [Except.ok.injEq, usable?_eq_none_iff]

/-- A call is also found inside of a literal, if the literal makes no sense. -/
def quotedLine : List Char := "open_door(maybe) eprintln!(\"move('left')".toList

theorem readLine_leftmost_quoted :
    DigitsFit quotedLine ∧ ∃ i, Usable quotedLine i (.move .left) ∧ ∀ j < i, ∀ d, ¬ Usable quotedLine j d := by
  have fit : DigitsFit quotedLine := fun ds hds _ => hds.length_le.trans (by decide)
  have hread : readLine quotedLine = .ok (some (.move .left)) := by
    rw [fit.readLine, usable?_calls]
    decide +kernel
  exact ⟨fit, ((readLine_leftmost fit).1 _).1 hread⟩

end ScriptedRobot.Script
