import ScriptedRobot.Proofs.Text.Blanks
import ScriptedRobot.Proofs.Text.Lines
import ScriptedRobot.Strategy.Pattern

/-!
# Sentinels and lines

A sentinel starts at the front of a line, and the first one with a kind that files can name gives the kind of a pattern
file. The search looks for the next sentinel behind the one that it has passed over, which loses none
(`kindOf?_eq`). The blanks within a sentinel are any blanks, line feeds among them, so a comment sign or an announcement
that ends its line can be continued on a later one. Only for this the lines of a file may not be read one by one
(`kind_by_lines`).
-/

namespace ScriptedRobot.Pattern

open Text

/-! ## Sentinels -/

/-- A sentinel stands at the front of a text: the comment sign, the announcement and the word, and then the rest. The
gap holds the blanks around the announcement. -/
inductive Sentinel : List Char → List Char → List Char → List Char → Prop
  | mk {indent inner outer word rest : List Char} (indented : allBlank indent = true) (parted : allBlank inner = true)
      (announced : allBlank outer = true) (named : word ≠ []) (spelled : ∀ c ∈ word, isKindChar c = true)
      (ended : ∀ c ∈ rest.head?, isKindChar c = false) :
      Sentinel (inner ++ outer) word rest
        (indent ++ ("//".toList ++ (inner ++ ("MOVEMENT_PATTERN:".toList ++ (outer ++ (word ++ rest))))))

/-- The text starts with a sentinel whose word names the kind. -/
def Names (gap cs : List Char) (kind : StrategyKind) : Prop :=
  ∃ word rest, Sentinel gap word rest cs ∧ aliasable? word = some kind

theorem not_isBlank_of_isKindChar {c : Char} (h : isKindChar c = true) : isBlank c = false := by
  by_contra hblank
  rw [Bool.not_eq_false] at hblank
  rw [isKindChar, Bool.or_eq_true, beq_iff_eq] at h
  rcases h with halpha | rfl
  · have hword : c.isAlphanum = true := Bool.or_eq_true_iff.2 (.inl halpha)
    rw [not_isAlphanum_of_isBlank hblank] at hword
    cases hword
  · revert hblank
    decide

theorem not_feed_mem_word {word : List Char} (h : ∀ c ∈ word, isKindChar c = true) : '\n' ∉ word := by
  intro hmem
  have hkind := h _ hmem
  revert hkind
  decide

theorem afterBlanks?_eq_some_iff {word : String} {cs rest : List Char} :
    afterBlanks? word cs = some rest ↔ trimLeft cs = word.toList ++ rest := by
  simp only [afterBlanks?]
  constructor
  · intro h
    split at h
    · rename_i hstart
      obtain ⟨tail, htail⟩ := hstart
      cases h
      rw [← htail, ← String.length_toList, List.drop_left]
    · cases h
  · intro heq
    rw [heq, if_pos (List.prefix_append _ rest), ← String.length_toList, List.drop_left]

theorem takeWhile_eq_iff {p : Char → Bool} {cs word rest : List Char} :
    (cs.takeWhile p = word ∧ cs.dropWhile p = rest) ↔
      cs = word ++ rest ∧ (∀ c ∈ word, p c = true) ∧ ∀ c ∈ rest.head?, p c = false := by
  constructor
  · rintro ⟨rfl, rfl⟩
    refine ⟨List.takeWhile_append_dropWhile.symm, fun c hc => List.mem_takeWhile_imp hc, fun c hc => ?_⟩
    have hhead := List.head?_dropWhile_not p cs
    rw [Option.mem_def.1 hc] at hhead
    exact hhead
  · rintro ⟨rfl, hall, hhead⟩
    rw [List.takeWhile_append_of_pos hall, List.dropWhile_append_of_pos hall]
    cases rest with
    | nil => exact ⟨List.append_nil word, rfl⟩
    | cons c rest =>
      have hc : ¬ p c = true := by rw [hhead c rfl]; exact Bool.false_ne_true
      rw [List.takeWhile_cons_of_neg hc, List.dropWhile_cons_of_neg hc, List.append_nil]
      exact ⟨rfl, rfl⟩

theorem sentinelAt?_eq_some_iff {cs word rest : List Char} :
    sentinelAt? cs = some (word, rest) ↔ ∃ gap, Sentinel gap word rest cs := by
  have hslash : ∀ {cs rest : List Char}, trimLeft cs = "//".toList ++ rest ↔
      ∃ blanks, allBlank blanks = true ∧ cs = blanks ++ ("//".toList ++ rest) :=
    trimLeft_eq_cons_iff (by decide)
  have hannounced : ∀ {cs rest : List Char}, trimLeft cs = "MOVEMENT_PATTERN:".toList ++ rest ↔
      ∃ blanks, allBlank blanks = true ∧ cs = blanks ++ ("MOVEMENT_PATTERN:".toList ++ rest) :=
    trimLeft_eq_cons_iff (by decide)
  simp only [sentinelAt?, Option.bind_eq_bind, Option.bind_eq_some_iff, afterBlanks?_eq_some_iff, hslash, hannounced]
  constructor
  · rintro ⟨r, ⟨indent, hindent, rfl⟩, r', ⟨inner, hinner, rfl⟩, hword⟩
    split at hword
    · cases hword
    · rename_i hsome
      obtain ⟨htake, hdrop⟩ := Prod.mk.inj (Option.some.inj hword)
      obtain ⟨hsplit, hspelled, hended⟩ := takeWhile_eq_iff.1 ⟨htake, hdrop⟩
      obtain ⟨outer, houter, hr'⟩ := exists_blanks r'
      rw [htake] at hsome
      rw [hr', hsplit]
      exact ⟨_, .mk hindent hinner houter hsome hspelled hended⟩
  · rintro ⟨_, hindent, hinner, houter, hsome, hspelled, hended⟩
    rename_i indent inner outer
    have htrim : trimLeft (outer ++ (word ++ rest)) = word ++ rest := by
      rw [trimLeft_append houter]
      cases word with
      | nil => exact absurd rfl hsome
      | cons c word => exact trimLeft_of_not_isBlank (not_isBlank_of_isKindChar (hspelled c List.mem_cons_self)) _
    obtain ⟨htake, hdrop⟩ := takeWhile_eq_iff.2 ⟨rfl, hspelled, hended⟩
    refine ⟨_, ⟨_, hindent, rfl⟩, _, ⟨_, hinner, rfl⟩, ?_⟩
    rw [htrim, htake, hdrop, if_neg hsome]

/-! ## The start of a line -/

theorem findSome?_cons_or {α β : Type} (f : α → Option β) (a : α) (as : List α) :
    (a :: as).findSome? f = (f a).or (as.findSome? f) := by
  rw [List.findSome?_cons]
  cases f a <;> rfl

/-- The texts that follow the line feeds of a text. -/
def afterFeeds : List Char → List (List Char)
  | [] => []
  | c :: rest => if c = '\n' then rest :: afterFeeds rest else afterFeeds rest

/-- A text from the start of each of its lines on. -/
def lineStarts (text : List Char) : List (List Char) := text :: afterFeeds text

/-- The kind that is named at the front of a text. -/
def namedAt? (cs : List Char) : Option StrategyKind := (sentinelAt? cs).bind fun found => aliasable? found.1

theorem namedAt?_eq_some_iff {cs : List Char} {kind : StrategyKind} :
    namedAt? cs = some kind ↔ ∃ gap, Names gap cs kind := by
  rw [namedAt?, Option.bind_eq_some_iff]
  constructor
  · rintro ⟨⟨word, rest⟩, hfound, hkind⟩
    obtain ⟨gap, hsentinel⟩ := sentinelAt?_eq_some_iff.1 hfound
    exact ⟨gap, word, rest, hsentinel, hkind⟩
  · rintro ⟨gap, word, rest, hsentinel, hkind⟩
    exact ⟨(word, rest), sentinelAt?_eq_some_iff.2 ⟨gap, hsentinel⟩, hkind⟩

theorem sentinelAt?_congr {cs cs' : List Char} (h : trimLeft cs = trimLeft cs') : sentinelAt? cs = sentinelAt? cs' := by
  have hslash : afterBlanks? "//" cs = afterBlanks? "//" cs' := by rw [afterBlanks?, afterBlanks?, h]
  rw [sentinelAt?, sentinelAt?, hslash]

theorem namedAt?_append {blanks : List Char} (h : allBlank blanks = true) (cs : List Char) :
    namedAt? (blanks ++ cs) = namedAt? cs := by
  rw [namedAt?, namedAt?, sentinelAt?_congr (trimLeft_append h cs)]

theorem namedAt?_of_head {c : Char} (h : isBlank c = false) (slash : c ≠ '/') (cs : List Char) :
    namedAt? (c :: cs) = none := by
  have hnone : afterBlanks? "//" (c :: cs) = none := by
    rw [Option.eq_none_iff_forall_ne_some]
    intro rest hafter
    have hhead := (trimLeft_of_not_isBlank h cs).symm.trans (afterBlanks?_eq_some_iff.1 hafter)
    exact slash (List.cons.inj hhead).1
  rw [namedAt?, sentinelAt?, hnone]
  rfl

/-! ## The search passes over no sentinel -/

theorem afterFeeds_append {word : List Char} (h : '\n' ∉ word) (cs : List Char) :
    afterFeeds (word ++ cs) = afterFeeds cs := by
  induction word with
  | nil => rfl
  | cons c word ih =>
    rw [List.mem_cons, not_or] at h
    rw [List.cons_append, afterFeeds, if_neg (Ne.symm h.1), ih h.2]

theorem findSome?_afterFeeds_append {blanks cs : List Char} (h : allBlank blanks = true) (hnone : namedAt? cs = none) :
    (afterFeeds (blanks ++ cs)).findSome? namedAt? = (afterFeeds cs).findSome? namedAt? := by
  induction blanks with
  | nil => rfl
  | cons c blanks ih =>
    rw [allBlank, List.all_cons, Bool.and_eq_true] at h
    rw [List.cons_append, afterFeeds, ← ih h.2]
    by_cases hfeed : c = '\n'
    · rw [if_pos hfeed, findSome?_cons_or, namedAt?_append h.2, hnone, Option.none_or]
    · rw [if_neg hfeed]

/-- Within a sentinel that is passed over starts none that names a kind. -/
theorem Sentinel.passed {gap word rest cs : List Char} (h : Sentinel gap word rest cs)
    (unknown : aliasable? word = none) :
    (afterFeeds cs).findSome? namedAt? = (afterFeeds rest).findSome? namedAt? := by
  have hnone : namedAt? cs = none := by
    rw [namedAt?, sentinelAt?_eq_some_iff.2 ⟨gap, h⟩]
    exact unknown
  obtain ⟨hindent, hinner, houter, hsome, hspelled, -⟩ := h
  have hfeed : '\n' ∉ word := not_feed_mem_word hspelled
  have hword : namedAt? (word ++ rest) = none := by
    cases word with
    | nil => exact absurd rfl hsome
    | cons c word =>
      have hc := hspelled c List.mem_cons_self
      refine namedAt?_of_head (not_isBlank_of_isKindChar hc) ?_ _
      rintro rfl
      revert hc
      decide
  have hannounced : ∀ more, namedAt? ("MOVEMENT_PATTERN:".toList ++ more) = none := fun more =>
    namedAt?_of_head (by decide) (by decide) _
  rw [namedAt?_append hindent] at hnone
  rw [findSome?_afterFeeds_append hindent hnone, afterFeeds_append (by decide),
    findSome?_afterFeeds_append hinner (hannounced _), afterFeeds_append (by decide),
    findSome?_afterFeeds_append houter hword, afterFeeds_append hfeed]

theorem kindIn?_eq (lineStart : Bool) (cs : List Char) :
    kindIn? lineStart cs = ((if lineStart then [cs] else []) ++ afterFeeds cs).findSome? namedAt? := by
  fun_induction kindIn? lineStart cs with
  | case1 lineStart =>
    have hnone : namedAt? [] = none := by decide
    cases lineStart with
    | true =>
      rw [if_pos rfl, List.singleton_append, findSome?_cons_or, hnone]
      rfl
    | false => rfl
  | case2 lineStart c rest word after found kind hkind =>
    cases lineStart with
    | true =>
      have hfound : sentinelAt? (c :: rest) = some (word, after) := found
      have hnamed : namedAt? (c :: rest) = some kind := by
        rw [namedAt?, hfound]
        exact hkind
      rw [if_pos rfl, List.singleton_append, findSome?_cons_or, hnamed, Option.some_or]
    | false => cases found
  | case3 lineStart c rest word after found hkind ih =>
    cases lineStart with
    | true =>
      have hfound : sentinelAt? (c :: rest) = some (word, after) := found
      have hnamed : namedAt? (c :: rest) = none := by
        rw [namedAt?, hfound]
        exact hkind
      obtain ⟨gap, hsentinel⟩ := sentinelAt?_eq_some_iff.1 hfound
      rw [ih, if_pos rfl, List.singleton_append, findSome?_cons_or, hnamed, Option.none_or, hsentinel.passed hkind]
      rfl
    | false => cases found
  | case4 lineStart c rest found ih =>
    have hhere : (if lineStart then [c :: rest] else []).findSome? namedAt? = none := by
      cases lineStart with
      | true =>
        have hfound : sentinelAt? (c :: rest) = none := found
        have hnamed : namedAt? (c :: rest) = none := by
          rw [namedAt?, hfound]
          rfl
        rw [if_pos rfl, findSome?_cons_or, hnamed, Option.none_or, List.findSome?_nil]
      | false => rfl
    have hlater : ((if lineStart then [c :: rest] else []) ++ afterFeeds (c :: rest)).findSome? namedAt? =
        (afterFeeds (c :: rest)).findSome? namedAt? := by
      rw [List.findSome?_append, hhere, Option.none_or]
    rw [hlater, ih, afterFeeds]
    by_cases hfeed : c = '\n'
    · rw [if_pos hfeed, if_pos (beq_iff_eq.2 hfeed), List.singleton_append]
    · rw [if_neg hfeed, if_neg (mt beq_iff_eq.1 hfeed), List.nil_append]

theorem kindOf?_eq (text : List Char) : kindOf? text = (lineStarts text).findSome? namedAt? :=
  kindIn?_eq true text

/-! ## Line by line -/

/-- No sentinel that names a kind runs over the end of a line: no line feed stands in its gap. -/
def Unbroken (text : List Char) : Prop :=
  ∀ start ∈ lineStarts text, ∀ gap kind, Names gap start kind → '\n' ∉ gap

theorem lineStarts_append {line : List Char} (h : '\n' ∉ line) (rest : List Char) :
    lineStarts (line ++ '\n' :: rest) = (line ++ '\n' :: rest) :: lineStarts rest := by
  rw [lineStarts, afterFeeds_append h, afterFeeds, if_pos rfl]
  rfl

theorem kindOf?_line {line : List Char} (h : '\n' ∉ line) : kindOf? line = namedAt? line := by
  have hfeeds : afterFeeds line = [] := by
    have happend := afterFeeds_append h []
    rwa [List.append_nil] at happend
  rw [kindOf?_eq, lineStarts, hfeeds, findSome?_cons_or, List.findSome?_nil, Option.or_none]

theorem fileLines_line {line : List Char} (h : '\n' ∉ line) (rest : List Char) :
    fileLines (line ++ '\n' :: rest) = line :: fileLines rest := by
  have hended : ∀ c ∈ (line ++ ['\n']).getLast?, c = '\n' := by simp
  have hsplit : line ++ '\n' :: rest = (line ++ ['\n']) ++ rest := by simp
  rw [hsplit, fileLines_append hended, fileLines_feed h, List.singleton_append]

/-- What stands in front of a line feed and holds none is part of the line that the feed ends. -/
theorem exists_append_of_not_mem {line rest pre post : List Char} (h : '\n' ∉ pre)
    (heq : line ++ '\n' :: rest = pre ++ post) : ∃ more, line = pre ++ more ∧ post = more ++ '\n' :: rest := by
  rcases List.append_eq_append_iff.1 heq with ⟨as, rfl, hrest⟩ | ⟨more, rfl, rfl⟩
  · cases as with
    | nil => exact ⟨[], by simp, hrest.symm⟩
    | cons c as =>
      rw [List.cons_append] at hrest
      rw [← (List.cons.inj hrest).1] at h
      simp at h
  · exact ⟨more, rfl, rfl⟩

theorem Names.append {gap line : List Char} {kind : StrategyKind} (h : Names gap line kind) (rest : List Char) :
    Names gap (line ++ '\n' :: rest) kind := by
  obtain ⟨word, after, hsentinel, hkind⟩ := h
  refine ⟨word, after ++ '\n' :: rest, ?_, hkind⟩
  obtain ⟨hindent, hinner, houter, hsome, hspelled, hended⟩ := hsentinel
  have hended' : ∀ c ∈ (after ++ '\n' :: rest).head?, isKindChar c = false := by
    intro c hc
    cases after with
    | nil =>
      cases hc
      decide
    | cons d after => exact hended c hc
  have hmk := Sentinel.mk hindent hinner houter hsome hspelled hended'
  simpa only [List.append_assoc] using hmk

/-- A sentinel that is over at the end of its line stands on it, unless the line is blank. -/
theorem Names.of_append {gap line rest : List Char} {kind : StrategyKind} (h : Names gap (line ++ '\n' :: rest) kind)
    (unbroken : '\n' ∉ gap) (solid : ¬ allBlank line = true) (plain : '\n' ∉ line) : Names gap line kind := by
  obtain ⟨word, after, hsentinel, hkind⟩ := h
  generalize hcs : line ++ '\n' :: rest = cs at hsentinel
  obtain ⟨hindent, hinner, houter, hsome, hspelled, hended⟩ := hsentinel
  rename_i indent inner outer
  rw [List.mem_append, not_or] at unbroken
  have hword : '\n' ∉ word := not_feed_mem_word hspelled
  have hfront : '\n' ∉ indent := by
    rcases List.append_eq_append_iff.1 hcs with ⟨more, rfl, -⟩ | ⟨more, rfl, -⟩
    · refine absurd (List.all_eq_true.2 fun c hc => ?_) solid
      exact List.all_eq_true.1 hindent c (List.mem_append_left more hc)
    · exact fun hmem => plain (List.mem_append_left more hmem)
  have hpre : '\n' ∉ indent ++ ("//".toList ++ (inner ++ ("MOVEMENT_PATTERN:".toList ++ (outer ++ word)))) := by
    have hslash : '\n' ∉ "//".toList := by decide
    have hannounced : '\n' ∉ "MOVEMENT_PATTERN:".toList := by decide
    simp only [List.mem_append, hfront, hslash, unbroken.1, hannounced, unbroken.2, hword, or_self, not_false_eq_true]
  have hsplit : line ++ '\n' :: rest =
      (indent ++ ("//".toList ++ (inner ++ ("MOVEMENT_PATTERN:".toList ++ (outer ++ word))))) ++ after := by
    simpa only [List.append_assoc] using hcs
  obtain ⟨more, rfl, rfl⟩ := exists_append_of_not_mem hpre hsplit
  have hended' : ∀ c ∈ more.head?, isKindChar c = false := by
    intro c hc
    cases more with
    | nil => cases hc
    | cons d more => exact hended c hc
  have hmk := Sentinel.mk hindent hinner houter hsome hspelled hended'
  refine ⟨word, more, ?_, hkind⟩
  simpa only [List.append_assoc] using hmk

theorem namedAt?_blank {line : List Char} (h : allBlank line = true) : namedAt? line = none := by
  have happend := namedAt?_append h []
  rw [List.append_nil] at happend
  rw [happend]
  decide

/-- Where no sentinel runs over the end of the first line, the line by itself names what the text does at its start,
or it is blank. -/
theorem namedAt?_line {line rest : List Char} (plain : '\n' ∉ line)
    (unbroken : ∀ gap kind, Names gap (line ++ '\n' :: rest) kind → '\n' ∉ gap) :
    namedAt? (line ++ '\n' :: rest) = namedAt? line ∨
      namedAt? line = none ∧ namedAt? (line ++ '\n' :: rest) = namedAt? rest := by
  by_cases hblank : allBlank line = true
  · have hfront : allBlank (line ++ ['\n']) = true := by
      rw [allBlank, List.all_append, Bool.and_eq_true]
      exact ⟨hblank, by decide⟩
    have happend := namedAt?_append hfront rest
    rw [List.append_assoc, List.singleton_append] at happend
    exact .inr ⟨namedAt?_blank hblank, happend⟩
  · refine .inl (Option.ext fun kind => ?_)
    rw [namedAt?_eq_some_iff, namedAt?_eq_some_iff]
    constructor
    · rintro ⟨gap, hnames⟩
      exact ⟨gap, hnames.of_append (unbroken gap kind hnames) hblank plain⟩
    · rintro ⟨gap, hnames⟩
      exact ⟨gap, hnames.append rest⟩

theorem findSome?_kindOf?_cons {line : List Char} (plain : '\n' ∉ line) (rest : List Char) :
    (fileLines (line ++ '\n' :: rest)).findSome? kindOf? =
      (namedAt? line).or ((fileLines rest).findSome? kindOf?) := by
  rw [fileLines_line plain, findSome?_cons_or, kindOf?_line plain]

theorem kindOf?_cons {line : List Char} (plain : '\n' ∉ line) (rest : List Char) :
    kindOf? (line ++ '\n' :: rest) = (namedAt? (line ++ '\n' :: rest)).or (kindOf? rest) := by
  rw [kindOf?_eq, lineStarts_append plain, findSome?_cons_or, ← kindOf?_eq]

theorem findSome?_kindOf?_line {line : List Char} (plain : '\n' ∉ line) :
    (fileLines line).findSome? kindOf? = kindOf? line := by
  by_cases hnil : line = []
  · rw [kindOf?_line plain, hnil, namedAt?_blank rfl]
    rfl
  · rw [fileLines_single plain hnil, findSome?_cons_or, List.findSome?_nil, Option.or_none]

/-- Texts are built of lines. -/
theorem lines_induction {motive : List Char → Prop} (last : ∀ line, '\n' ∉ line → motive line)
    (feed : ∀ line rest, '\n' ∉ line → motive rest → motive (line ++ '\n' :: rest)) (text : List Char) :
    motive text := by
  induction hlength : text.length using Nat.strongRecOn generalizing text with
  | ind n ih =>
    by_cases hfeed : '\n' ∈ text
    · obtain ⟨line, rest, rfl, plain⟩ := List.eq_append_cons_of_mem hfeed
      refine feed line rest plain (ih rest.length ?_ rest rfl)
      rw [← hlength, List.length_append, List.length_cons]
      omega
    · exact last text hfeed

theorem kindOf?_of_unbroken {text : List Char} (unbroken : Unbroken text) :
    kindOf? text = (fileLines text).findSome? kindOf? := by
  induction text using lines_induction with
  | last line plain => exact (findSome?_kindOf?_line plain).symm
  | feed line rest plain ih =>
    rw [Unbroken, lineStarts_append plain] at unbroken
    have hrest := ih fun start hstart => unbroken start (List.mem_cons_of_mem _ hstart)
    rw [findSome?_kindOf?_cons plain, ← hrest, kindOf?_cons plain]
    rcases namedAt?_line plain (unbroken _ List.mem_cons_self) with hsame | ⟨hnone, hsame⟩
    · rw [hsame]
    -- behind a blank line, the text names at its start what it names at the start of the next line
    · rw [hsame, hnone, Option.none_or, kindOf?_eq, lineStarts, findSome?_cons_or, ← Option.or_assoc, Option.or_self]

theorem kindOf?_isSome {text : List Char} (h : ((fileLines text).findSome? kindOf?).isSome = true) :
    (kindOf? text).isSome = true := by
  induction text using lines_induction with
  | last line plain => rwa [findSome?_kindOf?_line plain] at h
  | feed line rest plain ih =>
    rw [findSome?_kindOf?_cons plain, Option.isSome_or, Bool.or_eq_true] at h
    rw [kindOf?_cons plain, Option.isSome_or, Bool.or_eq_true]
    refine h.imp (fun hline => ?_) ih
    obtain ⟨kind, hkind⟩ := Option.isSome_iff_exists.1 hline
    obtain ⟨gap, hnames⟩ := namedAt?_eq_some_iff.1 hkind
    rw [namedAt?_eq_some_iff.2 ⟨gap, hnames.append rest⟩]
    rfl

/-- The kind of a pattern file is that of the first sentinel, among those that start at the front of a line and name a
kind. If none of them runs over the end of a line, it is the first kind that a line names by itself. In any case, a kind
is found if some line by itself names one. -/
theorem kind_by_lines (text : List Char) :
    (∀ kind, kindOf? text = some kind ↔
      ∃ before start after, lineStarts text = before ++ start :: after ∧ (∃ gap, Names gap start kind) ∧
        ∀ earlier ∈ before, ∀ gap other, ¬ Names gap earlier other) ∧
      (Unbroken text → kindOf? text = (fileLines text).findSome? kindOf?) ∧
      (kindOf? text = none → ∀ line ∈ fileLines text, kindOf? line = none) := by
  have hnone : ∀ cs, namedAt? cs = none ↔ ∀ gap kind, ¬ Names gap cs kind := by
    intro cs
    rw [Option.eq_none_iff_forall_ne_some]
    constructor
    · exact fun h gap kind hnames => h kind (namedAt?_eq_some_iff.2 ⟨gap, hnames⟩)
    · intro h kind hnamed
      obtain ⟨gap, hnames⟩ := namedAt?_eq_some_iff.1 hnamed
      exact h gap kind hnames
  refine ⟨fun kind => ?_, kindOf?_of_unbroken, fun h => ?_⟩
  · rw [kindOf?_eq, List.findSome?_eq_some_iff]
    simp only [namedAt?_eq_some_iff, hnone]
  · rw [← List.findSome?_eq_none_iff, ← Option.not_isSome_iff_eq_none]
    intro hsome
    have hfound := kindOf?_isSome hsome
    rw [h] at hfound
    cases hfound

theorem Names.subset {gap cs : List Char} {kind : StrategyKind} (h : Names gap cs kind) : gap ⊆ cs := by
  obtain ⟨word, rest, ⟨-, -, -, -, -, -⟩, -⟩ := h
  intro c hc
  simp only [List.mem_append] at hc ⊢
  rcases hc with hinner | houter
  · exact .inr (.inr (.inl hinner))
  · exact .inr (.inr (.inr (.inr (.inl houter))))

theorem unbroken_of_last {text : List Char} (h : ∀ start ∈ lineStarts text, '\n' ∈ start → namedAt? start = none) :
    Unbroken text := by
  intro start hstart gap kind hnames hfeed
  have hnamed := namedAt?_eq_some_iff.2 ⟨gap, hnames⟩
  rw [h start hstart (hnames.subset hfeed)] at hnamed
  cases hnamed

/-- A word that is no kind and an announcement that is none are passed over. -/
def guardFile : List Char :=
  "fn main() {}\n// MOVEMENT_PATTERN: walk\n//movement_pattern: chase\n //MOVEMENT_PATTERN:Guard".toList

theorem kind_by_lines_guard :
    Unbroken guardFile ∧ kindOf? guardFile = (fileLines guardFile).findSome? kindOf? := by
  have unbroken : Unbroken guardFile := unbroken_of_last (by decide +kernel)
  exact ⟨unbroken, (kind_by_lines guardFile).2.1 unbroken⟩

/-- A comment sign alone on its line is continued on the next one, although no line is a sentinel by itself. -/
def brokenFile : List Char := "//\nMOVEMENT_PATTERN: chase".toList

theorem kind_across_lines :
    kindOf? brokenFile = some .chase ∧ (fileLines brokenFile).findSome? kindOf? = none := by
  simp only [List.findSome?_eq_none_iff, kindOf?_eq]
  decide +kernel

end ScriptedRobot.Pattern
