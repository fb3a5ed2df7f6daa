import ScriptedRobot.Proofs.Script.Faults

/-!
# Where calls start

A call starts wherever one of the names stands at the start of a word and in front of an opening parenthesis
(`StartsAt`). The search for calls goes on behind the parenthesis of the one that it has found, and it tries the names in
a certain order. Both make no difference: no call starts between a name and its parenthesis (`offsetCalls_spelled`), and
no name is taken for another that begins with it (`callAt?_eq_some_iff`). So the search finds the calls at all offsets
(`map_snd_offsetCalls`, `mem_offsetCalls`).
-/

namespace ScriptedRobot.Script

open Text

/-! ## Names -/

theorem not_isWordChar_of_isBlank {c : Char} (h : isBlank c = true) : isWordChar c = false := by
  have hscore : c ≠ '_' := by
    rintro rfl
    revert h
    decide
  rw [isWordChar, not_isAlphanum_of_isBlank h, beq_eq_false_iff_ne.2 hscore]
  rfl

/-- A name is a word, perhaps with an exclamation mark behind it. -/
theorem name_shape {name : String} {kind : CommandKind} (h : (name, kind) ∈ callNames) :
    ∃ c word bang, name.toList = c :: (word ++ bang) ∧ isWordChar c = true ∧ (∀ d ∈ word, isWordChar d = true) ∧
      ∀ d ∈ bang, isWordChar d = false := by
  have hnames : callNames.all (fun entry => !(entry.1.toList.takeWhile isWordChar).isEmpty &&
      (entry.1.toList.dropWhile isWordChar).all (fun d => !isWordChar d)) = true := by decide
  have hname := List.all_eq_true.1 hnames _ h
  simp only [Bool.and_eq_true, Bool.not_eq_true', List.all_eq_true] at hname
  obtain ⟨hword, hbang⟩ := hname
  have hall : ∀ d ∈ name.toList.takeWhile isWordChar, isWordChar d = true := fun d hd => List.mem_takeWhile_imp hd
  have hsplit := List.takeWhile_append_dropWhile (p := isWordChar) (l := name.toList)
  cases htake : name.toList.takeWhile isWordChar with
  | nil =>
    rw [htake] at hword
    cases hword
  | cons c word =>
    rw [htake] at hall hsplit
    exact ⟨c, word, _, hsplit.symm, hall c List.mem_cons_self, fun d hd => hall d (List.mem_cons_of_mem c hd), hbang⟩

/-- Neither a blank nor an opening parenthesis stands in a name. -/
def endsName (c : Char) : Bool := isBlank c || c == '('

theorem not_endsName_of_mem {name : String} {kind : CommandKind} (h : (name, kind) ∈ callNames) :
    ∀ c ∈ name.toList, (!endsName c) = true := by
  have hnames : callNames.all (fun entry => entry.1.toList.all (fun c => !endsName c)) = true := by decide
  exact List.all_eq_true.1 (List.all_eq_true.1 hnames _ h)

theorem kind_unique {name : String} {kind kind' : CommandKind} (h : (name, kind) ∈ callNames)
    (h' : (name, kind') ∈ callNames) : kind = kind' := by
  have hnames : ∀ entry ∈ callNames, ∀ entry' ∈ callNames, entry.1 = entry'.1 → entry.2 = entry'.2 := by decide
  exact hnames _ h _ h' rfl

/-! ## Calls at an offset -/

/-- The text starts with a call of the kind, and the rest follows its opening parenthesis. -/
def Spelled (kind : CommandKind) (rest cs : List Char) : Prop :=
  ∃ name blanks, (name, kind) ∈ callNames ∧ allBlank blanks = true ∧ cs = name.toList ++ (blanks ++ '(' :: rest)

/-- A call of the kind starts at the offset of the line, and the rest follows its opening parenthesis. -/
structure StartsAt (line : List Char) (i : Nat) (kind : CommandKind) (rest : List Char) : Prop where
  /-- The character before the name belongs to no identifier. -/
  boundary : ∀ c ∈ (line.take i).getLast?, isWordChar c = false
  spelled : Spelled kind rest (line.drop i)

theorem startsAt_iff {line : List Char} {i : Nat} {kind : CommandKind} {rest : List Char} :
    StartsAt line i kind rest ↔
      (∀ c ∈ (line.take i).getLast?, isWordChar c = false) ∧ Spelled kind rest (line.drop i) :=
  ⟨fun ⟨boundary, spelled⟩ => ⟨boundary, spelled⟩, fun ⟨boundary, spelled⟩ => ⟨boundary, spelled⟩⟩

/-- The name of a call ends at the first blank or parenthesis. -/
theorem takeWhile_name {name : String} {kind : CommandKind} (h : (name, kind) ∈ callNames) {blanks : List Char}
    (hblanks : allBlank blanks = true) (rest : List Char) :
    (name.toList ++ (blanks ++ '(' :: rest)).takeWhile (fun c => !endsName c) = name.toList := by
  have hstop : (blanks ++ '(' :: rest).takeWhile (fun c => !endsName c) = [] := by
    cases blanks with
    | nil => rfl
    | cons c blanks =>
      have hblank : isBlank c = true := List.all_eq_true.1 hblanks c List.mem_cons_self
      rw [List.cons_append, List.takeWhile_cons_of_neg (by simp [endsName, hblank])]
  rw [List.takeWhile_append_of_pos (not_endsName_of_mem h), hstop, List.append_nil]

/-- At most one call starts at the front of a text. -/
theorem Spelled.unique {kind kind' : CommandKind} {rest rest' cs : List Char} (h : Spelled kind rest cs)
    (h' : Spelled kind' rest' cs) : (kind, rest) = (kind', rest') := by
  obtain ⟨name, blanks, hname, hblanks, hcs⟩ := h
  obtain ⟨name', blanks', hname', hblanks', hcs'⟩ := h'
  have hsame : name = name' := by
    rw [← String.toList_inj, ← takeWhile_name hname hblanks rest, ← takeWhile_name hname' hblanks' rest', ← hcs, ← hcs']
  subst hsame
  have htail : trimLeft (blanks ++ '(' :: rest) = '(' :: rest' :=
    (trimLeft_eq_cons_iff (by decide)).2 ⟨blanks', hblanks', List.append_cancel_left (hcs.symm.trans hcs')⟩
  rw [trimLeft_append hblanks, trimLeft_of_not_isBlank (by decide)] at htail
  rw [kind_unique hname hname', (List.cons.inj htail).2]

theorem after?_eq_some_iff {word cs rest : List Char} : after? word cs = some rest ↔ cs = word ++ rest := by
  unfold after?
  constructor
  · intro h
    split at h
    · rename_i hstart
      cases h
      obtain ⟨rest, rfl⟩ := hstart
      rw [List.drop_left]
    · cases h
  · rintro rfl
    rw [if_pos (List.prefix_append word rest), List.drop_left]

theorem afterChar?_eq_some_iff {c : Char} {cs rest : List Char} : afterChar? c cs = some rest ↔ cs = c :: rest := by
  cases cs with
  | nil => exact ⟨nofun, nofun⟩
  | cons d cs =>
    simp only [afterChar?, Option.ite_none_right_eq_some, Option.some.injEq, List.cons.injEq]

theorem callAt?_eq_some_iff {cs rest : List Char} {kind : CommandKind} :
    callAt? cs = some (kind, rest) ↔ Spelled kind rest cs := by
  -- every name that is found in the table is spelled out, and only one can be
  have hspelled : ∀ {kind rest}, callAt? cs = some (kind, rest) → Spelled kind rest cs := by
    intro kind rest h
    obtain ⟨⟨name, kind'⟩, hname, hcall⟩ := List.exists_of_findSome?_eq_some h
    simp only [Option.bind_eq_bind, Option.bind_eq_some_iff, after?_eq_some_iff, afterChar?_eq_some_iff] at hcall
    obtain ⟨tail, rfl, rest', hparen, heq⟩ := hcall
    cases heq
    obtain ⟨blanks, hblanks, rfl⟩ := (trimLeft_eq_cons_iff (by decide)).1 hparen
    exact ⟨name, blanks, hname, hblanks, rfl⟩
  refine ⟨hspelled, fun h => ?_⟩
  obtain ⟨name, blanks, hname, hblanks, hcs⟩ := id h
  have hsome : (callAt? cs).isSome = true := by
    refine List.findSome?_isSome_iff.2 ⟨(name, kind), hname, ?_⟩
    have hafter : after? name.toList cs = some (blanks ++ '(' :: rest) := after?_eq_some_iff.2 hcs
    have hparen : afterChar? '(' (trimLeft (blanks ++ '(' :: rest)) = some rest :=
      afterChar?_eq_some_iff.2 ((trimLeft_eq_cons_iff (by decide)).2 ⟨blanks, hblanks, rfl⟩)
    simp only [hafter, hparen, Option.bind_eq_bind, Option.bind_some]
    rfl
  obtain ⟨⟨kind', rest'⟩, hcall⟩ := Option.isSome_iff_exists.1 hsome
  rw [hcall, (hspelled hcall).unique h]

/-! ## Every offset of a line -/

/-- The call that starts at the front of a text, unless the text continues an identifier. -/
def callFrom? (afterWord : Bool) (cs : List Char) : Option Call := if afterWord then none else callAt? cs

/-- The calls of a text with their offsets, where the text itself stands at the offset `i`. Every offset is tried. -/
def offsetCalls (i : Nat) (afterWord : Bool) : List Char → List (Nat × Call)
  | [] => []
  | c :: rest =>
    (callFrom? afterWord (c :: rest)).toList.map (fun call => (i, call)) ++ offsetCalls (i + 1) (isWordChar c) rest

theorem callFrom?_eq_some_iff {afterWord : Bool} {cs rest : List Char} {kind : CommandKind} :
    callFrom? afterWord cs = some (kind, rest) ↔ afterWord = false ∧ Spelled kind rest cs := by
  rw [← callAt?_eq_some_iff]
  cases afterWord with
  | true => exact ⟨nofun, nofun⟩
  | false => exact ⟨fun h => ⟨rfl, h⟩, fun h => h.2⟩

theorem mem_offsetCalls_cons {i j : Nat} {afterWord : Bool} {c : Char} {cs : List Char} {call : Call} :
    (j, call) ∈ offsetCalls i afterWord (c :: cs) ↔
      (j = i ∧ callFrom? afterWord (c :: cs) = some call) ∨ (j, call) ∈ offsetCalls (i + 1) (isWordChar c) cs := by
  rw [offsetCalls, List.mem_append]
  refine or_congr_left ?_
  simp only [List.mem_map, Option.mem_toList, Prod.mk.injEq]
  constructor
  · rintro ⟨_, hcall, rfl, rfl⟩
    exact ⟨rfl, hcall⟩
  · rintro ⟨rfl, hcall⟩
    exact ⟨call, hcall, rfl, rfl⟩

/-! ### What stands inside of a call -/

theorem callAt?_of_not_isWordChar {c : Char} (h : isWordChar c = false) (rest : List Char) :
    callAt? (c :: rest) = none := by
  cases hcall : callAt? (c :: rest) with
  | none => rfl
  | some call =>
    obtain ⟨name, blanks, hname, -, hcs⟩ := callAt?_eq_some_iff.1 hcall
    obtain ⟨d, word, bang, hshape, hword, -⟩ := name_shape hname
    rw [hshape, List.cons_append] at hcs
    rw [(List.cons.inj hcs).1, hword] at h
    cases h

theorem offsetCalls_of_not_isWordChar (i : Nat) (afterWord : Bool) {c : Char} (h : isWordChar c = false)
    (rest : List Char) : offsetCalls i afterWord (c :: rest) = offsetCalls (i + 1) false rest := by
  have hnone : callFrom? afterWord (c :: rest) = none := by
    rw [callFrom?, callAt?_of_not_isWordChar h, ite_self]
  rw [offsetCalls, hnone, h]
  rfl

/-- No call starts in a gap between words. -/
theorem offsetCalls_gap (i : Nat) (afterWord : Bool) {gap : List Char} (h : ∀ c ∈ gap, isWordChar c = false)
    (last : Char) (hlast : isWordChar last = false) (rest : List Char) :
    offsetCalls i afterWord (gap ++ last :: rest) = offsetCalls (i + gap.length + 1) false rest := by
  induction gap generalizing i afterWord with
  | nil => exact offsetCalls_of_not_isWordChar i afterWord hlast rest
  | cons c gap ih =>
    rw [List.cons_append, offsetCalls_of_not_isWordChar i afterWord (h c List.mem_cons_self),
      ih (i + 1) false fun d hd => h d (List.mem_cons_of_mem c hd), List.length_cons]
    congr 1
    omega

/-- No call starts in the middle of a word. -/
theorem offsetCalls_word (i : Nat) {word : List Char} (h : ∀ c ∈ word, isWordChar c = true) (rest : List Char) :
    offsetCalls i true (word ++ rest) = offsetCalls (i + word.length) true rest := by
  induction word generalizing i with
  | nil => rfl
  | cons c word ih =>
    have hnone : callFrom? true (c :: (word ++ rest)) = none := rfl
    rw [List.cons_append, offsetCalls, hnone, h c List.mem_cons_self, Option.toList_none, List.map_nil, List.nil_append,
      ih (i + 1) fun d hd => h d (List.mem_cons_of_mem c hd), List.length_cons]
    congr 1
    omega

/-- Behind the start of a call, the next one that starts does so behind its parenthesis. -/
theorem offsetCalls_spelled (i : Nat) {kind : CommandKind} {rest cs : List Char} (h : Spelled kind rest cs) :
    ∃ j, offsetCalls i false cs = (i, kind, rest) :: offsetCalls j false rest := by
  have hcall := callFrom?_eq_some_iff.2 ⟨rfl, h⟩
  obtain ⟨name, blanks, hname, hblanks, rfl⟩ := h
  obtain ⟨c, word, bang, hshape, hc, hword, hbang⟩ := name_shape hname
  have hgap : ∀ d ∈ bang ++ blanks, isWordChar d = false := by
    intro d hd
    rcases List.mem_append.1 hd with hd | hd
    · exact hbang d hd
    · exact not_isWordChar_of_isBlank (List.all_eq_true.1 hblanks d hd)
  have hcs : name.toList ++ (blanks ++ '(' :: rest) = c :: (word ++ ((bang ++ blanks) ++ '(' :: rest)) := by
    rw [hshape, List.cons_append, List.append_assoc, List.append_assoc]
  rw [hcs] at hcall ⊢
  rw [offsetCalls, hcall, hc, offsetCalls_word (i + 1) hword, offsetCalls_gap _ true hgap '(' (by decide)]
  exact ⟨_, rfl⟩

/-! ### The search tries every offset -/

theorem offsetCalls_nextCall? (i : Nat) (afterWord : Bool) (cs : List Char) :
    (nextCall? afterWord cs = none ∧ offsetCalls i afterWord cs = []) ∨
      ∃ call j k, nextCall? afterWord cs = some call ∧
        offsetCalls i afterWord cs = (j, call) :: offsetCalls k false call.2 := by
  induction cs generalizing i afterWord with
  | nil => exact .inl ⟨rfl, rfl⟩
  | cons c rest ih =>
    have hnext : nextCall? afterWord (c :: rest) =
        (callFrom? afterWord (c :: rest)).or (nextCall? (isWordChar c) rest) := by
      rw [nextCall?, callFrom?]
      cases (if afterWord then none else callAt? (c :: rest)) <;> rfl
    rw [hnext]
    cases hcall : callFrom? afterWord (c :: rest) with
    | none =>
      rw [offsetCalls, hcall, Option.none_or]
      exact ih (i + 1) (isWordChar c)
    | some call =>
      obtain ⟨rfl, spelled⟩ := callFrom?_eq_some_iff.1 hcall
      obtain ⟨k, hspelled⟩ := offsetCalls_spelled i spelled
      exact .inr ⟨call, i, k, rfl, hspelled⟩

theorem calls_of_none {line : List Char} (h : nextCall? false line = none) : calls line = [] := by
  rw [calls]
  split
  · rfl
  · rename_i call hcall
    rw [h] at hcall
    cases hcall

theorem calls_of_some {line : List Char} {call : Call} (h : nextCall? false line = some call) :
    calls line = call :: calls call.2 := by
  rw [calls]
  split
  · rename_i hnone
    rw [h] at hnone
    cases hnone
  · rename_i found hfound
    rw [h] at hfound
    cases hfound
    rfl

/-- The search, which skips what it has read, finds the calls at all offsets. -/
theorem map_snd_offsetCalls (i : Nat) (line : List Char) : (offsetCalls i false line).map Prod.snd = calls line := by
  induction hlength : line.length using Nat.strongRecOn generalizing i line with
  | ind n ih =>
    rcases offsetCalls_nextCall? i false line with ⟨hnone, hnil⟩ | ⟨⟨kind, rest⟩, j, k, hsome, hcons⟩
    · rw [hnil, calls_of_none hnone, List.map_nil]
    · have hshorter : rest.length < n := hlength ▸ length_nextCall? hsome
      rw [hcons, calls_of_some hsome, List.map_cons, ih rest.length hshorter k rest rfl]

/-! ### Offsets -/

theorem le_of_mem_offsetCalls {i j : Nat} {afterWord : Bool} {cs : List Char} {call : Call}
    (h : (j, call) ∈ offsetCalls i afterWord cs) : i ≤ j := by
  induction cs generalizing i afterWord with
  | nil => cases h
  | cons c rest ih =>
    rcases mem_offsetCalls_cons.1 h with ⟨rfl, -⟩ | hlater
    · exact Nat.le_refl _
    · exact Nat.le_of_succ_le (ih hlater)

/-- They come up from left to right. -/
theorem pairwise_offsetCalls (i : Nat) (afterWord : Bool) (cs : List Char) :
    (offsetCalls i afterWord cs).Pairwise (fun a b => a.1 < b.1) := by
  induction cs generalizing i afterWord with
  | nil => exact .nil
  | cons c rest ih =>
    rw [offsetCalls]
    cases callFrom? afterWord (c :: rest) with
    | none => exact ih (i + 1) (isWordChar c)
    | some call => exact .cons (fun later hlater => le_of_mem_offsetCalls hlater) (ih (i + 1) (isWordChar c))

theorem mem_offsetCalls_after {before cs : List Char} {afterWord : Bool}
    (boundary : afterWord = before.getLast?.any isWordChar) {i : Nat} {kind : CommandKind} {rest : List Char} :
    (i, kind, rest) ∈ offsetCalls before.length afterWord cs ↔
      before.length ≤ i ∧ StartsAt (before ++ cs) i kind rest := by
  induction cs generalizing before afterWord with
  | nil =>
    refine ⟨nofun, fun ⟨hle, starts⟩ => ?_⟩
    obtain ⟨name, blanks, -, -, hcs⟩ := starts.spelled
    rw [List.drop_eq_nil_of_le (by simpa using hle)] at hcs
    simp at hcs
  | cons c cs ih =>
    have hnext : isWordChar c = (before ++ [c]).getLast?.any isWordChar := by simp
    have hlater := ih hnext
    rw [List.length_append, List.length_singleton, List.append_assoc, List.singleton_append] at hlater
    have hhere : callFrom? afterWord (c :: cs) = some (kind, rest) ↔
        StartsAt (before ++ c :: cs) before.length kind rest := by
      rw [callFrom?_eq_some_iff, startsAt_iff, List.take_left, List.drop_left, boundary, Option.any_eq_false]
      exact Iff.rfl
    rw [mem_offsetCalls_cons, hhere, hlater]
    constructor
    · rintro (⟨rfl, starts⟩ | ⟨hle, starts⟩)
      · exact ⟨Nat.le_refl _, starts⟩
      · exact ⟨Nat.le_of_succ_le hle, starts⟩
    · rintro ⟨hle, starts⟩
      rcases Nat.eq_or_lt_of_le hle with rfl | hlt
      · exact .inl ⟨rfl, starts⟩
      · exact .inr ⟨hlt, starts⟩

theorem mem_offsetCalls {line : List Char} {i : Nat} {kind : CommandKind} {rest : List Char} :
    (i, kind, rest) ∈ offsetCalls 0 false line ↔ StartsAt line i kind rest := by
  have hmem := @mem_offsetCalls_after [] line false rfl i kind rest
  simpa using hmem

end ScriptedRobot.Script
