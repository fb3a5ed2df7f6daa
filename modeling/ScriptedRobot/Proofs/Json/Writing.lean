import Mathlib
import ScriptedRobot.Json.Limits
import ScriptedRobot.Proofs.Json.Floats

/-!
# The tokens of a text that is written

A value is written as tokens one after the other (`text_eq`), and the text is cut into just these tokens
again (`tokens_spelt`).
-/

namespace ScriptedRobot.Json

open Text

/-! ## Tokens as they are written -/

namespace Token

/-- How a token is written. -/
def spelling : Token → List Char
  | openArray => ['[']
  | closeArray => [']']
  | openObject => ['\x7b']
  | closeObject => ['\x7d']
  | comma => [',', ' ']
  | colon => [':', ' ']
  | str s => stringText s
  | number literal => literal.text
  | word value => value.text
  | invalid => []

/-- The token is one that values are written with. -/
def IsProper : Token → Prop
  | number literal => literal.IsProper ∧ literal.whole.length ≤ Numeral.digitLimit
  | word value => ∃ spelt, (spelt, value) ∈ words
  | invalid => False
  | _ => True

/-- Nothing that follows the token is taken for a part of it. -/
def Ends (rest : List Char) : Token → Prop
  | number _ => EndsNumber rest
  | _ => True

/-- The token may come after a number. -/
def isDelimiter : Token → Bool
  | comma | closeArray | closeObject => true
  | _ => false

/-- The two tokens may come one after the other. -/
def Joins : Token → Token → Prop
  | number _, next => next.isDelimiter = true
  | _, _ => True

theorem ends_of_joins {t next : Token} (h : t.Joins next) (rest : List Char) : t.Ends (next.spelling ++ rest) := by
  cases t with
  | number literal =>
    cases next with
    | comma => exact endsNumber_cons (by decide) (by decide) (by decide) _
    | closeArray => exact endsNumber_cons (by decide) (by decide) (by decide) _
    | closeObject => exact endsNumber_cons (by decide) (by decide) (by decide) _
    | _ => cases h
  | _ => trivial

end Token

/-! ## Reading one token -/

theorem tokensWithin_space (fuel : Nat) (rest : List Char) : tokensWithin fuel (' ' :: rest) = tokensWithin fuel rest := by
  cases fuel with
  | zero => rfl
  | succ fuel =>
    have hskip : (' ' :: rest).dropWhile isSpace = rest.dropWhile isSpace := List.dropWhile_cons_of_pos rfl
    rw [tokensWithin, tokensWithin, hskip]

theorem tokensWithin_of_tokenAt? {c : Char} {cs rest : List Char} {t : Token} (solid : isSpace c = false)
    (h : tokenAt? c cs = some (t, rest)) (fuel : Nat) :
    tokensWithin (fuel + 1) (c :: cs) = t :: tokensWithin fuel rest := by
  have hkeep : (c :: cs).dropWhile isSpace = c :: cs := List.dropWhile_cons_of_neg (by rw [solid]; decide)
  simp only [tokensWithin, hkeep, h]

theorem tokensWithin_of_none {c : Char} {cs : List Char} (solid : isSpace c = false)
    (h : tokenAt? c cs = none) (fuel : Nat) : tokensWithin (fuel + 1) (c :: cs) = [.invalid] := by
  have hkeep : (c :: cs).dropWhile isSpace = c :: cs := List.dropWhile_cons_of_neg (by rw [solid]; decide)
  simp only [tokensWithin, hkeep, h]

theorem tokenAt?_string (s : String) (rest : List Char) :
    tokenAt? '"' (s.toList.flatMap escapedChar ++ '"' :: rest) = some (.str s, rest) := by
  have hbody := stringBody?_escaped s.toList rest
  simp only [tokenAt?, hbody, Option.map_some, String.ofList_toList]

/-- A character that is a token by itself, or starts a string. -/
def isMark (c : Char) : Bool := ['[', ']', '\x7b', '\x7d', ',', ':', '"'].contains c

theorem tokenAt?_of_not_mark {c : Char} (h : isMark c = false) (cs : List Char) :
    tokenAt? c cs = match word? (c :: cs) with
      | some (value, rest) => some (.word value, rest)
      | none => (literal? (c :: cs)).map fun (literal, rest) => (.number literal, rest) := by
  simp only [isMark, List.contains_eq_mem, List.mem_cons, List.not_mem_nil, or_false, decide_eq_false_iff_not, not_or] at h
  obtain ⟨h1, h2, h3, h4, h5, h6, h7⟩ := h
  unfold tokenAt?
  split <;> first | contradiction | rfl

theorem word?_text {value : Json} {spelt : String} (h : (spelt, value) ∈ words) (rest : List Char) :
    word? (value.text ++ rest) = some (value, rest) := by
  simp only [words, List.mem_cons, List.not_mem_nil, or_false, Prod.mk.injEq] at h
  rcases h with ⟨-, rfl⟩ | ⟨-, rfl⟩ | ⟨-, rfl⟩ | ⟨-, rfl⟩ | ⟨-, rfl⟩ | ⟨-, rfl⟩
  all_goals
    simp [word?, words, text, Binary64.text, Json.spelling]
    rfl

theorem ne_of_isDigit {c d : Char} (h : c.isDigit = true) (hd : d.isDigit = false := by decide) : c ≠ d := by
  rintro rfl
  rw [h] at hd
  cases hd

/-- A number starts with a digit, or with a minus sign and a digit. -/
theorem Literal.text_head {l : Literal} (h : l.IsProper) (rest : List Char) : ∃ c cs, l.text ++ rest = c :: cs ∧
    (c.isDigit = true ∨ c = '-' ∧ ∃ d ds, cs = d :: ds ∧ d.isDigit = true) := by
  obtain ⟨d, ds, hcons⟩ := List.exists_cons_of_ne_nil h.whole.nonempty
  have hdigit : d.isDigit = true := h.whole.digits d (by rw [hcons]; exact List.mem_cons_self)
  unfold text signText
  rw [hcons]
  cases l.negative with
  | true => exact ⟨'-', _, rfl, .inr ⟨rfl, d, _, rfl, hdigit⟩⟩
  | false => exact ⟨d, _, rfl, .inl hdigit⟩

theorem word?_of_number {c : Char} {cs : List Char}
    (h : c.isDigit = true ∨ c = '-' ∧ ∃ d ds, cs = d :: ds ∧ d.isDigit = true) : word? (c :: cs) = none := by
  rcases h with h | ⟨rfl, d, ds, rfl, h⟩
  · have hn : 'n' ≠ c := (ne_of_isDigit h).symm
    have ht : 't' ≠ c := (ne_of_isDigit h).symm
    have hf : 'f' ≠ c := (ne_of_isDigit h).symm
    have hN : 'N' ≠ c := (ne_of_isDigit h).symm
    have hI : 'I' ≠ c := (ne_of_isDigit h).symm
    have hminus : '-' ≠ c := (ne_of_isDigit h).symm
    simp [word?, words, hn, ht, hf, hN, hI, hminus]
  · have hI : 'I' ≠ d := (ne_of_isDigit h).symm
    simp [word?, words, hI]

theorem solid_of_number {c : Char} {cs : List Char}
    (h : c.isDigit = true ∨ c = '-' ∧ ∃ d ds, cs = d :: ds ∧ d.isDigit = true) :
    isSpace c = false ∧ isMark c = false := by
  rcases h with h | ⟨rfl, -⟩
  · have hrange : 48 ≤ c.toNat ∧ c.toNat ≤ 57 := Char.isDigit_iff_toNat.1 h
    have hall : ∀ n : Nat, 48 ≤ n ∧ n ≤ 57 → isSpace (Char.ofNat n) = false ∧ isMark (Char.ofNat n) = false := by
      rintro n ⟨hlow, hhigh⟩
      interval_cases n <;> decide
    have hc := hall c.toNat hrange
    rwa [Char.ofNat_toNat] at hc
  · decide

theorem tokensWithin_number {l : Literal} (h : l.IsProper) {rest : List Char} (hrest : EndsNumber rest) (fuel : Nat) :
    tokensWithin (fuel + 1) (l.text ++ rest) = .number l :: tokensWithin fuel rest := by
  have hliteral := literal?_text h hrest
  obtain ⟨c, cs, hcons, hhead⟩ := Literal.text_head h rest
  obtain ⟨hsolid, hmark⟩ := solid_of_number hhead
  rw [hcons] at hliteral ⊢
  refine tokensWithin_of_tokenAt? hsolid ?_ fuel
  rw [tokenAt?_of_not_mark hmark, word?_of_number hhead, hliteral]
  rfl

theorem tokensWithin_word {value : Json} {spelt : String} (h : (spelt, value) ∈ words) (rest : List Char) (fuel : Nat) :
    tokensWithin (fuel + 1) (value.text ++ rest) = .word value :: tokensWithin fuel rest := by
  have hword := word?_text h rest
  obtain ⟨c, cs, hcons, hsolid, hmark⟩ : ∃ c cs, value.text ++ rest = c :: cs ∧ isSpace c = false ∧ isMark c = false := by
    simp only [words, List.mem_cons, List.not_mem_nil, or_false, Prod.mk.injEq] at h
    rcases h with ⟨-, rfl⟩ | ⟨-, rfl⟩ | ⟨-, rfl⟩ | ⟨-, rfl⟩ | ⟨-, rfl⟩ | ⟨-, rfl⟩
    all_goals exact ⟨_, _, rfl, rfl, rfl⟩
  rw [hcons] at hword ⊢
  refine tokensWithin_of_tokenAt? hsolid ?_ fuel
  rw [tokenAt?_of_not_mark hmark, hword]

/-- A token that is written is read back. -/
theorem tokensWithin_spelling {t : Token} (h : t.IsProper) {rest : List Char} (hrest : t.Ends rest) (fuel : Nat) :
    tokensWithin (fuel + 1) (t.spelling ++ rest) = t :: tokensWithin fuel rest := by
  cases t with
  | openArray => exact tokensWithin_of_tokenAt? rfl rfl fuel
  | closeArray => exact tokensWithin_of_tokenAt? rfl rfl fuel
  | openObject => exact tokensWithin_of_tokenAt? rfl rfl fuel
  | closeObject => exact tokensWithin_of_tokenAt? rfl rfl fuel
  | comma =>
    have hfirst : tokenAt? ',' (' ' :: rest) = some (.comma, ' ' :: rest) := rfl
    rw [← tokensWithin_space fuel rest]
    exact tokensWithin_of_tokenAt? rfl hfirst fuel
  | colon =>
    have hfirst : tokenAt? ':' (' ' :: rest) = some (.colon, ' ' :: rest) := rfl
    rw [← tokensWithin_space fuel rest]
    exact tokensWithin_of_tokenAt? rfl hfirst fuel
  | str s =>
    have hspelling : (Token.str s).spelling ++ rest = '"' :: (s.toList.flatMap escapedChar ++ '"' :: rest) := by
      simp [Token.spelling, stringText]
    rw [hspelling]
    exact tokensWithin_of_tokenAt? rfl (tokenAt?_string s rest) fuel
  | number literal => exact tokensWithin_number h.1 hrest fuel
  | word value =>
    obtain ⟨spelt, hspelt⟩ := h
    exact tokensWithin_word hspelt rest fuel
  | invalid => exact absurd h id

/-! ## Reading all tokens -/

theorem tokensWithin_spelt {ts : List Token} (h : ∀ t ∈ ts, t.IsProper) (joins : ts.IsChain Token.Joins)
    {rest : List Char} (hrest : ∀ t ∈ ts.getLast?, t.Ends rest) (fuel : Nat) :
    tokensWithin (fuel + ts.length) (ts.flatMap Token.spelling ++ rest) = ts ++ tokensWithin fuel rest := by
  induction ts with
  | nil => rfl
  | cons t ts ih =>
    obtain ⟨ht, hts⟩ := List.forall_mem_cons.1 h
    have hends : t.Ends (ts.flatMap Token.spelling ++ rest) := by
      cases ts with
      | nil => exact hrest t rfl
      | cons next ts =>
        rw [List.flatMap_cons, List.append_assoc]
        exact Token.ends_of_joins (List.isChain_cons_cons.1 joins).1 _
    have hlater := ih hts joins.tail (by
      intro last hlast
      cases ts with
      | nil => cases hlast
      | cons next ts => exact hrest last (by rwa [List.getLast?_cons_cons]))
    rw [List.flatMap_cons, List.append_assoc, List.length_cons, ← Nat.add_assoc, tokensWithin_spelling ht hends, hlater]
    rfl

theorem Token.spelling_length {t : Token} (h : t.IsProper) : 0 < t.spelling.length := by
  cases t with
  | str s => simp [spelling, stringText]
  | number literal =>
    obtain ⟨c, cs, hcons, -⟩ := Literal.text_head h.1 []
    rw [List.append_nil] at hcons
    rw [spelling, hcons, List.length_cons]
    exact Nat.succ_pos _
  | word value =>
    obtain ⟨spelt, hspelt⟩ := h
    simp only [words, List.mem_cons, List.not_mem_nil, or_false, Prod.mk.injEq] at hspelt
    rcases hspelt with ⟨-, rfl⟩ | ⟨-, rfl⟩ | ⟨-, rfl⟩ | ⟨-, rfl⟩ | ⟨-, rfl⟩ | ⟨-, rfl⟩
    all_goals exact Nat.succ_pos _
  | invalid => exact absurd h id
  | _ => exact Nat.succ_pos _

theorem length_le_spelling {ts : List Token} (h : ∀ t ∈ ts, t.IsProper) :
    ts.length ≤ (ts.flatMap Token.spelling).length := by
  induction ts with
  | nil => exact Nat.le_refl 0
  | cons t ts ih =>
    obtain ⟨ht, hts⟩ := List.forall_mem_cons.1 h
    have hfirst := Token.spelling_length ht
    have hlater := ih hts
    rw [List.flatMap_cons, List.length_cons, List.length_append]
    omega

/-- A text that starts with written tokens is cut into these and into what the rest is cut into. -/
theorem tokens_spelt {ts : List Token} (h : ∀ t ∈ ts, t.IsProper) (joins : ts.IsChain Token.Joins)
    {rest : List Char} (hrest : ∀ t ∈ ts.getLast?, t.Ends rest) :
    ∃ fuel, rest.length ≤ fuel ∧ tokens (ts.flatMap Token.spelling ++ rest) = ts ++ tokensWithin (fuel + 1) rest := by
  have hlength := length_le_spelling h
  refine ⟨(ts.flatMap Token.spelling ++ rest).length - ts.length, ?_, ?_⟩
  · rw [List.length_append]
    omega
  · rw [← tokensWithin_spelt h joins hrest, tokens]
    congr 1
    rw [List.length_append]
    omega

/-! ## Values as tokens -/

mutual

/-- The tokens that a value is written with. -/
def written : Json → List Token
  | null => [.word null]
  | bool b => [.word (bool b)]
  | int n => [.number (.ofInt n)]
  | float x => match x with
    | .finite negative mantissa exponent => [.number (.ofFinite negative mantissa exponent)]
    | x => [.word (float x)]
  | str s => [.str s]
  | arr [] => [.openArray, .closeArray]
  | arr (value :: rest) => .openArray :: written value ++ elementsWritten rest
  | obj [] => [.openObject, .closeObject]
  | obj ((key, value) :: rest) => .openObject :: .str key :: .colon :: written value ++ fieldsWritten rest

/-- The tokens of the elements after the first, and the closing bracket. -/
def elementsWritten : List Json → List Token
  | [] => [.closeArray]
  | value :: rest => .comma :: written value ++ elementsWritten rest

/-- The tokens of the fields after the first, and the closing brace. -/
def fieldsWritten : List (String × Json) → List Token
  | [] => [.closeObject]
  | (key, value) :: rest => .comma :: .str key :: .colon :: written value ++ fieldsWritten rest

end

/-- The text is that of the tokens, each of which is as it should be where it stands. -/
structure Spells (ts : List Token) (cs : List Char) : Prop where
  text : cs = ts.flatMap Token.spelling
  proper : ∀ t ∈ ts, t.IsProper
  joins : ts.IsChain Token.Joins

namespace Spells

variable {ts us : List Token} {cs ds : List Char} {t : Token}

theorem single (h : t.IsProper) : Spells [t] t.spelling := by
  refine ⟨?_, ?_, List.isChain_singleton t⟩
  · rw [List.flatMap_singleton]
  · intro u hu
    exact List.mem_singleton.1 hu ▸ h

theorem cons (h : Spells ts cs) (ht : t.IsProper) (free : ∀ next, t.Joins next) : Spells (t :: ts) (t.spelling ++ cs) := by
  refine ⟨?_, List.forall_mem_cons.2 ⟨ht, h.proper⟩, List.isChain_cons.2 ⟨fun next _ => free next, h.joins⟩⟩
  rw [List.flatMap_cons, ← h.text]

theorem append (h : Spells ts cs) (k : Spells us ds) (ends : ∀ u ∈ us.head?, u.isDelimiter = true) :
    Spells (ts ++ us) (cs ++ ds) := by
  refine ⟨?_, List.forall_mem_append.2 ⟨h.proper, k.proper⟩, ?_⟩
  · rw [List.flatMap_append, ← h.text, ← k.text]
  · refine List.isChain_append.2 ⟨h.joins, k.joins, ?_⟩
    intro last _ next hnext
    cases last with
    | number literal => exact ends next hnext
    | _ => trivial

end Spells

theorem elementsWritten_head (elements : List Json) : ∀ t ∈ (elementsWritten elements).head?, t.isDelimiter = true := by
  cases elements <;> simp [elementsWritten, Token.isDelimiter]

theorem fieldsWritten_head (fields : List (String × Json)) : ∀ t ∈ (fieldsWritten fields).head?, t.isDelimiter = true := by
  cases fields <;> simp [fieldsWritten, Token.isDelimiter]

mutual

/-- What is written for a value is spelt by its tokens. -/
theorem written_spells : ∀ value : Json, value.isWritable = true → Spells (written value) (text value)
  | null => fun _ => .single ⟨"null", by simp [words]⟩
  | bool b => fun _ => by
    cases b with
    | true => exact .single ⟨"true", by simp [words]⟩
    | false => exact .single ⟨"false", by simp [words]⟩
  | int n => fun writable => by
    rw [isWritable] at writable
    rw [written, text, ← Literal.ofInt_text]
    exact .single ⟨Literal.ofInt_isProper n, Literal.ofInt_short writable⟩
  | float x => fun _ => by
    cases x with
    | finite negative mantissa exponent =>
      rw [written, text, ← ofFinite_text]
      exact .single ⟨ofFinite_isProper negative mantissa exponent, ofFinite_short negative mantissa exponent⟩
    | nan => exact .single ⟨"NaN", by simp [words]⟩
    | infinite negative =>
      cases negative with
      | true => exact .single ⟨"-Infinity", by simp [words]⟩
      | false => exact .single ⟨"Infinity", by simp [words]⟩
  | str s => fun _ => by
    rw [written, text]
    exact .single trivial
  | arr [] => fun _ => .cons (.single trivial) trivial fun _ => trivial
  | arr (value :: rest) => fun writable => by
    rw [isWritable, areWritable, Bool.and_eq_true] at writable
    have hall := (written_spells value writable.1).append (elementsWritten_spells rest writable.2)
      (elementsWritten_head rest)
    rw [written, text]
    exact hall.cons trivial fun _ => trivial
  | obj [] => fun _ => .cons (.single trivial) trivial fun _ => trivial
  | obj ((key, value) :: rest) => fun writable => by
    rw [isWritable, fieldsAreWritable, Bool.and_eq_true] at writable
    have hall := (written_spells value writable.1).append (fieldsWritten_spells rest writable.2) (fieldsWritten_head rest)
    have hnamed := (hall.cons (t := .colon) trivial fun _ => trivial).cons (t := .str key) trivial fun _ => trivial
    rw [written, text, List.append_assoc]
    exact hnamed.cons (t := .openObject) trivial fun _ => trivial

theorem elementsWritten_spells : ∀ elements : List Json, areWritable elements = true →
    Spells (elementsWritten elements) (elementsText elements)
  | [] => fun _ => .single trivial
  | value :: rest => fun writable => by
    rw [areWritable, Bool.and_eq_true] at writable
    have hall := (written_spells value writable.1).append (elementsWritten_spells rest writable.2)
      (elementsWritten_head rest)
    rw [elementsWritten, elementsText]
    exact hall.cons (t := .comma) trivial fun _ => trivial

theorem fieldsWritten_spells : ∀ fields : List (String × Json), fieldsAreWritable fields = true →
    Spells (fieldsWritten fields) (fieldsText fields)
  | [] => fun _ => .single trivial
  | (key, value) :: rest => fun writable => by
    rw [fieldsAreWritable, Bool.and_eq_true] at writable
    have hall := (written_spells value writable.1).append (fieldsWritten_spells rest writable.2) (fieldsWritten_head rest)
    have hnamed := (hall.cons (t := .colon) trivial fun _ => trivial).cons (t := .str key) trivial fun _ => trivial
    rw [fieldsWritten, fieldsText, List.append_assoc]
    exact hnamed.cons (t := .comma) trivial fun _ => trivial

end

/-- The tokens of a text are those that it is written with. -/
theorem Spells.tokens_eq {ts : List Token} {cs : List Char} (h : Spells ts cs) : tokens cs = ts := by
  have hends : ∀ t ∈ ts.getLast?, t.Ends [] := by
    intro t _
    cases t with
    | number literal => exact endsNumber_nil
    | _ => trivial
  obtain ⟨fuel, -, htokens⟩ := tokens_spelt h.proper h.joins hends
  rw [List.append_nil, ← h.text] at htokens
  rw [htokens]
  exact List.append_nil ts

/-! ## What is visible -/

theorem isVisible_of_isDigit {c : Char} (h : c.isDigit = true) : IsVisible c := by
  have hrange : 48 ≤ c.toNat ∧ c.toNat ≤ 57 := Char.isDigit_iff_toNat.1 h
  exact ⟨by omega, by omega⟩

theorem Literal.isVisible_text {l : Literal} (h : l.IsProper) : ∀ c ∈ l.text, IsVisible c := by
  unfold text signText fractionText exponentText
  simp only [List.forall_mem_append]
  refine ⟨?_, fun c hc => isVisible_of_isDigit (h.whole.digits c hc), ?_, ?_⟩
  · intro c hc
    split at hc
    · rw [List.mem_singleton.1 hc]
      decide
    · cases hc
  · intro c hc
    split at hc
    · cases hc
    · rcases List.mem_cons.1 hc with rfl | hc
      · decide
      · exact isVisible_of_isDigit (h.fraction c hc)
  · intro c hc
    split at hc
    · cases hc
    · rename_i negative ds hexponent
      rcases List.mem_cons.1 hc with rfl | hc
      · decide
      rcases List.mem_cons.1 hc with rfl | hc
      · cases negative <;> decide
      · exact isVisible_of_isDigit ((h.exponent negative ds hexponent).2 c hc)

theorem isVisible_of_all {cs : List Char} (h : (cs.all fun c => decide (IsVisible c)) = true) : ∀ c ∈ cs, IsVisible c :=
  fun c hc => of_decide_eq_true (List.all_eq_true.1 h c hc)

theorem Token.isVisible_spelling {t : Token} (h : t.IsProper) : ∀ c ∈ t.spelling, IsVisible c := by
  cases t with
  | str s => exact fun c hc => isVisible_of_mem_stringText hc
  | number literal => exact Literal.isVisible_text h.1
  | word value =>
    obtain ⟨spelt, hspelt⟩ := h
    have hall : ∀ word ∈ words, (word.2.text.all fun c => decide (IsVisible c)) = true := by decide
    exact isVisible_of_all (hall _ hspelt)
  | _ => exact isVisible_of_all rfl

/-- Everything in the text of a value is visible. -/
theorem Spells.isVisible {ts : List Token} {cs : List Char} (h : Spells ts cs) : ∀ c ∈ cs, IsVisible c := by
  intro c hc
  rw [h.text] at hc
  obtain ⟨t, ht, hc⟩ := List.mem_flatMap.1 hc
  exact Token.isVisible_spelling (h.proper t ht) c hc

end ScriptedRobot.Json
