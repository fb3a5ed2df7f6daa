import Mathlib
import ScriptedRobot.Proofs.Json.Reading

/-!
# Texts cut off

A text of an array or an object that is cut off before its end is no JSON (`read_cut`), wherever it is cut: it
breaks off between two tokens with something still open, inside a string or a word, or inside a number, whose
front may be a number itself, but which nothing can follow.
-/

namespace ScriptedRobot.Json

open Text Machine

/-! ## What is left of a token -/

/-- What the tokens of a cut text may end with, in place of the token that was cut. -/
inductive Remains : Token → List Token → Prop
  /-- Nothing is left of it. -/
  | nothing (t : Token) : Remains t []
  /-- Only a blank behind it is missing. -/
  | whole (t : Token) (inner : t = .comma ∨ t = .colon) : Remains t [t]
  /-- What is left is no token. -/
  | broken (t : Token) : Remains t [.invalid]
  /-- What is left is a shorter number, perhaps with something that is no token. -/
  | shorter (l l' : Literal) (ts : List Token) (proper : l'.IsProper) (whole : l'.whole <+: l.whole)
      (loose : ts = [] ∨ ts = [.invalid]) : Remains (.number l) (.number l' :: ts)

variable {part : List Char} {fuel : Nat}

theorem string_remains (s : String) (h : part <+: stringText s) (short : part ≠ stringText s) :
    Remains (.str s) (tokensWithin (fuel + 1) part) := by
  unfold stringText at h short
  rw [List.cons_append] at h short
  rcases List.prefix_cons_iff.1 h with rfl | ⟨inside, rfl, hinside⟩
  · exact .nothing _
  rcases List.prefix_concat_iff.1 hinside with rfl | hinside
  · exact absurd rfl short
  · have hnone : tokenAt? '"' inside = none := by
      simp only [tokenAt?, stringBody?_cut hinside, Option.map_none]
    rw [tokensWithin_of_none rfl hnone]
    exact .broken _

theorem tokensWithin_loose {rest : List Char} (h : rest ∈ looseEnds) :
    tokensWithin (fuel + 1) rest = [] ∨ tokensWithin (fuel + 1) rest = [.invalid] := by
  simp only [looseEnds, List.mem_cons, List.not_mem_nil, or_false] at h
  rcases h with rfl | rfl | rfl | rfl | rfl
  · exact .inl rfl
  all_goals exact .inr rfl

theorem number_remains {l : Literal} (proper : l.IsProper) (h : part <+: l.text) (short : part ≠ l.text) :
    Remains (.number l) (tokensWithin (fuel + 2) part) := by
  rcases Literal.cut proper h short with rfl | rfl | ⟨shorter, rest, hshorter, hwhole, hrest, rfl⟩
  · exact .nothing _
  · exact .broken _
  · rw [tokensWithin_number hshorter (endsNumber_of_loose hrest)]
    exact .shorter l shorter _ hshorter hwhole (tokensWithin_loose hrest)

/-- Does the text start with something that is no token? -/
def startsBroken : List Char → Bool
  | [] => false
  | c :: cs => !isSpace c && (tokenAt? c cs).isNone

theorem word_remains {value : Json} {spelt : String} (hword : (spelt, value) ∈ words) (h : part <+: value.text)
    (short : part ≠ value.text) : Remains (.word value) (tokensWithin (fuel + 1) part) := by
  have hall : ∀ word ∈ words, ∀ p ∈ word.2.text.inits, p = [] ∨ p = word.2.text ∨ startsBroken p = true := by decide
  rcases hall _ hword part ((List.mem_inits _ _).2 h) with rfl | hwhole | hbroken
  · exact .nothing _
  · exact absurd hwhole short
  · cases part with
    | nil => exact .nothing _
    | cons c cs =>
      simp only [startsBroken, Bool.and_eq_true, Bool.not_eq_true', Option.isNone_iff_eq_none] at hbroken
      rw [tokensWithin_of_none hbroken.1 hbroken.2]
      exact .broken _

theorem cut_single {c : Char} (h : part <+: [c]) (short : part ≠ [c]) : part = [] := by
  rcases List.prefix_cons_iff.1 h with rfl | ⟨_, rfl, hnil⟩
  · rfl
  · rw [List.prefix_nil.1 hnil] at short
    exact absurd rfl short

theorem cut_spaced {c : Char} (h : part <+: [c, ' ']) (short : part ≠ [c, ' ']) : part = [] ∨ part = [c] := by
  have hsplit : part <+: [c] ++ [' '] := h
  rcases List.prefix_concat_iff.1 hsplit with rfl | hpart
  · exact absurd rfl short
  · by_cases hwhole : part = [c]
    · exact .inr hwhole
    · exact .inl (cut_single hpart hwhole)

/-- Of a token that is cut off, nothing is left that could go on as another token, but for numbers. -/
theorem token_remains {t : Token} (proper : t.IsProper) (h : part <+: t.spelling) (short : part ≠ t.spelling)
    (enough : part.length ≤ fuel) : Remains t (tokensWithin (fuel + 1) part) := by
  cases t with
  | str s => exact string_remains s h short
  | number literal =>
    cases fuel with
    | zero =>
      rw [List.length_eq_zero_iff.1 (Nat.le_zero.1 enough)]
      exact .nothing _
    | succ fuel => exact number_remains proper.1 h short
  | word value =>
    obtain ⟨spelt, hspelt⟩ := proper
    exact word_remains hspelt h short
  | invalid => exact absurd proper id
  | comma =>
    rcases cut_spaced h short with rfl | rfl
    · exact .nothing _
    · obtain ⟨fuel, rfl⟩ := Nat.exists_eq_add_of_le' enough
      exact .whole _ (.inl rfl)
  | colon =>
    rcases cut_spaced h short with rfl | rfl
    · exact .nothing _
    · obtain ⟨fuel, rfl⟩ := Nat.exists_eq_add_of_le' enough
      exact .whole _ (.inr rfl)
  | openArray => exact cut_single h short ▸ .nothing _
  | closeArray => exact cut_single h short ▸ .nothing _
  | openObject => exact cut_single h short ▸ .nothing _
  | closeObject => exact cut_single h short ▸ .nothing _

/-! ## What is left of a text -/

theorem ends_of_delimiter {t : Token} (h : t.isDelimiter = true) (hpart : part <+: t.spelling) : EndsNumber part := by
  cases part with
  | nil => exact endsNumber_nil
  | cons c cs =>
    obtain ⟨rest, hrest⟩ := hpart
    cases t with
    | comma =>
      rw [(List.cons.inj hrest).1]
      exact endsNumber_cons (by decide) (by decide) (by decide) cs
    | closeArray =>
      rw [(List.cons.inj hrest).1]
      exact endsNumber_cons (by decide) (by decide) (by decide) cs
    | closeObject =>
      rw [(List.cons.inj hrest).1]
      exact endsNumber_cons (by decide) (by decide) (by decide) cs
    | _ => cases h

/-- A cut goes through one of the tokens, or lies in front of it. -/
theorem flatMap_cut {ts : List Token} (h : part <+: ts.flatMap Token.spelling) (short : part ≠ ts.flatMap Token.spelling) :
    ∃ before t after piece, ts = before ++ t :: after ∧ part = before.flatMap Token.spelling ++ piece ∧
      piece <+: t.spelling ∧ piece ≠ t.spelling := by
  induction ts generalizing part with
  | nil => exact absurd (List.prefix_nil.1 h) short
  | cons t ts ih =>
    rw [List.flatMap_cons] at h short
    rcases prefix_append_cases h with ⟨hpiece, hne⟩ | ⟨more, rfl, hmore⟩
    · exact ⟨[], t, ts, part, rfl, rfl, hpiece, hne⟩
    · have hshort : more ≠ ts.flatMap Token.spelling := by
        rintro rfl
        exact short rfl
      obtain ⟨before, u, after, piece, rfl, rfl, hpiece, hne⟩ := ih hmore hshort
      exact ⟨t :: before, u, after, piece, rfl, by rw [List.flatMap_cons, List.append_assoc], hpiece, hne⟩

/-- The tokens of a text that is cut off are those in front of the cut, and what is left of the one that is cut. -/
theorem Spells.cut {ts : List Token} {cs : List Char} (spells : Spells ts cs) (h : part <+: cs) (short : part ≠ cs) :
    ∃ before t after rest, ts = before ++ t :: after ∧ Remains t rest ∧ tokens part = before ++ rest := by
  rw [spells.text] at h short
  obtain ⟨before, t, after, piece, rfl, rfl, hpiece, hne⟩ := flatMap_cut h short
  obtain ⟨hbefore, hproper⟩ := List.forall_mem_append.1 spells.proper
  obtain ⟨hjoins, -, hjoint⟩ := List.isChain_append.1 spells.joins
  have hends : ∀ last ∈ before.getLast?, last.Ends piece := by
    intro last hlast
    cases last with
    | number literal => exact ends_of_delimiter (hjoint _ hlast t rfl) hpiece
    | _ => trivial
  obtain ⟨fuel, henough, htokens⟩ := tokens_spelt hbefore hjoins hends
  exact ⟨before, t, after, _, rfl, token_remains (hproper t List.mem_cons_self) hpiece hne henough, htokens⟩

/-! ## The machine at a cut -/

namespace Machine

variable {m n : Machine} {t : Token} {l l' : Literal} {value : Json}

/-- A machine that goes on has not finished. -/
theorem result_of_step (h : m.step t = .ok n) : m.result = .error .malformed := by
  obtain ⟨stack, phase⟩ := m
  cases stack with
  | cons frame stack => rfl
  | nil =>
    cases phase with
    | after value => cases h
    | _ => rfl

theorem step_invalid (m : Machine) : m.step .invalid = .error .malformed := by
  obtain ⟨stack, phase⟩ := m
  cases phase with
  | after value =>
    cases stack with
    | nil => rfl
    | cons frame stack => cases frame <;> rfl
  | _ => rfl

theorem startValue_number {stack : List Frame} (h : startValue stack (.number l) = .ok n) (hvalue : l'.value = .ok value) :
    (∃ first, n = ⟨stack, .after first⟩) ∧ startValue stack (.number l') = .ok ⟨stack, .after value⟩ := by
  have hstart : ∀ l : Literal, startValue stack (.number l) = l.value.map fun v => ⟨stack, .after v⟩ := fun _ => rfl
  rw [hstart] at h ⊢
  rw [hvalue]
  refine ⟨?_, rfl⟩
  cases hl : l.value with
  | error fault =>
    rw [hl] at h
    cases h
  | ok first =>
    rw [hl] at h
    cases h
    exact ⟨first, rfl⟩

/-- Where one number may stand, another may, too. -/
theorem step_number_of_step (h : m.step (.number l) = .ok n) (hvalue : l'.value = .ok value) :
    ∃ stack first, n = ⟨stack, .after first⟩ ∧ m.step (.number l') = .ok ⟨stack, .after value⟩ := by
  obtain ⟨stack, phase⟩ := m
  cases phase with
  | value =>
    obtain ⟨⟨first, hfirst⟩, hstep⟩ := startValue_number h hvalue
    exact ⟨stack, first, hfirst, hstep⟩
  | firstElement =>
    obtain ⟨⟨first, hfirst⟩, hstep⟩ := startValue_number h hvalue
    exact ⟨.array [] :: stack, first, hfirst, hstep⟩
  | after value =>
    cases stack with
    | nil => cases h
    | cons frame stack => cases frame <;> cases h
  | _ => cases h

theorem Passes.split (ts : List Token) {us : List Token} {o : Machine} (h : Passes (ts ++ us) m o) :
    ∃ n, Passes ts m n ∧ Passes us n o := by
  rw [Passes, List.foldlM_append] at h
  cases hfirst : ts.foldlM step m with
  | error fault =>
    rw [hfirst] at h
    cases h
  | ok n =>
    rw [hfirst] at h
    exact ⟨n, hfirst, h⟩

theorem Passes.uncons {ts : List Token} {o : Machine} (h : Passes (t :: ts) m o) : ∃ n, m.step t = .ok n ∧ Passes ts n o := by
  obtain ⟨n, hfirst, hrest⟩ := Passes.split [t] h
  refine ⟨n, ?_, hrest⟩
  rw [Passes, List.foldlM_cons] at hfirst
  cases hstep : m.step t with
  | error fault =>
    rw [hstep] at hfirst
    cases hfirst
  | ok next =>
    rw [hstep] at hfirst
    exact hfirst

end Machine

theorem read_of_tokens {cs : List Char} {ts : List Token} {m : Machine} (htokens : tokens cs = ts) {us : List Token}
    {before : List Token} (hsplit : ts = before ++ us) (h : Passes before .start m) :
    read cs = us.foldlM step m >>= Machine.result := by
  rw [read, htokens, hsplit, List.foldlM_append, h]
  rfl

/-- The machine that reads a text goes wrong where the text is cut off, unless its last token is all that it
needs. -/
theorem read_of_cut {ts : List Token} {cs part : List Char} {value : Json} (spells : Spells ts cs)
    (passes : Passes ts .start ⟨[], .after value⟩) (closing : ∀ t ∈ ts.getLast?, t = .closeArray ∨ t = .closeObject)
    (h : part <+: cs) (short : part ≠ cs) : read part = .error .malformed := by
  obtain ⟨before, t, after, rest, rfl, remains, htokens⟩ := spells.cut h short
  obtain ⟨m, hbefore, hafter⟩ := Passes.split before passes
  obtain ⟨n, hstep, hlast⟩ := hafter.uncons
  rw [read_of_tokens htokens rfl hbefore]
  -- unless it closes what is open, another token comes after the one that was cut
  have hmore : t = .closeArray ∨ t = .closeObject ∨ ∃ u o, n.step u = .ok o := by
    cases after with
    | nil =>
      rcases closing t (by simp) with hclose | hclose
      · exact .inl hclose
      · exact .inr (.inl hclose)
    | cons u after =>
      obtain ⟨o, hnext, -⟩ := hlast.uncons
      exact .inr (.inr ⟨u, o, hnext⟩)
  cases remains with
  | nothing => exact result_of_step hstep
  | whole _ inner =>
    rcases hmore with rfl | rfl | ⟨u, o, hnext⟩
    · rcases inner with h | h <;> cases h
    · rcases inner with h | h <;> cases h
    · rw [List.foldlM_cons, hstep]
      exact result_of_step hnext
  | broken =>
    rw [List.foldlM_cons, step_invalid]
    rfl
  | shorter l l' rest proper whole loose =>
    have hshort : l.whole.length ≤ Numeral.digitLimit := (spells.proper (.number l) (by simp)).2
    obtain ⟨worth, hworth⟩ := Literal.value_ok proper (whole.length_le.trans hshort)
    obtain ⟨stack, first, rfl, hnumber⟩ := step_number_of_step hstep hworth
    rcases hmore with h | h | ⟨u, o, hnext⟩
    · cases h
    · cases h
    rw [List.foldlM_cons, hnumber]
    rcases loose with rfl | rfl
    · cases stack with
      | nil => cases hnext
      | cons frame stack => rfl
    · show ([Token.invalid].foldlM step _ >>= Machine.result) = _
      rw [List.foldlM_cons, step_invalid]
      rfl

/-! ## Arrays and objects -/

theorem elementsWritten_last (elements : List Json) : (elementsWritten elements).getLast? = some .closeArray := by
  induction elements with
  | nil => rfl
  | cons value rest ih =>
    rw [elementsWritten, List.cons_append, List.getLast?_cons, List.getLast?_append, ih]
    rfl

theorem fieldsWritten_last (fields : List (String × Json)) : (fieldsWritten fields).getLast? = some .closeObject := by
  induction fields with
  | nil => rfl
  | cons field rest ih =>
    obtain ⟨key, value⟩ := field
    have hall : fieldsWritten ((key, value) :: rest) =
      (.comma :: .str key :: .colon :: written value) ++ fieldsWritten rest := by rw [fieldsWritten]
    rw [hall, List.getLast?_append, ih]
    rfl

/-- Is the value an array or an object? -/
def hasBrackets : Json → Bool
  | arr _ | obj _ => true
  | _ => false

theorem written_last {value : Json} (h : value.hasBrackets = true) :
    ∀ t ∈ (written value).getLast?, t = .closeArray ∨ t = .closeObject := by
  intro t ht
  cases value with
  | arr elements =>
    cases elements with
    | nil => exact .inl (Option.some.inj ht).symm
    | cons first rest =>
      rw [written, List.getLast?_append, elementsWritten_last] at ht
      exact .inl (Option.some.inj ht).symm
  | obj fields =>
    cases fields with
    | nil => exact .inr (Option.some.inj ht).symm
    | cons field rest =>
      obtain ⟨key, first⟩ := field
      have hall : written (obj ((key, first) :: rest)) =
        (.openObject :: .str key :: .colon :: written first) ++ fieldsWritten rest := by rw [written]
      rw [hall, List.getLast?_append, fieldsWritten_last] at ht
      exact .inr (Option.some.inj ht).symm
  | _ => cases h

/-- No front part of what is written for an array or an object is JSON. -/
theorem read_cut {value : Json} (proper : value.IsProper) (writable : value.isWritable = true)
    (depth : value.nesting ≤ depthLimit) (brackets : value.hasBrackets = true) (h : part <+: value.text)
    (short : part ≠ value.text) : read part = .error .malformed := by
  have hpass := proper.passable [] writable (by rw [List.length_nil, Nat.zero_add]; exact depth)
  exact read_of_cut (written_spells value writable) hpass (written_last brackets) h short

end ScriptedRobot.Json
