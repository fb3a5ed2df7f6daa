import Mathlib.Data.List.Infix
import ScriptedRobot.Session.Reply

/-!
# Answers that halt a batch

Whether an answer halts the batch is read off its wording. `haltsBatch_iff` says what this comes to: the
answer tells of an obstacle, or it repeats a text of the player's that speaks of one. No other answer can
be taken for one of these: the words that speak of an obstacle all have a b and a k in them, and most
answers lack one of the two.
-/

namespace ScriptedRobot

/-! ## Letters in texts -/

theorem not_mem_append {c : Char} {a b : String} (ha : c ∉ a.toList) (hb : c ∉ b.toList) :
    c ∉ (a ++ b).toList := by
  rw [String.toList_append, List.mem_append, not_or]
  exact ⟨ha, hb⟩

/-- A text that is given as such lacks a letter if its letters do. (To work them out from the text takes
long.) -/
theorem not_mem_ofList {c : Char} {letters : List Char} (h : c ∉ letters) :
    c ∉ (String.ofList letters).toList := by
  rwa [String.toList_ofList]

theorem not_mem_natRepr {c : Char} (hc : c.isDigit = false) (n : Nat) : c ∉ n.repr.toList := by
  intro h
  rw [Nat.repr_eq_ofList_toDigits, String.toList_ofList] at h
  have hdigit : c.isDigit = true := Nat.isDigit_of_mem_toDigits (by decide) (by decide) h
  rw [hc] at hdigit
  cases hdigit

theorem not_mem_intRepr {c : Char} (hc : c.isDigit = false) (hsign : c ≠ '-') (n : Int) :
    c ∉ n.repr.toList := by
  cases n with
  | ofNat n => exact not_mem_natRepr hc n
  | negSucc n =>
    exact not_mem_append (fun h => hsign (List.mem_singleton.1 h)) (not_mem_natRepr hc _)

theorem Position.not_mem_text (p : Position) : 'k' ∉ p.text.toList := by
  have hx : 'k' ∉ p.x.repr.toList := not_mem_intRepr rfl (by decide) p.x
  have hy : 'k' ∉ p.y.repr.toList := not_mem_intRepr rfl (by decide) p.y
  exact not_mem_append (not_mem_append (not_mem_append (not_mem_append
    (not_mem_ofList (by decide)) hx) (not_mem_ofList (by decide))) hy) (not_mem_ofList (by decide))

/-- A word that starts with a letter which a text lacks does not start within that text. -/
theorem infix_append_iff {word before rest : List Char} {c : Char} (hc : word.head? = some c)
    (h : c ∉ before) : word <:+: before ++ rest ↔ word <:+: rest := by
  induction before with
  | nil => rfl
  | cons a before ih =>
    obtain ⟨ha, hbefore⟩ := not_or.1 (mt List.mem_cons.2 h)
    rw [List.cons_append, List.infix_cons_iff, ih hbefore, or_iff_right]
    intro hfront
    obtain ⟨tail, rfl⟩ := List.head?_eq_some_iff.1 hc
    exact ha (List.cons_prefix_cons.1 hfront).1

namespace Reply

/-- Does the answer tell of something in the way? -/
def tellsOfObstacle : Reply → Bool
  | blocked | searchStartBlocked | searchBlocked _ => true
  | _ => false

/-- The text of the player's that the answer repeats. -/
def quoted? : Reply → Option String
  | printed text => some text
  | errorPrinted text => some text
  | panicked message => some message
  | _ => none

/-- The answer neither tells of an obstacle nor repeats a text. -/
def Plain (r : Reply) : Prop := r.tellsOfObstacle = false ∧ r.quoted? = none

theorem speaksOfObstacle_iff {text : String} :
    speaksOfObstacle text = true ↔ ∃ words ∈ obstacleWords, words.toList <:+: text.toList := by
  simp only [speaksOfObstacle, List.any_eq_true, Text.occursIn_iff]

theorem eq_of_mem_obstacleWords {words : String} (h : words ∈ obstacleWords) :
    words = blocked.text ∨ words = "blocked by obstacle" ∨ words = "Search blocked" := by
  simpa only [obstacleWords, List.mem_cons, List.not_mem_nil, or_false] using h

/-- A text speaks of no obstacle if it lacks one of the letters that all the words for one have. -/
theorem speaksOfObstacle_of_lacks {text : String} {c : Char} (hc : c = 'b' ∨ c = 'k')
    (h : c ∉ text.toList) : speaksOfObstacle text = false := by
  rw [← Bool.not_eq_true, speaksOfObstacle_iff]
  rintro ⟨words, hwords, hword⟩
  have hletter : c ∈ words.toList := by
    rcases eq_of_mem_obstacleWords hwords with rfl | rfl | rfl <;> rcases hc with rfl | rfl <;> decide
  exact h (hword.subset hletter)

section Wordings

variable {c : Char} {start middle rest : List Char} {x y text : String}

theorem speaksOfObstacle_fixed (h : 'b' ∉ start ∨ 'k' ∉ start) :
    speaksOfObstacle (String.ofList start) = false := by
  rcases h with hb | hk
  · exact speaksOfObstacle_of_lacks (.inl rfl) (not_mem_ofList hb)
  · exact speaksOfObstacle_of_lacks (.inr rfl) (not_mem_ofList hk)

theorem speaksOfObstacle_around (hc : c = 'b' ∨ c = 'k') (hx : c ∉ x.toList) (hstart : c ∉ start)
    (hrest : c ∉ rest) : speaksOfObstacle (String.ofList start ++ x ++ String.ofList rest) = false := by
  have hfront := not_mem_append (not_mem_ofList hstart) hx
  exact speaksOfObstacle_of_lacks hc (not_mem_append hfront (not_mem_ofList hrest))

theorem speaksOfObstacle_around_two (hc : c = 'b' ∨ c = 'k') (hx : c ∉ x.toList) (hy : c ∉ y.toList)
    (hstart : c ∉ start) (hmiddle : c ∉ middle) (hrest : c ∉ rest) :
    speaksOfObstacle (String.ofList start ++ x ++ String.ofList middle ++ y ++ String.ofList rest) = false := by
  have hfront := not_mem_append (not_mem_append (not_mem_ofList hstart) hx) (not_mem_ofList hmiddle)
  exact speaksOfObstacle_of_lacks hc (not_mem_append (not_mem_append hfront hy) (not_mem_ofList hrest))

/-- What is put in front of a text adds nothing if no word for an obstacle can start there. -/
theorem speaksOfObstacle_append (h : 'U' ∉ start ∧ 'b' ∉ start ∧ 'S' ∉ start) :
    speaksOfObstacle (String.ofList start ++ text) = speaksOfObstacle text := by
  rw [Bool.eq_iff_iff, speaksOfObstacle_iff, speaksOfObstacle_iff]
  refine exists_congr fun words => and_congr_right fun hwords => ?_
  obtain ⟨c, hc, hhead⟩ : ∃ c, c ∉ start ∧ words.toList.head? = some c := by
    rcases eq_of_mem_obstacleWords hwords with rfl | rfl | rfl
    · exact ⟨'U', h.1, by decide⟩
    · exact ⟨'b', h.2.1, by decide⟩
    · exact ⟨'S', h.2.2, by decide⟩
  rw [String.toList_append, infix_append_iff hhead (not_mem_ofList hc)]

end Wordings

theorem haltsBatch_searchBlocked (n : Nat) : (searchBlocked n).haltsBatch = true := by
  have htext : (searchBlocked n).text =
      "Lawnmower search blocked by obstacle! Discovered " ++ n.repr ++ " squares." := rfl
  have hsplit : "Lawnmower search blocked by obstacle! Discovered " =
      "Lawnmower search " ++ "blocked by obstacle" ++ "! Discovered " := by simp
  rw [haltsBatch, speaksOfObstacle_iff, htext, hsplit]
  refine ⟨"blocked by obstacle", List.mem_cons_of_mem _ List.mem_cons_self, ?_⟩
  simp only [String.toList_append, List.append_assoc]
  exact List.infix_append' _ _ _

/-- Such an answer does not halt the batch. -/
theorem Plain.haltsBatch {r : Reply} (h : r.Plain) : r.haltsBatch = false := by
  have hnat : ∀ n : Nat, 'k' ∉ n.repr.toList := not_mem_natRepr rfl
  have hint : ∀ n : Int, 'k' ∉ n.repr.toList := not_mem_intRepr rfl (by decide)
  cases r with
  | blocked => cases h.1
  | searchStartBlocked => cases h.1
  | searchBlocked n => cases h.1
  | printed text => cases h.2
  | errorPrinted text => cases h.2
  | panicked message => cases h.2
  -- answers with a number or a place in them
  | searchIncomplete n => exact speaksOfObstacle_around (.inr rfl) (hnat n) (by decide) (by decide)
  | searchComplete n => exact speaksOfObstacle_around (.inr rfl) (hnat n) (by decide) (by decide)
  | laserEmpty p => exact speaksOfObstacle_around (.inr rfl) p.not_mem_text (by decide) (by decide)
  | laserEnemy p =>
    exact speaksOfObstacle_around_two (.inr rfl) p.not_mem_text (hnat _) (by decide) (by decide) (by decide)
  | laserObstacle p =>
    exact speaksOfObstacle_around_two (.inr rfl) p.not_mem_text (hnat _) (by decide) (by decide) (by decide)
  | skipped n =>
    -- the wording has a k, so it is the b that is missing
    have hn : 'b' ∉ n.repr.toList := not_mem_intRepr rfl (by decide) n
    exact speaksOfObstacle_around (.inl rfl) hn (by decide) (by decide)
  | jumped n => exact speaksOfObstacle_around (.inr rfl) (hint n) (by decide) (by decide)
  | noSuchLevel n count =>
    exact speaksOfObstacle_of_lacks (.inr rfl) (not_mem_append (not_mem_append (not_mem_append
      (not_mem_ofList (by decide)) (hint n)) (not_mem_ofList (by decide))) (hnat count))
  -- with unknown tiles a grab has all the letters
  | grabbed items tiles => cases items <;> cases tiles <;> decide +kernel
  | scanned found => cases found <;> exact speaksOfObstacle_fixed (by decide)
  | autoGrab on => cases on <;> exact speaksOfObstacle_fixed (by decide)
  | doorAlready wide => cases wide <;> exact speaksOfObstacle_fixed (by decide)
  | doorTurned wide => cases wide <;> exact speaksOfObstacle_fixed (by decide)
  | _ => exact speaksOfObstacle_fixed (by decide)

theorem haltsBatch_of_tellsOfObstacle {r : Reply} (h : r.tellsOfObstacle = true) : r.haltsBatch = true := by
  cases r with
  | blocked => decide
  | searchStartBlocked => decide
  | searchBlocked n => exact haltsBatch_searchBlocked n
  | _ => cases h

/-- What is put in front of a text that is repeated makes no difference. -/
theorem haltsBatch_of_quoted {r : Reply} {text : String} (h : r.quoted? = some text) :
    r.haltsBatch = speaksOfObstacle text := by
  cases r with
  | printed _ => cases h; rfl
  | errorPrinted _ => cases h; exact speaksOfObstacle_append (by decide)
  | panicked _ => cases h; exact speaksOfObstacle_append (by decide)
  | _ => cases h

/-- A batch is halted by an answer that tells of an obstacle, and by one that repeats a text that speaks of
one; by no other. -/
theorem haltsBatch_iff {r : Reply} : r.haltsBatch = true ↔
    r.tellsOfObstacle = true ∨ ∃ text, r.quoted? = some text ∧ speaksOfObstacle text = true := by
  constructor
  · intro hhalts
    cases hq : r.quoted? with
    | some text => exact .inr ⟨text, rfl, haltsBatch_of_quoted hq ▸ hhalts⟩
    | none =>
      cases htells : r.tellsOfObstacle with
      | true => exact .inl rfl
      | false =>
        rw [Plain.haltsBatch ⟨htells, hq⟩] at hhalts
        cases hhalts
  · rintro (htells | ⟨text, hq, hspeaks⟩)
    · exact haltsBatch_of_tellsOfObstacle htells
    · rw [haltsBatch_of_quoted hq, hspeaks]

end Reply

end ScriptedRobot
