import Mathlib.Data.List.Basic
import ScriptedRobot.Text.Line

/-!
# Lines of joined texts

Two texts with a line feed between them have the lines of both, except that a blank line may come in
between: a line feed after a text that ends a line itself either belongs to that end or ends a blank line.
The lines of a file are simpler: behind the end of a line the rest has the lines that it has on its own.
-/

namespace ScriptedRobot.Text

theorem consToFirst_append {c : Char} {ls : List (List Char)} (h : ls ≠ []) (more : List (List Char)) :
    consToFirst c (ls ++ more) = consToFirst c ls ++ more := by
  obtain ⟨line, rest, rfl⟩ := List.exists_cons_of_ne_nil h
  rfl

theorem lines_cons {c : Char} {cs : List Char} (h : c = '\r' → cs.head? ≠ some '\n') :
    lines (c :: cs) = if isLineBreak c then [] :: lines cs else consToFirst c (lines cs) := by
  rw [lines]
  rintro rest rfl rfl
  exact h rfl rfl

theorem lines_of_break {c : Char} {cs : List Char} (h : isLineBreak c = true)
    (single : c = '\r' → cs.head? ≠ some '\n') : lines (c :: cs) = [] :: lines cs := by
  rw [lines_cons single, if_pos h]

theorem lines_of_not_break {c : Char} (h : isLineBreak c = false) (cs : List Char) :
    lines (c :: cs) = consToFirst c (lines cs) := by
  have hreturn : c ≠ '\r' := by
    rintro rfl
    cases h
  rw [lines_cons fun hc => absurd hc hreturn, h]
  rfl

theorem lines_ne_nil {cs : List Char} (h : cs ≠ []) : lines cs ≠ [] := by
  fun_cases lines cs with
  | case1 => exact absurd rfl h
  | case2 rest => simp
  | case3 c rest => simp
  | case4 c rest =>
    cases lines rest <;> simp [consToFirst]

/-- A line holds no line break. -/
theorem not_break_of_mem_lines {cs line : List Char} {c : Char} (hline : line ∈ lines cs) (hc : c ∈ line) :
    isLineBreak c = false := by
  fun_induction lines cs generalizing line with
  | case1 => cases hline
  | case2 rest ih =>
    rcases List.mem_cons.1 hline with rfl | hline
    · cases hc
    · exact ih hline hc
  | case3 d rest _ _ ih =>
    rcases List.mem_cons.1 hline with rfl | hline
    · cases hc
    · exact ih hline hc
  | case4 d rest _ hd ih =>
    have hplain : isLineBreak d = false := by simpa using hd
    cases hrest : lines rest with
    | nil =>
      rw [hrest, consToFirst, List.mem_singleton] at hline
      rw [hline, List.mem_singleton] at hc
      rw [hc, hplain]
    | cons first others =>
      rw [hrest] at ih
      rw [hrest, consToFirst] at hline
      rcases List.mem_cons.1 hline with rfl | hline
      · rcases List.mem_cons.1 hc with rfl | hc
        · exact hplain
        · exact ih List.mem_cons_self hc
      · exact ih (List.mem_cons_of_mem _ hline) hc

theorem not_break_of_any {cs : List Char} (h : cs.any isLineBreak = false) : ∀ c ∈ cs, isLineBreak c = false := by
  intro c hc
  simpa using List.any_eq_false.1 h c hc

/-- A text without line breaks is its only line. -/
theorem lines_eq_singleton {cs : List Char} (h : ∀ c ∈ cs, isLineBreak c = false) (nonempty : cs ≠ []) :
    lines cs = [cs] := by
  induction cs with
  | nil => exact absurd rfl nonempty
  | cons c cs ih =>
    rw [lines_of_not_break (h c List.mem_cons_self)]
    cases cs with
    | nil => rfl
    | cons d cs =>
      rw [ih (fun e he => h e (List.mem_cons_of_mem _ he)) (List.cons_ne_nil d cs)]
      rfl

/-- Joining two texts by a line feed joins their lines, perhaps with a blank line in between. -/
theorem lines_append_newline (a b : List Char) : ∃ between, (∀ line ∈ between, line = []) ∧
    lines (a ++ '\n' :: b) = lines a ++ between ++ lines b := by
  have hfeed : lines ('\n' :: b) = [] :: lines b := lines_of_break rfl nofun
  fun_induction lines a with
  | case1 => exact ⟨[[]], by simp, hfeed⟩
  | case2 rest ih =>
    obtain ⟨between, hblank, heq⟩ := ih
    refine ⟨between, hblank, ?_⟩
    have hnext : lines ('\r' :: '\n' :: (rest ++ '\n' :: b)) = [] :: lines (rest ++ '\n' :: b) := rfl
    rw [List.cons_append, List.cons_append, hnext, heq]
    rfl
  | case3 c rest hpair hbreak ih =>
    cases rest with
    | nil =>
      by_cases hc : c = '\r'
      · -- the line feed belongs to the carriage return before it
        subst hc
        exact ⟨[], by simp, rfl⟩
      · refine ⟨[[]], by simp, ?_⟩
        have hnext : lines (c :: '\n' :: b) = [] :: lines ('\n' :: b) :=
          lines_of_break hbreak fun h => absurd h hc
        rw [List.cons_append, List.nil_append, hnext, hfeed]
        rfl
    | cons d rest =>
      obtain ⟨between, hblank, heq⟩ := ih
      refine ⟨between, hblank, ?_⟩
      have hnext : lines (c :: (d :: rest ++ '\n' :: b)) = [] :: lines (d :: rest ++ '\n' :: b) := by
        refine lines_of_break hbreak fun hc hd => ?_
        exact hpair rest hc (by rw [Option.some.inj hd])
      rw [List.cons_append, hnext, heq]
      rfl
  | case4 c rest hpair hbreak ih =>
    have hplain : isLineBreak c = false := by simpa using hbreak
    rw [List.cons_append, lines_of_not_break hplain]
    cases rest with
    | nil => exact ⟨[], by simp, by rw [List.nil_append, hfeed]; rfl⟩
    | cons d rest =>
      obtain ⟨between, hblank, heq⟩ := ih
      have hnonempty : lines (d :: rest) ≠ [] := lines_ne_nil (List.cons_ne_nil d rest)
      refine ⟨between, hblank, ?_⟩
      rw [heq, List.append_assoc, consToFirst_append hnonempty, List.append_assoc]

/-! ## Lines of files -/

/-- Every line of the text is ended, by a carriage return or a line feed. -/
def EndsLines (cs : List Char) : Prop := ∀ c ∈ cs.getLast?, c = '\n' ∨ c = '\r'

theorem fileLines_cons (c : Char) (cs : List Char) :
    fileLines (c :: cs) = if c = '\n' then [] :: fileLines cs else consToFirst c (fileLines cs) := rfl

theorem fileLines_append {a b : List Char} (h : ∀ c ∈ a.getLast?, c = '\n') :
    fileLines (a ++ b) = fileLines a ++ fileLines b := by
  induction a with
  | nil => rfl
  | cons c a ih =>
    have hlater : ∀ d ∈ a.getLast?, d = '\n' := by
      intro d hd
      cases a with
      | nil => cases hd
      | cons e a => exact h d (by rwa [List.getLast?_cons_cons])
    rw [List.cons_append, fileLines_cons, fileLines_cons, ih hlater]
    by_cases hc : c = '\n'
    · rw [if_pos hc, if_pos hc]
      rfl
    · rw [if_neg hc, if_neg hc]
      cases a with
      | nil => exact absurd (h c rfl) hc
      | cons d a =>
        have hsome : fileLines (d :: a) ≠ [] := by
          rw [fileLines_cons]
          split
          · exact List.cons_ne_nil _ _
          · cases fileLines a <;> exact List.cons_ne_nil _ _
        exact consToFirst_append hsome _

/-- A text without line feeds is the only line that it is part of. -/
theorem fileLines_feed {cs : List Char} (h : '\n' ∉ cs) : fileLines (cs ++ ['\n']) = [cs] := by
  induction cs with
  | nil => rfl
  | cons c cs ih =>
    rw [List.mem_cons, not_or] at h
    rw [List.cons_append, fileLines_cons, if_neg fun hc => h.1 hc.symm, ih h.2]
    rfl

theorem fileLines_single {cs : List Char} (h : '\n' ∉ cs) (some : cs ≠ []) : fileLines cs = [cs] := by
  induction cs with
  | nil => exact absurd rfl some
  | cons c cs ih =>
    rw [List.mem_cons, not_or] at h
    rw [fileLines_cons, if_neg fun hc => h.1 hc.symm]
    cases cs with
    | nil => rfl
    | cons d cs =>
      rw [ih h.2 (List.cons_ne_nil d cs)]
      rfl

theorem unifyNewlines_cons {c : Char} {cs : List Char} (h : c = '\r' → cs.head? ≠ some '\n') :
    unifyNewlines (c :: cs) = (if c = '\r' then '\n' else c) :: unifyNewlines cs := by
  rw [unifyNewlines]
  rintro rest rfl rfl
  exact h rfl rfl

theorem unifyNewlines_of_plain {cs : List Char} (h : '\r' ∉ cs) : unifyNewlines cs = cs := by
  induction cs with
  | nil => rfl
  | cons c cs ih =>
    rw [List.mem_cons, not_or] at h
    have hc : c ≠ '\r' := fun hc => h.1 hc.symm
    rw [unifyNewlines_cons fun heq => absurd heq hc, if_neg hc, ih h.2]

/-- Line ends are unified in two parts of a text at a time, unless a carriage return is cut from its line feed. -/
theorem unifyNewlines_append {a b : List Char} (h : a.getLast? = some '\r' → b.head? ≠ some '\n') :
    unifyNewlines (a ++ b) = unifyNewlines a ++ unifyNewlines b := by
  fun_induction unifyNewlines a with
  | case1 => rfl
  | case2 rest ih =>
    have hrest : rest.getLast? = some '\r' → b.head? ≠ some '\n' := by
      intro hlast
      exact h (by simp [List.getLast?_cons, hlast])
    have hpair : unifyNewlines ('\r' :: '\n' :: (rest ++ b)) = '\n' :: unifyNewlines (rest ++ b) := rfl
    rw [List.cons_append, List.cons_append, hpair, ih hrest]
    rfl
  | case3 c rest hpair ih =>
    have hrest : rest.getLast? = some '\r' → b.head? ≠ some '\n' := by
      intro hlast
      exact h (by simp [List.getLast?_cons, hlast])
    have hsingle : c = '\r' → (rest ++ b).head? ≠ some '\n' := by
      intro hc hd
      cases rest with
      | nil => exact h (by rw [hc]; rfl) hd
      | cons d rest => exact hpair rest hc (by rw [Option.some.inj hd])
    rw [List.cons_append, unifyNewlines_cons hsingle, ih hrest]
    rfl

theorem getLast?_unifyNewlines {cs : List Char} (h : EndsLines cs) : ∀ c ∈ (unifyNewlines cs).getLast?, c = '\n' := by
  have hlast : ∀ front, unifyNewlines cs = front ++ ['\n'] → ∀ c ∈ (unifyNewlines cs).getLast?, c = '\n' := by
    intro front heq c hc
    rw [heq, List.getLast?_concat] at hc
    exact (Option.some.inj hc).symm
  rcases List.eq_nil_or_concat cs with rfl | ⟨front, c, rfl⟩
  · intro c hc
    cases hc
  · have hc : c = '\n' ∨ c = '\r' := h c (by rw [List.concat_eq_append, List.getLast?_concat]; rfl)
    rw [List.concat_eq_append] at hlast ⊢
    by_cases hpair : front.getLast? = some '\r' ∧ c = '\n'
    · obtain ⟨hfront, rfl⟩ := hpair
      obtain ⟨before, rfl⟩ := List.getLast?_eq_some_iff.1 hfront
      apply hlast (unifyNewlines before)
      rw [List.append_assoc]
      exact unifyNewlines_append fun _ => by simp
    · apply hlast (unifyNewlines front)
      rw [unifyNewlines_append]
      · rcases hc with rfl | rfl <;> rfl
      · intro hfront hhead
        exact hpair ⟨hfront, Option.some.inj hhead⟩

/-- The lines of a text with all its lines ended, and of what follows it. -/
theorem fileLines_unify_append {a b : List Char} (ended : EndsLines a)
    (h : a.getLast? = some '\r' → b.head? ≠ some '\n') :
    fileLines (unifyNewlines (a ++ b)) = fileLines (unifyNewlines a) ++ fileLines (unifyNewlines b) := by
  rw [unifyNewlines_append h, fileLines_append (getLast?_unifyNewlines ended)]

end ScriptedRobot.Text
