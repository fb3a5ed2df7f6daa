import Mathlib
import ScriptedRobot.Json.Limits
import ScriptedRobot.Proofs.Json.Writing

/-!
# Reading what is written

A value that is written is read back (`read_text`), as long as not too many arrays and objects are open at
once in it.
-/

namespace ScriptedRobot

namespace Json

/-- The value is one that programs can hold: no object has a key twice, and all floats are 64-bit numbers. -/
inductive IsProper : Json → Prop
  | null : IsProper null
  | bool (b : Bool) : IsProper (bool b)
  | int (n : Int) : IsProper (int n)
  | float (x : Binary64) (canonical : x.IsCanonical) : IsProper (float x)
  | str (s : String) : IsProper (str s)
  | arr (elements : List Json) (proper : ∀ value ∈ elements, IsProper value) : IsProper (arr elements)
  | obj (fields : List (String × Json)) (distinct : (fields.map Prod.fst).Nodup)
      (proper : ∀ field ∈ fields, IsProper field.2) : IsProper (obj fields)

/-! ## Parts of a value -/

theorem le_elementsNesting (value : Json) (rest : List Json) :
    value.nesting ≤ elementsNesting (value :: rest) ∧ elementsNesting rest ≤ elementsNesting (value :: rest) := by
  rw [elementsNesting]
  exact ⟨le_max_left _ _, le_max_right _ _⟩

theorem le_fieldsNesting (key : String) (value : Json) (rest : List (String × Json)) :
    value.nesting ≤ fieldsNesting ((key, value) :: rest) ∧ fieldsNesting rest ≤ fieldsNesting ((key, value) :: rest) := by
  rw [fieldsNesting]
  exact ⟨le_max_left _ _, le_max_right _ _⟩

/-! ## Objects from their fields -/

theorem put_of_new {key : String} {value : Json} {fields : List (String × Json)} (h : key ∉ fields.map Prod.fst) :
    put key value fields = fields ++ [(key, value)] := by
  induction fields with
  | nil => rfl
  | cons field rest ih =>
    rw [List.map_cons, List.mem_cons, not_or] at h
    obtain ⟨hfirst, hrest⟩ := h
    rw [put, if_neg fun heq => hfirst heq.symm, ih hrest, List.cons_append]

theorem ofFields_of_distinct {fields : List (String × Json)} (h : (fields.map Prod.fst).Nodup) :
    ofFields fields = obj fields := by
  have hfold : ∀ more before : List (String × Json), ((before ++ more).map Prod.fst).Nodup →
      more.foldl (fun object field => put field.1 field.2 object) before = before ++ more := by
    intro more
    induction more with
    | nil => intro before _; rw [List.append_nil]; rfl
    | cons field more ih =>
      intro before hdistinct
      obtain ⟨key, value⟩ := field
      have hnew : key ∉ before.map Prod.fst := by
        rw [List.map_append, List.nodup_append] at hdistinct
        intro hmem
        exact hdistinct.2.2 _ hmem _ List.mem_cons_self rfl
      have hstep : ((before ++ [(key, value)] ++ more).map Prod.fst).Nodup := by
        rw [List.append_assoc]
        exact hdistinct
      have hlater := ih (before ++ [(key, value)]) hstep
      rw [List.append_assoc] at hlater
      rw [List.foldl_cons]
      simp only [put_of_new hnew]
      exact hlater
  show obj (fields.foldl (fun object field => put field.1 field.2 object) []) = obj fields
  rw [hfold fields [] h, List.nil_append]

/-! ## Runs of the machine -/

namespace Machine

/-- With these tokens the machine gets from one state to the other. -/
def Passes (ts : List Token) (m n : Machine) : Prop := ts.foldlM step m = .ok n

variable {m n o : Machine} {t : Token} {ts us : List Token}

theorem Passes.cons (h : m.step t = .ok n) (k : Passes ts n o) : Passes (t :: ts) m o := by
  rw [Passes, List.foldlM_cons, h]
  exact k

theorem Passes.append (h : Passes ts m n) (k : Passes us n o) : Passes (ts ++ us) m o := by
  rw [Passes, List.foldlM_append, h]
  exact k

theorem Passes.single (h : m.step t = .ok n) : Passes [t] m n := .cons h rfl

end Machine

open Machine

variable {stack : List Frame} {value : Json} {n : Machine}

/-- Where a value is wanted, the machine gets over the tokens of this one, as far as it may go deep. -/
def Passable (value : Json) : Prop :=
  ∀ stack, value.isWritable = true → stack.length + value.nesting ≤ depthLimit →
    Passes (written value) ⟨stack, .value⟩ ⟨stack, .after value⟩

/-- The first element of an array starts as any other value does. -/
theorem written_starts (value : Json) : ∃ t ts, written value = t :: ts ∧
    ∀ stack, step ⟨stack, .firstElement⟩ t = step ⟨.array [] :: stack, .value⟩ t := by
  cases value with
  | float x => cases x <;> exact ⟨_, _, rfl, fun _ => rfl⟩
  | arr elements => cases elements <;> exact ⟨_, _, rfl, fun _ => rfl⟩
  | obj fields => cases fields <;> exact ⟨_, _, rfl, fun _ => rfl⟩
  | _ => exact ⟨_, _, rfl, fun _ => rfl⟩

theorem Passes.first (h : Passes (written value) ⟨.array [] :: stack, .value⟩ n) :
    Passes (written value) ⟨stack, .firstElement⟩ n := by
  obtain ⟨t, ts, hcons, hstep⟩ := written_starts value
  rw [Passes, hcons, List.foldlM_cons] at h ⊢
  rw [hstep stack]
  exact h

theorem elements_passes {rest : List Json} {before : List Json} (h : ∀ v ∈ rest, Passable v)
    (writable : areWritable rest = true) (depth : stack.length + 1 + elementsNesting rest ≤ depthLimit) :
    Passes (elementsWritten rest) ⟨.array before :: stack, .after value⟩
      ⟨stack, .after (arr (before.reverse ++ value :: rest))⟩ := by
  induction rest generalizing before value with
  | nil =>
    refine .single ?_
    rw [← List.reverse_cons]
    rfl
  | cons next rest ih =>
    obtain ⟨hnext, hrest⟩ := List.forall_mem_cons.1 h
    rw [areWritable, Bool.and_eq_true] at writable
    obtain ⟨hfirst, hothers⟩ := le_elementsNesting next rest
    have hvalue := hnext (.array (value :: before) :: stack) writable.1 (by rw [List.length_cons]; omega)
    have hlater : Passes (elementsWritten rest) ⟨.array (value :: before) :: stack, .after next⟩
        ⟨stack, .after (arr ((value :: before).reverse ++ next :: rest))⟩ := ih hrest writable.2 (by omega)
    have hopen : step ⟨.array before :: stack, .after value⟩ .comma = .ok ⟨.array (value :: before) :: stack, .value⟩ := rfl
    have hall := (hvalue.append hlater).cons hopen
    rw [List.reverse_cons, List.append_assoc] at hall
    exact hall

theorem fields_passes {rest : List (String × Json)} {before : List (String × Json)} {key : String}
    (h : ∀ field ∈ rest, Passable field.2) (writable : fieldsAreWritable rest = true)
    (distinct : ((before.reverse ++ (key, value) :: rest).map Prod.fst).Nodup)
    (depth : stack.length + 1 + fieldsNesting rest ≤ depthLimit) :
    Passes (fieldsWritten rest) ⟨.field before key :: stack, .after value⟩
      ⟨stack, .after (obj (before.reverse ++ (key, value) :: rest))⟩ := by
  induction rest generalizing before key value with
  | nil =>
    refine .single ?_
    rw [← List.reverse_cons] at distinct ⊢
    rw [← ofFields_of_distinct distinct]
    rfl
  | cons field rest ih =>
    obtain ⟨name, next⟩ := field
    have hnext : Passable next := h (name, next) List.mem_cons_self
    have hrest : ∀ field ∈ rest, Passable field.2 := fun field hfield => h field (List.mem_cons_of_mem _ hfield)
    rw [fieldsAreWritable, Bool.and_eq_true] at writable
    obtain ⟨hfirst, hothers⟩ := le_fieldsNesting name next rest
    have hsplit : before.reverse ++ (key, value) :: (name, next) :: rest =
        ((key, value) :: before).reverse ++ (name, next) :: rest := by
      rw [List.reverse_cons, List.append_assoc]
      rfl
    rw [hsplit] at distinct ⊢
    have hvalue := hnext (.field ((key, value) :: before) name :: stack) writable.1 (by rw [List.length_cons]; omega)
    have hlater : Passes (fieldsWritten rest) ⟨.field ((key, value) :: before) name :: stack, .after next⟩
        ⟨stack, .after (obj (((key, value) :: before).reverse ++ (name, next) :: rest))⟩ :=
      ih hrest writable.2 distinct (by omega)
    have hcomma : step ⟨.field before key :: stack, .after value⟩ .comma = .ok ⟨stack, .key ((key, value) :: before)⟩ := rfl
    have hname : step ⟨stack, .key ((key, value) :: before)⟩ (.str name) =
      .ok ⟨stack, .colon ((key, value) :: before) name⟩ := rfl
    have hcolon : step ⟨stack, .colon ((key, value) :: before) name⟩ .colon =
      .ok ⟨.field ((key, value) :: before) name :: stack, .value⟩ := rfl
    exact (((hvalue.append hlater).cons hcolon).cons hname).cons hcomma

theorem array_passable {elements : List Json} (h : ∀ value ∈ elements, Passable value) : Passable (arr elements) := by
  intro stack writable depth
  rw [nesting] at depth
  have hroom : stack.length < depthLimit := by omega
  have hopen : step ⟨stack, .value⟩ .openArray = .ok ⟨stack, .firstElement⟩ := if_pos hroom
  cases elements with
  | nil => exact .cons hopen (.single rfl)
  | cons first rest =>
    obtain ⟨hfirst, hrest⟩ := List.forall_mem_cons.1 h
    have hwritable : first.isWritable = true ∧ areWritable rest = true := (Bool.and_eq_true _ _).mp writable
    obtain ⟨hdepth, hdepths⟩ := le_elementsNesting first rest
    have hvalue := hfirst (.array [] :: stack) hwritable.1 (by rw [List.length_cons]; omega)
    have hlater : Passes (elementsWritten rest) ⟨.array [] :: stack, .after first⟩ ⟨stack, .after (arr (first :: rest))⟩ :=
      elements_passes hrest hwritable.2 (by omega)
    exact ((Passes.first hvalue).append hlater).cons hopen

theorem object_passable {fields : List (String × Json)} (distinct : (fields.map Prod.fst).Nodup)
    (h : ∀ field ∈ fields, Passable field.2) : Passable (obj fields) := by
  intro stack writable depth
  rw [nesting] at depth
  have hroom : stack.length < depthLimit := by omega
  have hopen : step ⟨stack, .value⟩ .openObject = .ok ⟨stack, .firstKey⟩ := if_pos hroom
  cases fields with
  | nil => exact .cons hopen (.single rfl)
  | cons field rest =>
    obtain ⟨key, first⟩ := field
    have hfirst : Passable first := h (key, first) List.mem_cons_self
    have hrest : ∀ field ∈ rest, Passable field.2 := fun field hfield => h field (List.mem_cons_of_mem _ hfield)
    have hwritable : first.isWritable = true ∧ fieldsAreWritable rest = true := (Bool.and_eq_true _ _).mp writable
    obtain ⟨hdepth, hdepths⟩ := le_fieldsNesting key first rest
    have hvalue := hfirst (.field [] key :: stack) hwritable.1 (by rw [List.length_cons]; omega)
    have hlater : Passes (fieldsWritten rest) ⟨.field [] key :: stack, .after first⟩
        ⟨stack, .after (obj ((key, first) :: rest))⟩ := fields_passes hrest hwritable.2 distinct (by omega)
    have hname : step ⟨stack, .firstKey⟩ (.str key) = .ok ⟨stack, .colon [] key⟩ := rfl
    have hcolon : step ⟨stack, .colon [] key⟩ .colon = .ok ⟨.field [] key :: stack, .value⟩ := rfl
    exact (((hvalue.append hlater).cons hcolon).cons hname).cons hopen

theorem step_number {l : Literal} (h : l.value = .ok value) :
    step ⟨stack, .value⟩ (.number l) = .ok ⟨stack, .after value⟩ := by
  have hstep : step ⟨stack, .value⟩ (.number l) = l.value.map fun v => ⟨stack, .after v⟩ := rfl
  rw [hstep, h]
  rfl

theorem IsProper.passable (h : value.IsProper) : Passable value := by
  induction h with
  | null => exact fun stack _ _ => .single rfl
  | bool b => exact fun stack _ _ => .single rfl
  | int n => exact fun stack writable _ => .single (step_number (Literal.ofInt_value writable))
  | float x canonical =>
    intro stack _ _
    cases x with
    | finite negative mantissa exponent => exact .single (step_number (ofFinite_value canonical))
    | nan => exact .single rfl
    | infinite negative => exact .single rfl
  | str s => exact fun stack _ _ => .single rfl
  | arr elements _ ih => exact array_passable ih
  | obj fields distinct _ ih => exact object_passable distinct ih

/-- A value that is written is read back, unless too many arrays and objects are open at once in it. -/
theorem read_text (proper : value.IsProper) (writable : value.isWritable = true) (depth : value.nesting ≤ depthLimit) :
    read value.text = .ok value := by
  have hpass := proper.passable [] writable (by rw [List.length_nil, Nat.zero_add]; exact depth)
  have htokens := (written_spells value writable).tokens_eq
  rw [read, htokens, start, hpass]
  rfl

end Json

end ScriptedRobot
