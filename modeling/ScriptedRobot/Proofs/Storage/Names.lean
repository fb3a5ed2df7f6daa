import Mathlib
import ScriptedRobot.Proofs.Storage.Growth

/-!
# Names in directories

On a sound disk every file and every directory is listed once and has a proper name. It stays sound whatever is made on
it at proper paths, and the names in a directory are exactly those that lead to something from there.
-/

namespace ScriptedRobot

namespace Path

/-- A name that a file or a directory can have. -/
structure IsName (name : String) : Prop where
  ne_empty : name ≠ ""
  ne_here : name ≠ "."
  ne_above : name ≠ ".."
  no_slash : '/' ∉ name.toList

/-- A path made of names that files and directories can have, and of ways back. -/
def IsProper (p : Path) : Prop := ∀ name ∈ p.names, name = ".." ∨ IsName name

variable {folder p : Path} {name other : String}

theorem IsName.child_eq (h : IsName name) : folder.child name = ⟨folder.root, folder.names ++ [name]⟩ := by
  rw [child, ofString_of_name h.no_slash h.ne_empty h.ne_here]
  rfl

theorem IsName.parent_child (h : IsName name) : (folder.child name).parent = folder := by
  rw [h.child_eq, parent, List.dropLast_concat]

theorem IsName.names_ne_nil (h : IsName name) : (folder.child name).names ≠ [] := by
  rw [h.child_eq]
  exact List.append_ne_nil_of_right_ne_nil _ (List.cons_ne_nil _ _)

theorem IsName.child_inj (h : IsName name) (h' : IsName other) (same : folder.child name = folder.child other) :
    name = other := by
  rw [h.child_eq, h'.child_eq] at same
  have hnames := List.append_cancel_left (Path.mk.inj same).2
  exact (List.cons.inj hnames).1

theorem IsProper.parent (h : p.IsProper) : p.parent.IsProper :=
  fun name hname => h name (List.mem_of_mem_dropLast hname)

theorem IsProper.child (h : folder.IsProper) (hname : IsName name) : (folder.child name).IsProper := by
  intro other hother
  rw [hname.child_eq] at hother
  rcases List.mem_append.1 hother with hmem | hmem
  · exact h other hmem
  · rw [List.mem_singleton.1 hmem]
    exact .inr hname

theorem no_slash_of_splitOn (cs : List Char) : ∀ piece ∈ cs.splitOn '/', '/' ∉ piece := by
  induction cs with
  | nil => simp
  | cons c cs ih =>
    rw [List.splitOn] at ih ⊢
    rw [List.splitOnP_cons_eq_if_modifyHead]
    split
    · exact List.forall_mem_cons.2 ⟨List.not_mem_nil, ih⟩
    · rename_i hc
      cases hpieces : cs.splitOnP (· == '/') with
      | nil => exact nofun
      | cons piece pieces =>
        obtain ⟨hpiece, hrest⟩ := List.forall_mem_cons.1 (hpieces ▸ ih)
        refine List.forall_mem_cons.2 ⟨List.not_mem_cons_of_ne_of_not_mem ?_ hpiece, hrest⟩
        rintro rfl
        exact hc (beq_self_eq_true '/')

/-- Every path that is read from a text is proper. -/
theorem ofString_isProper (s : String) : (ofString s).IsProper := by
  intro name hname
  obtain ⟨hmem, hkept⟩ := List.mem_filter.1 hname
  obtain ⟨cs, hcs, rfl⟩ := List.mem_map.1 hmem
  by_cases hup : String.ofList cs = ".."
  · exact .inl hup
  · rw [Bool.and_eq_true, bne_iff_ne, bne_iff_ne] at hkept
    refine .inr ⟨hkept.1, hkept.2, hup, ?_⟩
    rw [String.toList_ofList]
    exact no_slash_of_splitOn s.toList cs hcs

end Path

namespace Disk

variable {d made : Disk} {spot here : Place} {p folder : Path} {name : String} {content : FileContent}

/-- A path to a name goes through the directory that it is in. -/
theorem place_of_child (h : Path.IsName name) (leads : d.place (folder.child name) = .ok spot) :
    ∃ here, d.place folder = .ok here ∧ d.content? here = some .directory ∧ spot = here ++ [name] := by
  obtain ⟨here, hplace, hdirectory, hstep⟩ := place_parent h.names_ne_nil leads
  rw [h.parent_child] at hplace
  refine ⟨here, hplace, hdirectory, ?_⟩
  have hlast : (folder.child name).names.getLast h.names_ne_nil = name := by
    simp only [h.child_eq, List.getLast_concat]
  rw [hlast, step, hdirectory] at hstep
  simp only [if_neg h.ne_above] at hstep
  split at hstep
  · cases hstep
  · exact (Except.ok.inj hstep).symm

/-- Every file and every directory is listed once, under a proper name. -/
structure Sound (d : Disk) : Prop where
  nodup : (d.entries.map Prod.fst).Nodup
  named : ∀ entry ∈ d.entries, ∀ name ∈ entry.1, Path.IsName name
  here : ∀ name ∈ d.here, Path.IsName name

/-! ## Soundness is kept -/

theorem keys_replace (spot : Place) (content : FileContent) (entries : List (Place × FileContent)) :
    (put.replace spot content entries).map Prod.fst = entries.map Prod.fst ∨
      spot ∉ entries.map Prod.fst ∧
        (put.replace spot content entries).map Prod.fst = entries.map Prod.fst ++ [spot] := by
  induction entries with
  | nil => exact .inr ⟨List.not_mem_nil, rfl⟩
  | cons entry rest ih =>
    rw [put.replace]
    split
    · rename_i heq
      left
      rw [List.map_cons, List.map_cons, heq]
    · rename_i hne
      rw [List.map_cons, List.map_cons]
      rcases ih with hsame | ⟨hnew, hmore⟩
      · exact .inl (congrArg _ hsame)
      · right
        refine ⟨?_, congrArg _ hmore⟩
        intro hmem
        rcases List.mem_cons.1 hmem with rfl | hmem
        · exact hne rfl
        · exact hnew hmem

theorem Sound.put (h : d.Sound) (named : ∀ name ∈ spot, Path.IsName name) : (d.put spot content).Sound := by
  have hkeys := keys_replace spot content d.entries
  refine ⟨?_, ?_, h.here⟩
  · rcases hkeys with hsame | ⟨hnew, hmore⟩
    · exact hsame ▸ h.nodup
    · refine hmore ▸ List.nodup_append.2 ⟨h.nodup, List.nodup_singleton _, ?_⟩
      rintro key hkey other hother rfl
      exact hnew (List.mem_singleton.1 hother ▸ hkey)
  · intro entry hentry
    have hmem : entry.1 ∈ (put.replace spot content d.entries).map Prod.fst := List.mem_map_of_mem hentry
    have hcases : entry.1 ∈ d.entries.map Prod.fst ∨ entry.1 = spot := by
      rcases hkeys with hsame | ⟨-, hmore⟩
      · exact .inl (hsame ▸ hmem)
      · rw [hmore] at hmem
        exact (List.mem_append.1 hmem).imp_right List.mem_singleton.1
    rcases hcases with hold | hspot
    · obtain ⟨old, hold, heq⟩ := List.mem_map.1 hold
      exact heq ▸ h.named old hold
    · rw [hspot]
      exact named

theorem Sound.follow {names : List String} (proper : ∀ name ∈ names, name = ".." ∨ Path.IsName name)
    (named : ∀ name ∈ here, Path.IsName name) (leads : names.foldlM (d.step p) here = .ok spot) :
    ∀ name ∈ spot, Path.IsName name := by
  induction names generalizing here with
  | nil =>
    obtain rfl : here = spot := Except.ok.inj leads
    exact named
  | cons name names ih =>
    obtain ⟨hname, hnames⟩ := List.forall_mem_cons.1 proper
    rw [List.foldlM_cons] at leads
    cases hstep : d.step p here name with
    | error fault =>
      rw [hstep] at leads
      cases leads
    | ok next =>
      rw [hstep] at leads
      refine ih hnames ?_ leads
      unfold step at hstep
      split at hstep
      · cases hstep
      · cases hstep
      · split at hstep
        · obtain rfl := Except.ok.inj hstep
          exact fun other hother => named other (List.mem_of_mem_dropLast hother)
        · rename_i hup
          split at hstep
          · cases hstep
          · obtain rfl := Except.ok.inj hstep
            intro other hother
            rcases List.mem_append.1 hother with hmem | hmem
            · exact named other hmem
            · rw [List.mem_singleton.1 hmem]
              exact hname.resolve_left hup

/-- A proper path leads to a place with proper names. -/
theorem Sound.place (h : d.Sound) (proper : p.IsProper) (leads : d.place p = .ok spot) :
    ∀ name ∈ spot, Path.IsName name := by
  refine Sound.follow proper ?_ (follow_of_place leads)
  split
  · simp
  · exact h.here

theorem Sound.makeDirectory (h : d.Sound) (proper : p.IsProper) (hmake : d.makeDirectory p = .ok made) :
    made.Sound := by
  rw [makeDirectory_eq] at hmake
  cases hplace : d.place p with
  | error fault =>
    rw [hplace] at hmake
    cases hmake
  | ok spot =>
    rw [hplace] at hmake
    cases hspot : d.content? spot with
    | some content =>
      simp only [hspot] at hmake
      cases hmake
    | none =>
      simp only [hspot] at hmake
      obtain rfl := Except.ok.inj hmake
      exact h.put (h.place proper hplace)

theorem Sound.ensureDirectory (h : d.Sound) (proper : p.IsProper) :
    ((Storage.ensureDirectory p : StateM Disk (Except StorageFault Unit)).run d).2.Sound := by
  rcases ensureDirectory_cases d p with ⟨made, hmake, hrun⟩ | hsame
  · rw [hrun]
    exact h.makeDirectory proper hmake
  · rw [hsame]
    exact h

theorem Sound.ensureDirectories (depth : Nat) (h : d.Sound) (proper : p.IsProper) :
    ((Storage.ensureDirectories depth p : StateM Disk (Except StorageFault Unit)).run d).2.Sound := by
  induction depth generalizing d p with
  | zero => exact h.ensureDirectory proper
  | succ depth ih =>
    have hfirst := h.ensureDirectory proper
    rw [Storage.ensureDirectories, stateM_run_bind]
    split
    · split
      · exact hfirst
      · have habove := ih hfirst proper.parent
        rw [stateM_run_bind]
        split
        · exact habove
        · exact habove.ensureDirectory proper
    · exact hfirst

theorem Sound.makeDirectories (h : d.Sound) (proper : p.IsProper) :
    ((Storage.makeDirectories p : StateM Disk (Except StorageFault Unit)).run d).2.Sound :=
  h.ensureDirectories p.names.length proper

/-! ## The names in a directory -/

theorem names_eq (leads : d.place p = .ok here) (directory : d.content? here = some .directory) :
    d.names p = .ok (d.entries.filterMap fun entry =>
      if entry.1.dropLast = here then entry.1.getLast? else none) := by
  unfold Disk.names
  rw [leads]
  simp only [bind, Except.bind, directory]
  rfl

theorem filterMap_eq_some {entry : Place × FileContent} :
    (if entry.1.dropLast = here then entry.1.getLast? else none) = some name ↔ entry.1 = here ++ [name] := by
  constructor
  · intro h
    split at h
    · rename_i hhere
      rw [← hhere, List.dropLast_append_getLast? name h]
    · cases h
  · intro h
    rw [h, List.dropLast_concat, if_pos rfl, List.getLast?_concat]

/-- There is something at a place exactly if the place is listed. -/
theorem mem_names_iff {names : List String} (leads : d.place p = .ok here)
    (directory : d.content? here = some .directory) (holds : d.names p = .ok names) :
    name ∈ names ↔ d.content? (here ++ [name]) ≠ none := by
  rw [names_eq leads directory] at holds
  obtain rfl := Except.ok.inj holds
  have hne : here ++ [name] ≠ [] := List.append_ne_nil_of_right_ne_nil _ (List.cons_ne_nil _ _)
  rw [content?, if_neg hne, Ne, List.lookup_eq_none_iff, List.mem_filterMap]
  simp only [filterMap_eq_some]
  constructor
  · rintro ⟨entry, hentry, heq⟩ hnone
    exact bne_iff_ne.1 (hnone entry hentry) heq.symm
  · intro hsome
    by_contra hnone
    refine hsome fun entry hentry => bne_iff_ne.2 ?_
    intro heq
    exact hnone ⟨entry, hentry, heq.symm⟩

theorem Sound.nodup_names (h : d.Sound) {names : List String} (leads : d.place p = .ok here)
    (directory : d.content? here = some .directory) (holds : d.names p = .ok names) : names.Nodup := by
  rw [names_eq leads directory] at holds
  obtain rfl := Except.ok.inj holds
  rw [List.Nodup, List.pairwise_filterMap]
  refine (List.pairwise_map.1 h.nodup).imp ?_
  rintro entry other hdiffer name hname name' hname' rfl
  exact hdiffer ((filterMap_eq_some.1 hname).trans (filterMap_eq_some.1 hname').symm)

theorem Sound.isName_of_names (h : d.Sound) {names : List String} (leads : d.place p = .ok here)
    (directory : d.content? here = some .directory) (holds : d.names p = .ok names) (mem : name ∈ names) :
    Path.IsName name := by
  rw [names_eq leads directory] at holds
  obtain rfl := Except.ok.inj holds
  obtain ⟨entry, hentry, hname⟩ := List.mem_filterMap.1 mem
  refine h.named entry hentry name ?_
  rw [filterMap_eq_some.1 hname]
  exact List.mem_append_right _ (List.mem_singleton_self name)

end Disk

end ScriptedRobot
