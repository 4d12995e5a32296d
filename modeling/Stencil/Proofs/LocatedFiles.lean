import Stencil.Source.FileTree

/-!
# Paths with the same components

A path is a text and may repeat slashes or points; what counts are its components. Two facts are
needed about them:

> `locate_unique`: paths with the same components lead to the same file or directory.
> `components_eq_of_assetKey`: below one directory, files with the same key have the same components,
> and so have files that do not lie below it.

Of two files one of which lies below the directory and one does not, nothing is said: they may have
the same key.
-/

namespace Stencil

namespace FilePath

/-! ## Parts -/

/-- A component that counts. -/
def Counts (part : List Char) : Prop := part ≠ [] ∧ part ≠ ['.']

instance : DecidablePred Counts := fun part =>
  inferInstanceAs (Decidable (part ≠ [] ∧ part ≠ ['.']))

/-- The parts of a path in a row. -/
def allParts (path : List Char) : List (List Char) := (parts path).1 :: (parts path).2

theorem parts_of_name {name : List Char} (h : '/' ∉ name) : parts name = (name, []) := by
  induction name with
  | nil => rfl
  | cons c rest ih =>
    simp only [List.mem_cons, not_or] at h
    rw [parts, ih h.2]
    simp [Ne.symm h.1]

theorem parts_slash (a b : List Char) :
    parts (a ++ '/' :: b) = ((parts a).1, (parts a).2 ++ (parts b).1 :: (parts b).2) := by
  induction a with
  | nil => simp [parts]
  | cons c rest ih =>
    rw [List.cons_append, parts, ih, parts]
    by_cases hc : c = '/' <;> simp [hc]

theorem allParts_slash (a b : List Char) :
    allParts (a ++ '/' :: b) = allParts a ++ allParts b := by
  unfold allParts
  rw [parts_slash, List.cons_append]

/-- No part has a slash in it. -/
theorem slash_notMem_of_mem_allParts (path : List Char) : ∀ part ∈ allParts path, '/' ∉ part := by
  unfold allParts
  induction path with
  | nil => simp [parts]
  | cons c rest ih =>
    rw [parts]
    by_cases hc : c = '/'
    · simp only [hc, if_true, List.mem_cons]
      rintro part (rfl | hpart)
      · simp
      · exact ih part (by simpa using hpart)
    · simp only [hc, if_false, List.mem_cons]
      rintro part (rfl | hpart)
      · have := ih _ (List.mem_cons_self ..)
        simp [Ne.symm hc, this]
      · exact ih part (List.mem_cons_of_mem _ hpart)

/-! ## Components -/

theorem components_absolute (rest : List Char) :
    components ('/' :: rest) = ['/'] :: (allParts rest).filter fun p => decide (Counts p) := by
  rw [components]
  simp only [parts, if_true]
  rfl

theorem parts_fst_ne_nil {path : List Char} (hrel : path.head? ≠ some '/') (hne : path ≠ []) :
    (parts path).1 ≠ [] := by
  cases path with
  | nil => exact absurd rfl hne
  | cons c rest =>
    have hc : c ≠ '/' := fun h => hrel (by rw [h]; rfl)
    simp [parts, hc]

theorem components_relative {path : List Char} (hrel : path.head? ≠ some '/') (hne : path ≠ []) :
    components path = (parts path).1 :: (parts path).2.filter fun p => decide (Counts p) := by
  have hhead := parts_fst_ne_nil hrel hne
  unfold components
  dsimp only
  split
  next h => exact absurd h hhead
  next => rfl

/-- A path is empty, or it begins with a slash, or it is relative. -/
theorem path_cases (path : List Char) :
    path = [] ∨ (∃ rest, path = '/' :: rest) ∨ (path.head? ≠ some '/' ∧ path ≠ []) := by
  cases path with
  | nil => exact .inl rfl
  | cons c rest =>
    by_cases hc : c = '/'
    · exact .inr (.inl ⟨rest, by rw [hc]⟩)
    · exact .inr (.inr ⟨by simpa using hc, List.cons_ne_nil _ _⟩)

/-- A component that is a name: all are, but for the slash that an absolute path begins with. -/
def IsName (part : List Char) : Prop := '/' ∉ part ∧ part ≠ []

/-- A row of names, or the slash of an absolute path and a row of names. -/
inductive IsRow : List (List Char) → Prop where
  | names {row : List (List Char)} (h : ∀ part ∈ row, IsName part) : IsRow row
  | absolute {row : List (List Char)} (h : ∀ part ∈ row, IsName part) : IsRow (['/'] :: row)

theorem isName_of_mem_filter {path part : List Char} {parts : List (List Char)}
    (hsub : ∀ p ∈ parts, p ∈ allParts path)
    (h : part ∈ parts.filter fun p => decide (Counts p)) : IsName part := by
  obtain ⟨hmem, hcounts⟩ := List.mem_filter.1 h
  exact ⟨slash_notMem_of_mem_allParts path part (hsub part hmem), (of_decide_eq_true hcounts).1⟩

theorem isRow_components (path : List Char) : IsRow (components path) := by
  rcases path_cases path with rfl | ⟨rest, rfl⟩ | ⟨hrel, hne⟩
  · exact .names fun _ h => absurd h List.not_mem_nil
  · rw [components_absolute]
    exact .absolute fun part h => isName_of_mem_filter (fun _ hp => hp) h
  · rw [components_relative hrel hne]
    refine .names (List.forall_mem_cons.2 ⟨⟨?_, parts_fst_ne_nil hrel hne⟩, fun part h => ?_⟩)
    · exact slash_notMem_of_mem_allParts path _ (List.mem_cons_self ..)
    · have hsub : ∀ p ∈ (parts path).2, p ∈ allParts path := fun p hp => List.mem_cons_of_mem _ hp
      exact isName_of_mem_filter hsub h

/-- What is left of a row behind its first components is a row. -/
theorem IsRow.of_append {front rest : List (List Char)} (h : IsRow (front ++ rest)) :
    IsRow rest := by
  cases front with
  | nil => exact h
  | cons part front =>
    refine .names fun name hname => ?_
    generalize hrow : part :: front ++ rest = row at h
    cases h with
    | names hnames => exact hnames name (hrow ▸ List.mem_append_right _ hname)
    | absolute hnames =>
      obtain ⟨-, rfl⟩ := List.cons.inj hrow
      exact hnames name (List.mem_append_right _ hname)

/-! ## Joined components -/

theorem joinSlashes_cons (part : List Char) {rest : List (List Char)} (hne : rest ≠ []) :
    joinSlashes (part :: rest) = part ++ '/' :: joinSlashes rest := by
  cases rest with
  | nil => exact absurd rfl hne
  | cons next more => rfl

/-- Names that are joined are read back. -/
theorem allParts_joinSlashes {row : List (List Char)} (h : ∀ part ∈ row, IsName part)
    (hne : row ≠ []) : allParts (joinSlashes row) = row := by
  induction row with
  | nil => exact absurd rfl hne
  | cons part rest ih =>
    obtain ⟨hpart, hrest⟩ := List.forall_mem_cons.1 h
    have hparts : allParts part = [part] := by rw [allParts, parts_of_name hpart.1]
    by_cases hnil : rest = []
    · rw [hnil, joinSlashes, hparts]
    · rw [joinSlashes_cons part hnil, allParts_slash, hparts, ih hrest hnil, List.singleton_append]

theorem joinSlashes_ne_nil {row : List (List Char)} (h : ∀ part ∈ row, IsName part)
    (hne : row ≠ []) : joinSlashes row ≠ [] := by
  intro hnil
  have hparts := allParts_joinSlashes h hne
  rw [hnil] at hparts
  have hempty : ([] : List Char) ∈ row := by
    rw [← hparts]
    exact List.mem_cons_self ..
  exact (h [] hempty).2 rfl

/-- Different rows of names are joined to different texts. -/
theorem joinSlashes_inj_names {row row' : List (List Char)} (h : ∀ part ∈ row, IsName part)
    (h' : ∀ part ∈ row', IsName part) (heq : joinSlashes row = joinSlashes row') : row = row' := by
  by_cases hne : row = []
  · by_cases hne' : row' = []
    · rw [hne, hne']
    · refine absurd ?_ (joinSlashes_ne_nil h' hne')
      rw [← heq, hne, joinSlashes]
  · by_cases hne' : row' = []
    · refine absurd ?_ (joinSlashes_ne_nil h hne)
      rw [heq, hne', joinSlashes]
    · rw [← allParts_joinSlashes h hne, heq, allParts_joinSlashes h' hne']

/-- Names that are joined do not begin with a slash. -/
theorem joinSlashes_names_ne {row : List (List Char)} (h : ∀ part ∈ row, IsName part)
    (text : List Char) : joinSlashes row ≠ '/' :: text := by
  intro heq
  by_cases hne : row = []
  · rw [hne] at heq
    cases heq
  · have hparts := allParts_joinSlashes h hne
    have hempty : ([] : List Char) ∈ row := by
      rw [← hparts, heq]
      exact List.mem_cons_self ..
    exact (h [] hempty).2 rfl

theorem joinSlashes_absolute (row : List (List Char)) :
    ∃ text, joinSlashes (['/'] :: row) = '/' :: text ∧
      ((row = [] ∧ text = []) ∨ (row ≠ [] ∧ text = '/' :: joinSlashes row)) := by
  by_cases hne : row = []
  · exact ⟨[], by rw [hne]; rfl, .inl ⟨hne, rfl⟩⟩
  · exact ⟨'/' :: joinSlashes row, joinSlashes_cons _ hne, .inr ⟨hne, rfl⟩⟩

/-- Different rows are joined to different texts. -/
theorem joinSlashes_inj {row row' : List (List Char)} (h : IsRow row) (h' : IsRow row')
    (heq : joinSlashes row = joinSlashes row') : row = row' := by
  cases h with
  | names hnames =>
    cases h' with
    | names hnames' => exact joinSlashes_inj_names hnames hnames' heq
    | @absolute other _ =>
      obtain ⟨text, htext, -⟩ := joinSlashes_absolute other
      exact absurd (heq.trans htext) (joinSlashes_names_ne hnames text)
  | @absolute rest hnames =>
    obtain ⟨text, htext, hrest⟩ := joinSlashes_absolute rest
    cases h' with
    | names hnames' => exact absurd (heq.symm.trans htext) (joinSlashes_names_ne hnames' text)
    | @absolute rest' hnames' =>
      obtain ⟨text', htext', hrest'⟩ := joinSlashes_absolute rest'
      rw [htext, htext', List.cons.injEq] at heq
      obtain ⟨-, rfl⟩ := heq
      rcases hrest with ⟨rfl, rfl⟩ | ⟨-, rfl⟩
      · rcases hrest' with ⟨rfl, -⟩ | ⟨-, hne⟩
        · rfl
        · cases hne
      · rcases hrest' with ⟨-, hne⟩ | ⟨-, hjoined⟩
        · cases hne
        · rw [joinSlashes_inj_names hnames hnames' (List.cons.inj hjoined).2]

/-! ## Keys -/

/-- A path begins with the components of a directory. -/
def LiesBelow (root path : List Char) : Prop := components root <+: components path

theorem relativeTo_of_append {root path : List Char} {rel : List (List Char)}
    (h : components path = components root ++ rel) : relativeTo root path = rel := by
  unfold relativeTo
  rw [h]
  simp

theorem relativeTo_of_not {root path : List Char} (h : ¬ LiesBelow root path) :
    relativeTo root path = components path := by
  unfold relativeTo
  dsimp only
  rw [if_neg]
  rwa [List.isPrefixOf_iff_prefix]

theorem isRow_relativeTo (root path : List Char) : IsRow (relativeTo root path) := by
  by_cases h : LiesBelow root path
  · obtain ⟨rel, hrel⟩ := h
    rw [relativeTo_of_append hrel.symm]
    exact .of_append (hrel ▸ isRow_components path)
  · rw [relativeTo_of_not h]
    exact isRow_components path

/-- Two files below one directory, or two that do not lie below it, have the same key only if they
have the same components. -/
theorem components_eq_of_assetKey {root path path' : List Char}
    (hbelow : LiesBelow root path ↔ LiesBelow root path')
    (hkey : assetKey root path = assetKey root path') : components path = components path' := by
  rw [assetKey, assetKey, String.ofList_inj] at hkey
  have hrel := joinSlashes_inj (isRow_relativeTo root path) (isRow_relativeTo root path')
    (List.cons.inj hkey).2
  by_cases h : LiesBelow root path
  · obtain ⟨rel, hpath⟩ := h
    obtain ⟨rel', hpath'⟩ := hbelow.1 ⟨rel, hpath⟩
    rw [relativeTo_of_append hpath.symm, relativeTo_of_append hpath'.symm] at hrel
    rw [← hpath, ← hpath', hrel]
  · rwa [relativeTo_of_not h, relativeTo_of_not fun h' => h (hbelow.2 h')] at hrel

end FilePath

namespace FileTree

open FilePath (Counts)

/-- Parts that do not count lead nowhere. -/
theorem walk_filter {trail : List FileTree} {here t : FileTree} {parts : List (List Char)}
    (h : walk trail here parts = .found t) :
    walk trail here (parts.filter fun p => decide (Counts p)) = .found t := by
  fun_induction walk trail here parts with
  | case1 trail here => exact h
  | case2 | case6 | case7 => cases h
  | case3 trail here part rest entries hentries hstays ih =>
    have hcounts : ¬ Counts part := fun ⟨hnil, hdot⟩ => hstays.elim hnil hdot
    rw [List.filter_cons_of_neg (by simpa using hcounts)]
    exact ih h
  | case4 here rest entries hentries hmoves ih =>
    rw [List.filter_cons_of_pos (by decide), walk.eq_def]
    simp only [hentries, hmoves, if_false, if_true]
    exact ih h
  | case5 here rest entries hentries up trail hmoves ih =>
    rw [List.filter_cons_of_pos (by decide), walk.eq_def]
    simp only [hentries, hmoves, if_false, if_true]
    exact ih h
  | case8 trail here part rest entries hentries hmoves hup hlimit next hnext ih =>
    have hcounts : Counts part := not_or.1 hmoves
    rw [List.filter_cons_of_pos (by simpa using hcounts), walk.eq_def]
    simp only [hentries, hmoves, hup, hlimit, hnext, if_false]
    exact ih h

end FileTree

namespace Disk

open FileTree (walk)
open FilePath (Counts allParts components)

/-- The components of a path say which parts of its route count. -/
theorem filter_route {disk : Disk} {path : List Char} (hne : path ≠ []) :
    (disk.route path).filter (fun p => decide (Counts p)) =
      match components path with
      | ['/'] :: names => names
      | names => (disk.working.map String.toList ++ names).filter fun p => decide (Counts p) := by
  rcases FilePath.path_cases path with rfl | ⟨rest, rfl⟩ | ⟨hrel, hne⟩
  · exact absurd rfl hne
  · rw [FilePath.components_absolute]
    have hroute : disk.route ('/' :: rest) = [] :: allParts rest := by
      simp only [route, FilePath.parts, if_true]
      rfl
    rw [hroute, List.filter_cons_of_neg (by simp [Counts])]
    rfl
  · have hroute : disk.route path = disk.working.map String.toList ++ allParts path := by
      unfold route
      dsimp only
      split
      next => exact absurd rfl hrel
      next => rfl
    rw [FilePath.components_relative hrel hne, hroute]
    split
    next names heq =>
      have hslash := FilePath.slash_notMem_of_mem_allParts path _ (List.mem_cons_self ..)
      rw [(List.cons.inj heq).1] at hslash
      exact absurd (List.mem_singleton_self _) hslash
    next =>
      rw [List.filter_append, List.filter_append, allParts, List.filter_cons, List.filter_cons,
        List.filter_filter]
      simp only [Bool.and_self]

/-- What a path leads to, its route leads to without the parts that do not count. -/
theorem walk_of_locate {disk : Disk} {path : List Char} {t : FileTree}
    (h : disk.locate path = .found t) :
    path ≠ [] ∧
      walk [] disk.root ((disk.route path).filter fun p => decide (Counts p)) = .found t := by
  unfold locate at h
  split at h
  next => cases h
  next =>
    split at h
    next => cases h
    next =>
      split at h
      next => cases h
      next hne => exact ⟨hne, FileTree.walk_filter h⟩

/-- **Paths with the same components lead to the same file or directory.** -/
theorem locate_unique {disk : Disk} {path path' : List Char} {t t' : FileTree}
    (h : disk.locate path = .found t) (h' : disk.locate path' = .found t')
    (heq : components path = components path') : t = t' := by
  obtain ⟨hne, hwalk⟩ := walk_of_locate h
  obtain ⟨hne', hwalk'⟩ := walk_of_locate h'
  have hroute : (disk.route path).filter (fun p => decide (Counts p)) =
      (disk.route path').filter fun p => decide (Counts p) := by
    rw [filter_route hne, filter_route hne', heq]
  rw [hroute, hwalk'] at hwalk
  exact (FileTree.Walk.found.inj hwalk).symm

theorem of_read_eq_ok {disk : Disk} {path : List Char} {text : String}
    (h : disk.read path = .ok (some text)) :
    ∃ bytes, disk.locate path = .found (.file bytes) ∧ String.fromUTF8? bytes = some text := by
  unfold read at h
  split at h
  next => cases h
  next => cases h
  next => cases h
  next bytes hfound =>
    split at h
    next other htext =>
      cases h
      exact ⟨bytes, hfound, htext⟩
    next => cases h

/-- Files at paths with the same components hold the same text. -/
theorem read_unique {disk : Disk} {path path' : List Char} {text text' : String}
    (h : disk.read path = .ok (some text)) (h' : disk.read path' = .ok (some text'))
    (heq : components path = components path') : text = text' := by
  obtain ⟨bytes, hfound, htext⟩ := of_read_eq_ok h
  obtain ⟨bytes', hfound', htext'⟩ := of_read_eq_ok h'
  cases locate_unique hfound hfound' heq
  exact Option.some.inj (htext.symm.trans htext')

end Disk

end Stencil
