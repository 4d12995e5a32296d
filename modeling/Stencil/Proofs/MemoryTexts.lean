import Stencil.Proofs.KeptTemplates

/-!
# Texts in memory and the names that find them

A source in memory keeps its texts under paths, and a location makes the path of a name. Prefix and
suffix are arbitrary, and so are names: they may be empty, hold slashes, or look like parts of the
prefix or the suffix. Still the path tells names apart, but for the slashes in front of them:

> `pathOf_eq_iff`: two names have one path exactly if they are equal without their leading slashes.
> `read_ofTexts`: so a name finds the text that was written last under any of its spellings, and
> where there is none the fault carries the path.
> `source_after`: in a session the source is what all inserts up to now have made of it, whatever
> else was done in between.
> `memory_finds_last_text`: both together.
-/

namespace Stencil

namespace Location

/-- A name without its leading slashes. -/
def bare (name : String) : String := String.ofList (trimSlashes name.toList)

@[simp]
theorem toList_bare (name : String) : (bare name).toList = trimSlashes name.toList :=
  String.toList_ofList

/-- A name is some slashes and its bare form, which has no slash in front. -/
theorem bare_eq_iff {name core : String} :
    bare name = core ↔ core.toList.head? ≠ some '/' ∧
      ∃ n, name.toList = List.replicate n '/' ++ core.toList := by
  constructor
  · rintro rfl
    rw [toList_bare, trimSlashes]
    constructor
    · -- The first character that is kept is the first that is no slash.
      intro hslash
      have hkept := List.head?_dropWhile_not (· == '/') name.toList
      rw [hslash] at hkept
      simp at hkept
    · refine ⟨(name.toList.takeWhile (· == '/')).length, ?_⟩
      have hslashes : name.toList.takeWhile (· == '/') =
          List.replicate (name.toList.takeWhile (· == '/')).length '/' := by
        apply List.eq_replicate_of_mem
        intro c hc
        simpa using List.all_eq_true.1 List.all_takeWhile c hc
      rw [← hslashes, List.takeWhile_append_dropWhile]
  · rintro ⟨hcore, n, hname⟩
    have htrim : trimSlashes name.toList = core.toList := by
      rw [hname, trimSlashes, List.dropWhile_append_of_pos (by simp)]
      cases hlist : core.toList with
      | nil => rfl
      | cons c rest =>
        rw [hlist] at hcore
        have hc : (c == '/') = false := by simpa using hcore
        rw [List.dropWhile_cons, hc]
        rfl
    rw [bare, htrim, String.ofList_toList]

/-- One slash stands behind a prefix that is not empty and does not end in one. -/
theorem ofList_separator (pre : String) :
    String.ofList (separator pre.toList) =
      if pre = "" ∨ pre.toList.getLast? = some '/' then "" else "/" := by
  unfold separator
  split
  next hnone =>
    have hempty : pre = "" := by simpa using hnone
    rw [if_pos (.inl hempty)]
  next c hlast =>
    have hne : pre ≠ "" := by
      intro hempty
      rw [hempty] at hlast
      cases hlast
    by_cases hc : c = '/'
    · rw [if_pos hc, if_pos (.inr (by rw [hlast, hc]))]
    · rw [if_neg hc, if_neg (by simp [hne, hlast, hc])]

/-- The path of a name in one piece. -/
theorem pathOf_eq (l : Location) (name : String) :
    l.pathOf name =
      l.pre ++ (if l.pre = "" ∨ l.pre.toList.getLast? = some '/' then "" else "/") ++ bare name ++
        l.post := by
  rw [← ofList_separator, pathOf, String.ofList_append, String.ofList_append, String.ofList_append,
    String.ofList_toList, String.ofList_toList]
  rfl

/-- **The path tells names apart, but for the slashes in front of them.** -/
theorem pathOf_eq_iff (l : Location) (a b : String) :
    l.pathOf a = l.pathOf b ↔ bare a = bare b := by
  constructor
  · intro h
    rw [← String.toList_inj, pathOf_eq, pathOf_eq] at h
    simp only [String.toList_append] at h
    -- What stands before the name and behind it is the same in both paths.
    exact String.toList_inj.1 (List.append_cancel_left (List.append_cancel_right h))
  · intro h
    rw [pathOf_eq, pathOf_eq, h]

end Location

open Location (bare)

/-- The text that was written last under a spelling of a name. -/
def lastTextUnder (writes : List (String × String)) (name : String) : Option String :=
  (writes.reverse.find? fun w => bare w.1 = bare name).map Prod.snd

theorem Table.get?_eq_find? {α : Type} (t : Table α) (key : String) :
    t.get? key = (t.find? fun e => e.1 = key).map Prod.snd := by
  induction t with
  | nil => rfl
  | cons e rest ih =>
    by_cases hkey : e.1 = key
    · simp [get?, hkey]
    · simp [get?, hkey, ih]

namespace Source

/-- The texts that a row of writes leaves in memory: each stands under the path of its name. -/
theorem ofTexts_eq (l : Location) (texts : List (String × String)) :
    ofTexts l texts = memory l (Table.ofWrites (texts.map fun w => (l.pathOf w.1, w.2))) := by
  have hfold : ∀ t : Table String,
      texts.foldl (fun s w => s.insert w.1 w.2) (memory l t) =
        memory l (texts.foldl (fun t w => t.insert (l.pathOf w.1) w.2) t) := by
    induction texts with
    | nil => exact fun t => rfl
    | cons w rest ih => exact fun t => ih (t.insert (l.pathOf w.1) w.2)
  rw [ofTexts, hfold, Table.ofWrites, List.foldl_map]

theorem ofTexts_append (l : Location) (before later : List (String × String)) :
    ofTexts l (before ++ later) =
      later.foldl (fun s w => s.insert w.1 w.2) (ofTexts l before) := by
  rw [ofTexts, ofTexts, List.foldl_append]

/-- **A name finds the text that was written last under one of its spellings.** -/
theorem read_ofTexts (l : Location) (texts : List (String × String)) (around : Surroundings)
    (name : String) :
    (ofTexts l texts).read around name =
      (lastTextUnder texts name).elim (.error (.notFound (l.pathOf name))) .ok := by
  have hfind : Table.get? (Table.ofWrites (texts.map fun w => (l.pathOf w.1, w.2)))
      (l.pathOf name) = lastTextUnder texts name := by
    rw [Table.ofWrites, Table.get?_foldl, Table.get?, Option.or_none, Table.get?_eq_find?,
      ← List.map_reverse, List.find?_map, Option.map_map, lastTextUnder]
    -- Two names are the same key exactly if they are spellings of one name.
    simp only [Function.comp_def, Location.pathOf_eq_iff]
  rw [ofTexts_eq, read, hfind]
  cases lastTextUnder texts name with
  | none => rfl
  | some text => rfl

end Source

/-! ## Histories -/

/-- The texts that have been inserted, given those from before a command. -/
def Command.insertedTexts (inserted : List (String × String)) : Command → List (String × String)
  | .insertText name text => inserted ++ [(name, text)]
  | .compileText .. | .compile .. | .render .. | .register .. | .registerAll .. | .hasHelper ..
  | .countHelpers | .clearKept | .putAssets .. | .clearAssets | .replaceFiles .. | .clone ..
  | .setChain .. | .describe .. => inserted

namespace Session

variable {l : Location} {texts : List (String × String)} {s : Session}

/-- **One command**: only an insert changes a source in memory. -/
theorem source_step (h : s.engine.source = some (.ofTexts l texts)) (c : Command) :
    (s.step c).2.engine.source = some (.ofTexts l (c.insertedTexts texts)) := by
  rw [(s.engine_step c).source]
  change c.sourceAfter s.engine.source = _
  rw [h]
  cases c with
  | insertText name text =>
    rw [Command.sourceAfter, Command.insertedTexts, Source.ofTexts_append]
    rfl
  | _ => rfl

/-- **A row of commands.** -/
theorem source_after (h : s.engine.source = some (.ofTexts l texts)) (commands : List Command) :
    (s.after commands).engine.source =
      some (.ofTexts l (commands.foldl Command.insertedTexts texts)) :=
  after_of_step (R := fun texts s => s.engine.source = some (.ofTexts l texts)) source_step h
    commands

/-- **A source in memory finds the text that was written last under a name, up to leading slashes.**
Whatever prefix and suffix a location has, two names share a path exactly if they are equal without
their leading slashes (`bare`); the path is prefix, bare name and suffix, with one slash behind a
prefix that is not empty and does not end in one.

Start a session with a source in memory at this location, which holds any texts, and carry out any
row of commands. Then the source answers a name with the text that was inserted last under a name
with this bare form, and if there is none, with a fault that carries the path of the name. -/
theorem memory_finds_last_text (l : Location) :
    (∀ a b, l.pathOf a = l.pathOf b ↔ bare a = bare b) ∧
      (∀ name core, bare name = core ↔ core.toList.head? ≠ some '/' ∧
        ∃ n, name.toList = List.replicate n '/' ++ core.toList) ∧
      (∀ name, l.pathOf name =
        l.pre ++ (if l.pre = "" ∨ l.pre.toList.getLast? = some '/' then "" else "/") ++ bare name ++
          l.post) ∧
      ∀ (texts : List (String × String)) (around : Surroundings) (handle : String)
        (commands : List Command),
        let s := (start (Engine.new (some (.ofTexts l texts)) around) handle).after commands
        ∃ read, s.engine.reader = some read ∧
          ∀ name, read name =
            (lastTextUnder (commands.foldl Command.insertedTexts texts) name).elim
              (.error (.notFound (l.pathOf name))) .ok := by
  refine ⟨l.pathOf_eq_iff, fun name core => Location.bare_eq_iff, l.pathOf_eq, ?_⟩
  intro texts around handle commands s
  have hsource : s.engine.source =
      some (.ofTexts l (commands.foldl Command.insertedTexts texts)) := source_after rfl commands
  refine ⟨(Source.ofTexts l (commands.foldl Command.insertedTexts texts)).read s.engine.around,
    ?_, fun name => Source.read_ofTexts l _ _ name⟩
  rw [Engine.reader, hsource]
  rfl

end Session

end Stencil
