import Stencil.Proofs.KeptTemplates

/-!
# The assets that a session has registered

Lists of pairs fill the store of assets and one command empties it, in any order, with commands of
every other kind in between. A key may be spelled in several ways, within one list and in different
ones, and a list may end early at an empty key. What the store answers is told by the history alone:

> `get?_putAll`: a list writes the pairs in front of its first empty key; under a key stands the last
> of them whose key has this form, or what stood there before.
> `shows_step`, `shows_after`: so the store shows the pairs that were written since it was last
> emptied, after one command and after any row of them.
> `last_registered_asset_found`: looking up a key, in whatever spelling, finds the last of them.
-/

namespace Stencil

namespace AssetStore

/-! ## Lists of pairs -/

/-- The pairs of a list that are written: those in front of the first empty key. -/
def written (pairs : List (String × String)) : List (String × String) :=
  pairs.takeWhile fun p => p.1 ≠ ""

/-- The text of the last pair whose key has a form. -/
def lastText (pairs : List (String × String)) (form : String) : Option String :=
  (pairs.reverse.find? fun p => normalize p.1 = form).map Prod.snd

/-- The form of a key has forward slashes only, and one in front. -/
theorem toList_normalize (key : String) :
    (normalize key).toList =
      if (forwardSlashes key.toList).head? = some '/' then forwardSlashes key.toList
      else '/' :: forwardSlashes key.toList := by
  unfold normalize
  split
  next rest heq =>
    rw [heq, String.toList_ofList]
    exact (if_pos rfl).symm
  next hne =>
    rw [String.toList_ofList, if_neg]
    intro hhead
    obtain ⟨rest, hrest⟩ := List.head?_eq_some_iff.1 hhead
    exact hne rest hrest

variable {pairs : List (String × String)} {form : String}

theorem lastText_append (before later : List (String × String)) (form : String) :
    lastText (before ++ later) form = (lastText later form).or (lastText before form) := by
  unfold lastText
  rw [List.reverse_append, List.find?_append]
  cases later.reverse.find? fun p => normalize p.1 = form with
  | none => rfl
  | some p => rfl

theorem lastText_cons (p : String × String) (rest : List (String × String)) (form : String) :
    lastText (p :: rest) form =
      (lastText rest form).or (if normalize p.1 = form then some p.2 else none) := by
  have hsingle : lastText [p] form = if normalize p.1 = form then some p.2 else none := by
    by_cases hp : normalize p.1 = form
    · simp [lastText, hp]
    · simp [lastText, hp]
  rw [← hsingle]
  exact lastText_append [p] rest form

theorem lastText_eq_none (h : ∀ p ∈ pairs, normalize p.1 ≠ form) : lastText pairs form = none := by
  have hnone : (pairs.reverse.find? fun p => normalize p.1 = form) = none := by
    refine List.find?_eq_none.2 fun p hp => ?_
    simpa using h p (List.mem_reverse.1 hp)
  rw [lastText, hnone]
  rfl

theorem written_cons {key text : String} {rest : List (String × String)} (hkey : key ≠ "") :
    written ((key, text) :: rest) = (key, text) :: written rest :=
  List.takeWhile_cons_of_pos (by simpa using hkey)

/-- **What stands in the store after a list of pairs**, whether the list came to an empty key or
not. -/
theorem get?_putAll (store : AssetStore) (pairs : List (String × String)) (form : String) :
    (store.putAll pairs).2.get? form = (lastText (written pairs) form).or (store.get? form) := by
  induction pairs generalizing store with
  | nil => rfl
  | cons p rest ih =>
    obtain ⟨key, text⟩ := p
    by_cases hkey : key = ""
    · subst hkey
      rfl
    · rw [putAll, if_neg hkey, ih, Table.get?_insert, written_cons hkey, lastText_cons,
        Option.or_assoc]
      split
      next => rfl
      next => rfl

theorem putAll_of_keys (store : AssetStore) (h : ∀ p ∈ pairs, p.1 ≠ "") :
    (store.putAll pairs).1 = .ok () := by
  induction pairs generalizing store with
  | nil => rfl
  | cons p rest ih =>
    obtain ⟨hkey, hrest⟩ := List.forall_mem_cons.1 h
    rw [putAll, if_neg hkey]
    exact ih _ hrest

/-- An empty key is a fault, and the store is left as the pairs in front of it have left it. -/
theorem putAll_of_empty (store : AssetStore) {before : List (String × String)}
    (h : ∀ p ∈ before, p.1 ≠ "") (text : String) (rest : List (String × String)) :
    store.putAll (before ++ ("", text) :: rest) = (.error .emptyKey, (store.putAll before).2) := by
  induction before generalizing store with
  | nil => rfl
  | cons p before ih =>
    obtain ⟨hkey, hbefore⟩ := List.forall_mem_cons.1 h
    rw [List.cons_append, putAll, if_neg hkey, ih _ hbefore, putAll, if_neg hkey]

/-- A list has no empty key, or there is a first one. -/
theorem keys_or_empty (pairs : List (String × String)) :
    (∀ p ∈ pairs, p.1 ≠ "") ∨ ∃ before text rest,
      pairs = before ++ ("", text) :: rest ∧ ∀ p ∈ before, p.1 ≠ "" := by
  induction pairs with
  | nil => exact .inl (List.forall_mem_nil _)
  | cons p rest ih =>
    obtain ⟨key, text⟩ := p
    by_cases hkey : key = ""
    · exact .inr ⟨[], text, rest, by rw [hkey]; rfl, List.forall_mem_nil _⟩
    · rcases ih with hrest | ⟨before, text', rest', rfl, hbefore⟩
      · exact .inl (List.forall_mem_cons.2 ⟨hkey, hrest⟩)
      · exact .inr ⟨(key, text) :: before, text', rest', rfl, List.forall_mem_cons.2 ⟨hkey, hbefore⟩⟩

end AssetStore

/-! ## Histories -/

open AssetStore (written lastText normalize forwardSlashes)

/-- The pairs that have been registered since the store was last emptied, given those from before a
command. -/
def Command.registeredAssets (registered : List (String × String)) :
    Command → List (String × String)
  | .putAssets pairs => registered ++ written pairs
  | .clearAssets => []
  | .compileText .. | .compile .. | .render .. | .register .. | .registerAll .. | .hasHelper ..
  | .countHelpers | .clearKept | .insertText .. | .replaceFiles .. | .clone .. | .setChain ..
  | .describe .. => registered

/-- The pairs that a row of commands has registered since the store was last emptied, in order. -/
def registeredAssets (commands : List Command) : List (String × String) :=
  commands.foldl Command.registeredAssets []

/-- What the command replies that registers a list, given how the list was written. -/
def Reply.ofPut : Except Fault Unit → Reply
  | .ok _ => .done
  | .error e => .failed e

namespace Session

/-- The store of assets behind a session. -/
def assets (s : Session) : AssetStore := s.engine.around.assets

/-- The store holds, under each form of keys, the last text that was registered, and nothing else. -/
def ShowsAssets (s : Session) (registered : List (String × String)) : Prop :=
  ∀ form, s.assets.get? form = lastText registered form

variable {s : Session} {registered : List (String × String)}

theorem run_putAssets (s : Session) (pairs : List (String × String)) :
    s.run (.putAssets pairs) =
      (.ofPut (s.assets.putAll pairs).1,
        s.withAround { s.engine.around with assets := (s.assets.putAll pairs).2 }) := by
  refine Prod.ext ?_ (s.run_putAssets_snd pairs)
  unfold run assets
  dsimp only
  cases (s.engine.around.assets.putAll pairs).1 with
  | ok _ => rfl
  | error e => rfl

/-- **One command.** -/
theorem shows_step (h : s.ShowsAssets registered) (c : Command) :
    (s.step c).2.ShowsAssets (c.registeredAssets registered) := by
  intro form
  have hassets : (s.step c).2.assets = (c.aroundAfter s.engine.around).assets :=
    congrArg Surroundings.assets (s.engine_step c).around
  rw [hassets]
  cases c with
  | putAssets pairs =>
    change (s.assets.putAll pairs).2.get? form = _
    rw [AssetStore.get?_putAll, h form, ← AssetStore.lastText_append]
    rfl
  | clearAssets => rfl
  | _ => exact h form

/-- **A row of commands.** -/
theorem shows_after (h : s.ShowsAssets registered) (commands : List Command) :
    (s.after commands).ShowsAssets (commands.foldl Command.registeredAssets registered) :=
  after_of_step (R := fun registered s => s.ShowsAssets registered) shows_step h commands

theorem shows_start (source : Option Source) (disk : Disk) (handle : String) :
    (start (Engine.new source ⟨[], disk⟩) handle).ShowsAssets [] :=
  fun _ => rfl

theorem step_putAssets (s : Session) (pairs : List (String × String)) :
    s.step (.putAssets pairs) =
      (.ofPut (s.assets.putAll pairs).1,
        { s with engine := s.engine.clearAsked }.withAround
          { s.engine.around with assets := (s.assets.putAll pairs).2 }) :=
  run_putAssets { s with engine := s.engine.clearAsked } pairs

/-- A list without an empty key is registered. -/
theorem step_putAssets_of_keys (s : Session) {pairs : List (String × String)}
    (h : ∀ p ∈ pairs, p.1 ≠ "") : (s.step (.putAssets pairs)).1 = .done := by
  rw [step_putAssets, AssetStore.putAll_of_keys s.assets h]
  rfl

/-- A list with an empty key is refused, and the session is left as the pairs in front of it leave
it. -/
theorem step_putAssets_of_empty (s : Session) {before : List (String × String)}
    (h : ∀ p ∈ before, p.1 ≠ "") (text : String) (rest : List (String × String)) :
    s.step (.putAssets (before ++ ("", text) :: rest)) =
      (.failed .emptyKey, (s.step (.putAssets before)).2) := by
  rw [step_putAssets, step_putAssets, AssetStore.putAll_of_empty s.assets h]
  rfl

/-- **The last registered asset is found.** Start a session with an empty store of assets and carry
out any row of commands. Looking up a key finds the text of the last pair that was registered since
the store was last emptied and whose key has the same form, and nothing where there is no such pair;
the form of a key has slashes for backslashes, and a slash in front.

One more list is refused exactly if one of its keys is empty. Then the session is left as the pairs
in front of the first empty key leave it, and nothing else in the store has changed. -/
theorem last_registered_asset_found (source : Option Source) (disk : Disk) (handle : String)
    (commands : List Command) :
    let s := (start (Engine.new source ⟨[], disk⟩) handle).after commands
    (∀ key, s.assets.find? key = lastText (registeredAssets commands) (normalize key)) ∧
      (∀ key, (normalize key).toList =
        if (forwardSlashes key.toList).head? = some '/' then forwardSlashes key.toList
        else '/' :: forwardSlashes key.toList) ∧
      ∀ pairs,
        ((∃ e, (s.step (.putAssets pairs)).1 = .failed e) ↔ ∃ p ∈ pairs, p.1 = "") ∧
        ∀ before text rest, pairs = before ++ ("", text) :: rest → (∀ p ∈ before, p.1 ≠ "") →
          (s.step (.putAssets pairs)).1 = .failed .emptyKey ∧
          (s.step (.putAssets pairs)).2 = (s.step (.putAssets before)).2 ∧
          ∀ form, (∀ p ∈ before, normalize p.1 ≠ form) →
            (s.step (.putAssets pairs)).2.assets.get? form = s.assets.get? form := by
  intro s
  have hshows : s.ShowsAssets (registeredAssets commands) :=
    shows_after (shows_start source disk handle) commands
  refine ⟨fun key => hshows (normalize key), AssetStore.toList_normalize, fun pairs => ⟨?_, ?_⟩⟩
  · rcases AssetStore.keys_or_empty pairs with hkeys | ⟨before, text, rest, rfl, hbefore⟩
    · rw [step_putAssets_of_keys s hkeys]
      exact ⟨fun ⟨e, he⟩ => absurd he (by simp), fun ⟨p, hp, hempty⟩ => absurd hempty (hkeys p hp)⟩
    · rw [step_putAssets_of_empty s hbefore]
      exact ⟨fun _ => ⟨("", text), by simp, rfl⟩, fun _ => ⟨.emptyKey, rfl⟩⟩
  · rintro before text rest rfl hbefore
    rw [step_putAssets_of_empty s hbefore]
    refine ⟨rfl, rfl, fun form hform => ?_⟩
    have hother : lastText (written before) form = none :=
      AssetStore.lastText_eq_none fun p hp => hform p ((List.takeWhile_sublist _).subset hp)
    rw [step_putAssets]
    change (s.assets.putAll before).2.get? form = _
    rw [AssetStore.get?_putAll, hother, Option.none_or]

/-- Two spellings of a key in one list, a list that ends early, and a store that was emptied. -/
theorem last_registered_asset_found_of_spellings :
    let commands : List Command := [.putAssets [("/x", "0")], .clearAssets,
      .putAssets [("a\\b", "1"), ("/a/b", "2"), ("c", "3")],
      .putAssets [("/c", "4"), ("", "5"), ("a/b", "6")]]
    let s := (start (Engine.new none ⟨[], .empty⟩) "main").after commands
    s.assets.find? "a/b" = some "2" ∧ s.assets.find? "\\c" = some "4" ∧
      s.assets.find? "/x" = none ∧
      (s.step (.putAssets [("d", "7"), ("", "8")])).1 = .failed .emptyKey := by
  intro commands s
  obtain ⟨hfind, -, hput⟩ := last_registered_asset_found none .empty "main" commands
  refine ⟨(hfind "a/b").trans (by decide), (hfind "\\c").trans (by decide),
    (hfind "/x").trans (by decide), ?_⟩
  exact ((hput [("d", "7"), ("", "8")]).2 [("d", "7")] "8" [] rfl (by decide)).1

end Session

end Stencil
