import Stencil.Proofs.BlockGrammar
import Stencil.Proofs.RespelledTags

/-!
# The stages of reading

A template is read in stages: a tag is cut out of the text, its content is read as words, the words
are put together to a tag, the tag is taken into the blocks that are open, and in the end none may be
open. Each stage has faults of its own, so the cause of a fault tells at which stage it came up
(`SyntaxCause.stage`).
-/

namespace Stencil

/-- The stages of reading. -/
inductive Stage where
  /-- A tag has no end. -/
  | cutting
  /-- The content of a tag is no row of words. -/
  | wording
  /-- The words make no tag. -/
  | shaping
  /-- The tag does not go with the blocks that are open. -/
  | nesting
  /-- The text ends in a block. -/
  | ending
  deriving DecidableEq

/-- The stage at which a fault comes up. -/
def SyntaxCause.stage : SyntaxCause → Stage
  | unterminatedComment | unterminatedTag _ => .cutting
  | unterminatedText | missingValue | invalidPath _ => .wording
  | emptyTag | nameMissing | blockWithoutName | notAnIdentifier | positionalAfterNamed
  | namedArgumentOn _ | argumentCount _ | regionName _ | includeWithoutName
  | includeNamedArgument | includeArgumentCount => .shaping
  | elseOutside | elseInRegion | duplicateElse _ | unexpectedCloser _ | mismatchedCloser .. =>
    .nesting
  | unclosedBlock _ => .ending

theorem SyntaxCause.eq_of_cutting {e : SyntaxCause} (h : e.stage = .cutting) :
    e = .unterminatedComment ∨ ∃ raw, e = .unterminatedTag raw := by
  cases e with
  | unterminatedComment => exact .inl rfl
  | unterminatedTag raw => exact .inr ⟨raw, rfl⟩
  | _ => cases h

theorem stage_of_cut {inner : List Char} {e : SyntaxCause} (h : cut inner = .error e) :
    e.stage = .cutting := by
  unfold cut at h
  dsimp only at h
  split at h
  next =>
    split at h
    next => cases h
    next =>
      cases h
      rfl
  next =>
    split at h
    next => cases h
    next =>
      cases h
      rfl
  next =>
    split at h
    next => cases h
    next =>
      cases h
      rfl

namespace Word

theorem stage_of_readParam {cs : List Char} {e : SyntaxCause} (h : readParam cs = .error e) :
    e.stage = .wording := by
  unfold readParam at h
  split at h
  next =>
    cases h
    rfl
  next =>
    dsimp only at h
    split at h
    next =>
      split at h
      next => cases h
      next =>
        cases h
        rfl
    next =>
      split at h
      next => cases h
      next =>
        cases h
        rfl

/-- A word cannot be read where its argument cannot. -/
theorem readFirst_eq_error {cs : List Char} {e : SyntaxCause} (h : readFirst cs = .error e) :
    ∃ rest, readParam rest = .error e ∧
      ((∃ key, splitKey? cs = some (key, rest)) ∨ splitKey? cs = none ∧ rest = cs) := by
  unfold readFirst at h
  split at h
  next key rest hkey => exact ⟨rest, of_map_eq_error h, .inl ⟨key, hkey⟩⟩
  next hkey => exact ⟨cs, of_map_eq_error h, .inr ⟨hkey, rfl⟩⟩

theorem stage_of_readAll {cs : List Char} {e : SyntaxCause} (h : readAll cs = .error e) :
    e.stage = .wording := by
  fun_induction readAll cs with
  | case1 => cases h
  | case2 cs _ e' hfirst =>
    cases h
    obtain ⟨_, hparam, -⟩ := readFirst_eq_error hfirst
    exact stage_of_readParam hparam
  | case3 cs _ w after _ _ e' hrest ih =>
    cases h
    exact ih hrest
  | case4 => cases h

theorem stage_of_arguments {words : List Word} {ps : List Param} {ns : Table Param}
    {e : SyntaxCause} (h : arguments words ps ns = .error e) : e.stage = .shaping := by
  induction words generalizing ps ns with
  | nil => cases h
  | cons w rest ih =>
    cases w with
    | positional p =>
      rw [arguments] at h
      split at h
      next => exact ih h
      next =>
        cases h
        rfl
    | named key p =>
      rw [arguments] at h
      exact ih h

end Word

namespace Tag

theorem stage_of_opening {name : String} {params : List Param} {named : Table Param}
    {e : SyntaxCause} (h : opening name params named = .error e) : e.stage = .shaping := by
  unfold opening at h
  split at h
  next =>
    split at h
    next =>
      cases h
      rfl
    next =>
      split at h
      next => cases h
      next =>
        cases h
        rfl
  next =>
    split at h
    next =>
      split at h
      next =>
        cases h
        rfl
      next =>
        split at h
        next => cases h
        next =>
          cases h
          rfl
    next => cases h

theorem stage_of_ofExpression {x : List Char} {words : List Word} {escape : Bool} {e : SyntaxCause}
    (hreads : Word.readAll x = .ok words) (h : ofExpression x escape = .error e) :
    e.stage = .shaping := by
  unfold ofExpression at h
  rw [hreads] at h
  split at h
  next heq => cases heq
  next =>
    cases h
    rfl
  next => cases h
  next => cases h
  next =>
    cases h
    rfl
  next first rest _ _ _ heq =>
    split at h
    next =>
      cases h
      rfl
    next => exact Word.stage_of_arguments (of_map_eq_error h)

theorem stage_of_ofOpener {x : List Char} {words : List Word} {e : SyntaxCause}
    (hreads : Word.readAll x = .ok words) (h : ofOpener x = .error e) : e.stage = .shaping := by
  unfold ofOpener at h
  rw [hreads] at h
  split at h
  next heq => cases heq
  next =>
    cases h
    rfl
  next first rest heq =>
    split at h
    next =>
      cases h
      rfl
    next name hname =>
      split at h
      next e' harguments =>
        cases h
        exact Word.stage_of_arguments harguments
      next => exact stage_of_opening (of_map_eq_error h)

theorem stage_of_ofInclude {x : List Char} {words : List Word} {e : SyntaxCause}
    (hreads : Word.readAll x = .ok words) (h : ofInclude x = .error e) : e.stage = .shaping := by
  unfold ofInclude at h
  rw [hreads] at h
  dsimp only at h
  split at h
  next =>
    cases h
    rfl
  next =>
    split at h
    next =>
      cases h
      rfl
    next => cases h
    next => cases h
    next =>
      cases h
      rfl
    next =>
      cases h
      rfl

/-- A content that cannot be read is no row of words, or its words make no tag. -/
theorem stage_of_ofContent {form : TagForm} {content : List Char} {e : SyntaxCause}
    (h : ofContent form content = .error e) :
    e.stage = .shaping ∨ e.stage = .wording ∧
      ∃ kind x, words? form content = some (kind, x) ∧ Word.readAll x = .error e := by
  cases hwords : words? form content with
  | some made =>
    obtain ⟨kind, x⟩ := made
    rw [ofContent_eq_ofKind hwords] at h
    cases hreads : Word.readAll x with
    | error e' =>
      rw [ofKind_of_error hreads] at h
      cases h
      exact .inr ⟨Word.stage_of_readAll hreads, kind, x, rfl, hreads⟩
    | ok words =>
      cases kind with
      | expression escape => exact .inl (stage_of_ofExpression hreads h)
      | opener => exact .inl (stage_of_ofOpener hreads h)
      | inclusion => exact .inl (stage_of_ofInclude hreads h)
  | none =>
    rcases ofContent_wordless hwords with ⟨-, hcomment⟩ | ⟨-, ⟨rest, -, hcloser⟩ | ⟨-, helse⟩⟩
    · cases hcomment.symm.trans h
    · cases hcloser.symm.trans h
    · cases helse.symm.trans h

end Tag

end Stencil
