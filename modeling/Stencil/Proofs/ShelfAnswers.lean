import Stencil.Render

/-!
# What a shelf answers

A shelf is asked for the nodes of named templates (`Shelf.load`), and most of the time it changes
by being asked. What it answers does not: `Shelf.answer` is the answer as a function of the name,
and

> `load_fst`: `load` gives this answer.
> `answer_load`: after `load` the shelf answers what it answered before, under every name.

The reason is that only what was just read and parsed is ever kept, and only where nothing was
kept before. A shelf with nothing kept answers what reading and parsing give at that moment.
-/

namespace Stencil.Shelf

/-- The nodes that a shelf in front of a source has for a name: kept ones, or else those that
reading and parsing give. -/
def answer (shelf : Shelf) (source : Option Reader) (name : String) : Except Fault (List Node) :=
  match source with
  | none => .error (.noSource name)
  | some read =>
    match shelf.kept.get? name with
    | some nodes => .ok nodes
    | none => read name >>= parse

/-- The shelf answers what reading and parsing at every use would give. -/
def Fresh (source : Option Reader) (shelf : Shelf) : Prop :=
  ∀ name, shelf.answer source name = empty.answer source name

variable {source : Option Reader} {keeps : Bool} {name : String} {shelf : Shelf}

/-- Only what is kept decides, not what was asked for. -/
theorem answer_congr {other : Shelf} (h : shelf.kept = other.kept) :
    shelf.answer source name = other.answer source name := by
  unfold answer
  rw [h]

theorem fresh_of_kept_eq_nil (h : shelf.kept = []) : Fresh source shelf :=
  fun _ => answer_congr h

/-- All that a load can do to what is kept: nothing, or to add the nodes that reading and parsing
give, under a name without kept nodes. -/
theorem kept_load (source : Option Reader) (keeps : Bool) (name : String) (shelf : Shelf) :
    (shelf.load source keeps name).2.kept = shelf.kept ∨
      ∃ read nodes, source = some read ∧ keeps = true ∧ shelf.kept.get? name = none ∧
        read name >>= parse = .ok nodes ∧
        (shelf.load source keeps name).2.kept = shelf.kept.insert name nodes := by
  cases source with
  | none => exact .inl rfl
  | some read =>
    unfold load
    dsimp only
    cases hkept : shelf.kept.get? name with
    | some nodes => exact .inl rfl
    | none =>
      cases hread : read name with
      | error e => exact .inl rfl
      | ok text =>
        cases hparse : parse text with
        | error e => simp [hparse]
        | ok nodes =>
          cases keeps with
          | false => simp [hparse]
          | true =>
            have hfresh : read name >>= parse = .ok nodes := by
              rw [hread]
              exact hparse
            exact .inr ⟨read, nodes, rfl, rfl, rfl, hfresh, by simp [hparse]⟩

theorem load_fst : (shelf.load source keeps name).1 = shelf.answer source name := by
  unfold load answer
  cases source with
  | none => rfl
  | some read =>
    dsimp only
    cases shelf.kept.get? name with
    | some nodes => rfl
    | none =>
      cases read name with
      | error e => rfl
      | ok text =>
        cases hparse : parse text with
        | error e => simp [hparse, bind, Except.bind]
        | ok nodes => simp [hparse, bind, Except.bind]

/-- Being asked does not change what a shelf answers. -/
theorem answer_load (other : String) :
    (shelf.load source keeps name).2.answer source other = shelf.answer source other := by
  rcases kept_load source keeps name shelf with h | ⟨read, nodes, rfl, -, hnone, hread, h⟩
  · exact answer_congr h
  · unfold answer
    rw [h, Table.get?_insert]
    by_cases hname : name = other
    · -- The name was not there, so before the load the answer came from the source as well.
      subst hname
      rw [if_pos rfl, hnone]
      exact hread.symm
    · rw [if_neg hname]

/-- Without an answer nothing is kept that was not kept before. -/
theorem kept_load_of_error {e : Fault} (h : shelf.answer source name = .error e) :
    (shelf.load source keeps name).2.kept = shelf.kept := by
  rcases kept_load source keeps name shelf with hkept | ⟨read, nodes, rfl, -, hnone, hread, -⟩
  · exact hkept
  · unfold answer at h
    rw [hnone] at h
    cases hread.symm.trans h

/-- Where templates are kept, an answer is kept. -/
theorem get?_kept_load_of_ok {nodes : List Node} (h : shelf.answer source name = .ok nodes) :
    (shelf.load source true name).2.kept.get? name = some nodes := by
  unfold answer at h
  unfold load
  cases source with
  | none => cases h
  | some read =>
    dsimp only at h ⊢
    cases hkept : shelf.kept.get? name with
    | some kept =>
      rw [hkept] at h
      cases h
      exact hkept
    | none =>
      rw [hkept] at h
      cases hread : read name with
      | error e =>
        rw [hread] at h
        cases h
      | ok text =>
        have hparse : parse text = .ok nodes := by simpa [hread, bind, Except.bind] using h
        simp [hparse, Table.get?_insert]

/-- What is kept stays as it is. -/
theorem get?_kept_load_of_some {other : String} {nodes : List Node}
    (h : shelf.kept.get? other = some nodes) :
    (shelf.load source keeps name).2.kept.get? other = some nodes := by
  rcases kept_load source keeps name shelf with hkept | ⟨_, _, -, -, hnone, -, hkept⟩
  · rw [hkept, h]
  · have hname : name ≠ other := by
      rintro rfl
      cases hnone.symm.trans h
    rw [hkept, Table.get?_insert, if_neg hname, h]

/-- Nothing is kept under other names than the one that was asked for. -/
theorem get?_kept_load_of_ne {other : String} (h : name ≠ other) :
    (shelf.load source keeps name).2.kept.get? other = shelf.kept.get? other := by
  rcases kept_load source keeps name shelf with hkept | ⟨_, _, -, -, -, -, hkept⟩
  · rw [hkept]
  · rw [hkept, Table.get?_insert, if_neg h]

/-- The source is asked for a name exactly if nothing is kept under it, and then once. -/
theorem asked_load (source : Option Reader) (keeps : Bool) (name : String) (shelf : Shelf) :
    (shelf.load source keeps name).2.asked =
      shelf.asked ++ if source.isSome ∧ shelf.kept.get? name = none then [name] else [] := by
  unfold load
  cases source with
  | none => simp
  | some read =>
    dsimp only
    cases hkept : shelf.kept.get? name with
    | some nodes => simp
    | none =>
      simp only [Option.isSome_some, and_self, if_true]
      cases read name with
      | error e => rfl
      | ok text =>
        dsimp only
        cases parse text with
        | error e => rfl
        | ok nodes => cases keeps <;> rfl

/-- Where a shelf has no answer, either there is nowhere to look or the source was asked. -/
theorem asked_of_missing (keeps : Bool) {e : Fault} (h : shelf.answer source name = .error e) :
    e = .noSource name ∨ (shelf.load source keeps name).2.asked = shelf.asked ++ [name] := by
  rw [asked_load]
  unfold answer at h
  cases source with
  | none =>
    cases h
    exact .inl rfl
  | some read =>
    cases hkept : shelf.kept.get? name with
    | some nodes =>
      rw [hkept] at h
      cases h
    | none => exact .inr (by simp)

theorem Fresh.load (h : Fresh source shelf) : Fresh source (shelf.load source keeps name).2 :=
  fun other => (answer_load other).trans (h other)

/-- A shelf that keeps nothing stays without kept templates. -/
theorem kept_load_of_not_keeping (h : shelf.kept = []) :
    (shelf.load source false name).2.kept = [] := by
  rcases kept_load source false name shelf with hkept | ⟨_, _, _, hkeeps, _⟩
  · rw [hkept, h]
  · cases hkeeps

end Stencil.Shelf
