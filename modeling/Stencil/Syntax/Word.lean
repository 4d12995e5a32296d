import Stencil.Syntax.Param
import Stencil.Text.Blank
import Stencil.Fault

/-!
# The words of a tag

The content of a tag is a row of words, separated by blanks: arguments, and arguments under a
name (`key=value`). A text literal stands between two equal quotes; inside it a backslash
keeps the next character from meaning anything. A literal ends a word even where no blank
follows it.
-/

namespace Stencil

open Text

/-- A word of a tag. -/
inductive Word where
  | positional (p : Param)
  | named (key : String) (p : Param)

namespace Word

/-- Reads the rest of a text literal up to its closing quote: the text with the backslashes
resolved, and what follows the quote. -/
def readQuoted (quote : Char) : List Char → Option (List Char × List Char)
  | [] => none
  | '\\' :: [] => none
  | '\\' :: c :: rest => (readQuoted quote rest).map fun (s, after) => (c :: s, after)
  | c :: rest =>
    if c = quote then some ([], rest)
    else (readQuoted quote rest).map fun (s, after) => (c :: s, after)

/-- Whether a character opens a text literal. -/
def isQuote (c : Char) : Bool := c == '\x22' || c == '\x27'

/-- The longest start of a text without blanks, and the rest. -/
def splitBlank (cs : List Char) : List Char × List Char :=
  (cs.takeWhile fun c => !isBlank c, cs.dropWhile fun c => !isBlank c)

/-- Reads one argument at the very start of a text, and what follows it. -/
def readParam (cs : List Char) : Except SyntaxCause (Param × List Char) :=
  match cs with
  | [] => .error .missingValue
  | c :: rest =>
    if isQuote c then
      match readQuoted c rest with
      | some (s, after) => .ok (.literal (.text (String.ofList s)), after)
      | none => .error .unterminatedText
    else
      let (word, after) := splitBlank cs
      match Param.ofWord? word with
      | some p => .ok (p, after)
      | none => .error (.invalidPath (String.ofList word))

/-- The characters of a key. -/
def isKeyChar (c : Char) : Bool := isAlphanumeric c || c == '_' || c == '-'

/-- Splits `key=` off the start of a text. -/
def splitKey? (cs : List Char) : Option (List Char × List Char) :=
  match cs.takeWhile isKeyChar, cs.dropWhile isKeyChar with
  | c :: key, '=' :: rest => some (c :: key, rest)
  | _, _ => none

/-- Reads one word at the very start of a text, and what follows it. -/
def readFirst (cs : List Char) : Except SyntaxCause (Word × List Char) :=
  match splitKey? cs with
  | some (key, rest) => (readParam rest).map fun (p, after) => (named (String.ofList key) p, after)
  | none => (readParam cs).map fun (p, after) => (positional p, after)

theorem readQuoted_length {quote : Char} {cs s after : List Char}
    (h : readQuoted quote cs = some (s, after)) : after.length < cs.length := by
  fun_induction readQuoted quote cs generalizing s after with
  | case1 => simp at h
  | case2 => simp at h
  | case3 c rest ih =>
    obtain ⟨⟨s', after'⟩, h', heq⟩ := Option.map_eq_some_iff.1 h
    have := ih h'
    simp only [Prod.mk.injEq] at heq
    simp only [List.length_cons, ← heq.2]
    omega
  | case4 rest =>
    simp only [Option.some.injEq, Prod.mk.injEq] at h
    simp [← h.2]
  | case5 c rest _ _ _ ih =>
    obtain ⟨⟨s', after'⟩, h', heq⟩ := Option.map_eq_some_iff.1 h
    have := ih h'
    simp only [Prod.mk.injEq] at heq
    simp only [List.length_cons, ← heq.2]
    omega

theorem ofWord?_nil : Param.ofWord? [] = none := by decide

theorem readParam_length {cs : List Char} {p : Param} {after : List Char}
    (h : readParam cs = .ok (p, after)) : after.length < cs.length := by
  unfold readParam at h
  split at h
  · cases h
  · rename_i c rest
    split at h
    · split at h
      · rename_i s after' hq
        cases h
        have := readQuoted_length hq
        simp only [List.length_cons]
        omega
      · cases h
    · simp only [splitBlank] at h
      split at h
      · rename_i p' hp
        cases h
        by_cases hb : isBlank c
        · simp [List.takeWhile, hb, ofWord?_nil] at hp
        · have : (rest.dropWhile fun c => !isBlank c).length ≤ rest.length :=
            (List.dropWhile_sublist _).length_le
          simp only [List.dropWhile_cons, hb, Bool.not_false, if_true, List.length_cons]
          omega
      · cases h

theorem splitKey?_length {cs key rest : List Char} (h : splitKey? cs = some (key, rest)) :
    rest.length < cs.length := by
  unfold splitKey? at h
  split at h
  · rename_i c key' rest' _ hd
    cases h
    have : (cs.dropWhile isKeyChar).length ≤ cs.length := (List.dropWhile_sublist _).length_le
    rw [hd] at this
    simp only [List.length_cons] at this
    omega
  · cases h

theorem readFirst_length {cs : List Char} {w : Word} {after : List Char}
    (h : readFirst cs = .ok (w, after)) : after.length < cs.length := by
  unfold readFirst at h
  split at h
  · rename_i key rest hk
    have hk := splitKey?_length hk
    cases hp : readParam rest with
    | error e => simp [hp, Except.map] at h
    | ok r =>
      simp only [hp, Except.map, Except.ok.injEq, Prod.mk.injEq] at h
      have : r.2.length < _ := readParam_length hp
      rw [← h.2]
      omega
  · cases hp : readParam cs with
    | error e => simp [hp, Except.map] at h
    | ok r =>
      simp only [hp, Except.map, Except.ok.injEq, Prod.mk.injEq] at h
      have : r.2.length < _ := readParam_length hp
      rw [← h.2]
      omega

/-- Reads the whole content of a tag. -/
def readAll (cs : List Char) : Except SyntaxCause (List Word) :=
  if trimStart cs = [] then .ok []
  else
    match h : readFirst (trimStart cs) with
    | .error e => .error e
    | .ok (w, after) =>
      have : after.length < cs.length :=
        Nat.lt_of_lt_of_le (readFirst_length h) (List.dropWhile_sublist isBlank).length_le
      match readAll after with
      | .error e => .error e
      | .ok ws => .ok (w :: ws)
termination_by cs.length

/-- Separates the words into positional and named arguments. Positional arguments come first; a
name that is given twice keeps its last argument. -/
def arguments : List Word → List Param → Table Param →
    Except SyntaxCause (List Param × Table Param)
  | [], ps, ns => .ok (ps, ns)
  | positional p :: rest, ps, ns =>
    if ns.isEmpty then arguments rest (ps ++ [p]) ns else .error .positionalAfterNamed
  | named key p :: rest, ps, ns => arguments rest ps (ns.insert key p)

/-- The word as a bare identifier: a path of a single name. -/
def identifier? : Word → Option String
  | positional (.path (.named head [])) => some head
  | _ => none

end Word

end Stencil
