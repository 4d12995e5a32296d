/-!
# Entities for markup

Seven characters can leave the text or attribute value they stand in: `&`, `<`, `>`, the two
quotes, the backtick and `=`. `escapeChars` writes each of them as a fixed entity and every
other character as itself; `unescapeChars` reads the seven entities back, from left to right.

The central facts are that nothing is lost (`unescapeChars_escapeChars`) and that escaping
works piece by piece (`escapeChars_append`), so text that is escaped in parts equals the text
escaped as a whole.
-/

namespace Stencil.Text

/-- The written form of one character. -/
def escapeChar : Char → List Char
  | '&' => ['&', 'a', 'm', 'p', ';']
  | '<' => ['&', 'l', 't', ';']
  | '>' => ['&', 'g', 't', ';']
  | '"' => ['&', 'q', 'u', 'o', 't', ';']
  | '\'' => ['&', '#', 'x', '2', '7', ';']
  | '\x60' => ['&', '#', 'x', '6', '0', ';']
  | '=' => ['&', '#', 'x', '3', 'D', ';']
  | c => [c]

/-- The written form of a text: each character on its own, in order. -/
def escapeChars (cs : List Char) : List Char := cs.flatMap escapeChar

/-- Reads the seven entities back; everything else stands for itself. -/
def unescapeChars : List Char → List Char
  | '&' :: 'a' :: 'm' :: 'p' :: ';' :: rest => '&' :: unescapeChars rest
  | '&' :: 'l' :: 't' :: ';' :: rest => '<' :: unescapeChars rest
  | '&' :: 'g' :: 't' :: ';' :: rest => '>' :: unescapeChars rest
  | '&' :: 'q' :: 'u' :: 'o' :: 't' :: ';' :: rest => '"' :: unescapeChars rest
  | '&' :: '#' :: 'x' :: '2' :: '7' :: ';' :: rest => '\'' :: unescapeChars rest
  | '&' :: '#' :: 'x' :: '6' :: '0' :: ';' :: rest => '\x60' :: unescapeChars rest
  | '&' :: '#' :: 'x' :: '3' :: 'D' :: ';' :: rest => '=' :: unescapeChars rest
  | c :: rest => c :: unescapeChars rest
  | [] => []

/-- Writes a text with the seven characters replaced by their entities. -/
def escape (s : String) : String := String.ofList (escapeChars s.toList)

/-- Reads the entities of `escape` back. -/
def unescape (s : String) : String := String.ofList (unescapeChars s.toList)

theorem escapeChars_cons (c : Char) (cs : List Char) :
    escapeChars (c :: cs) = escapeChar c ++ escapeChars cs := List.flatMap_cons

@[simp]
theorem escapeChars_append (a b : List Char) :
    escapeChars (a ++ b) = escapeChars a ++ escapeChars b := by
  simp [escapeChars]

theorem escape_append (a b : String) : escape (a ++ b) = escape a ++ escape b := by
  simp [escape, String.ofList_append]

theorem unescapeChars_escapeChar (c : Char) (rest : List Char) :
    unescapeChars (escapeChar c ++ rest) = c :: unescapeChars rest := by
  unfold escapeChar
  split
  case h_8 h _ _ _ _ _ _ =>
    rw [List.singleton_append, unescapeChars] <;> rintro _ rfl <;> simp at h
  all_goals simp [unescapeChars]

/-- Nothing is lost: reading the entities back gives the text that was escaped. -/
theorem unescapeChars_escapeChars (cs : List Char) : unescapeChars (escapeChars cs) = cs := by
  induction cs with
  | nil => simp [escapeChars, unescapeChars]
  | cons c rest ih => rw [escapeChars_cons, unescapeChars_escapeChar, ih]

theorem unescape_escape (s : String) : unescape (escape s) = s := by
  rw [unescape, escape, String.toList_ofList, unescapeChars_escapeChars, String.ofList_toList]

end Stencil.Text
