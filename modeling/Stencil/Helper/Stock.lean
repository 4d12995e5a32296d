import Stencil.Helper

/-!
# The stock helpers

Small helpers, each under its own name, that show what a call looks like from inside or that
render their bodies in a characteristic way.
-/

namespace Stencil.Helper

/-- The arguments of a call under the tags of their kinds. -/
def describe (c : Call) : String :=
  c.name ++ "(" ++ Value.joined "," (c.params.map Value.tagged) ++ ";" ++
    Value.joined "," (c.named.sorted.map fun entry => entry.1 ++ "=" ++ entry.2.tagged) ++ ")"

/-- How often `times` renders its body: a signed integer, held between 0 and 20. -/
def repetitions : Value → Nat
  | .i64 n => min n.toInt.toNat 20
  | _ => 0

/-- The numbers `0, 1, …` as subjects. -/
def counters (n : Nat) : List Value := (List.range n).map fun i => .i64 (Int64.ofNat i)

/-- The stock helpers by name. -/
def stock : Table Helper := [
  ("args", fun c => .answerText (describe c)),
  ("list", fun c => .answer (.list c.params)),
  ("map", fun c => .answer (.map c.named)),
  ("count", fun c => .answer (.u64 (UInt64.ofNat c.params.length))),
  ("fail", fun c => .done (.error (.helper c.first.display))),
  ("look", fun c => .answer ((c.lookup c.first.display).getD .null)),
  ("ctx", fun c => .answer c.context),
  ("hashval", fun c => .answer ((c.named.get? c.first.display).getD (.str "none"))),
  ("isblock", fun c => .answer (.bool c.isBlock)),
  ("bold", fun c => .bodyWith c.bodySubject fun s => .answerText ("<b>" ++ s ++ "</b>")),
  ("twice", fun c => .bodyWith c.bodySubject fun s => .answerText (s ++ s)),
  ("otherwise", fun _ => .inverseThen .answerText),
  ("both", fun c =>
    .bodyWith c.bodySubject fun s => .inverseThen fun t => .answerText (s ++ "|" ++ t)),
  ("using", fun c => .bodyWith c.first .answerText),
  ("times", fun c => .bodyForEach .answerText "" (counters (repetitions c.first))),
  ("pick", fun c =>
    if c.first.truthy then .bodyWith c.context .answerText else .inverseThen .answerText),
  ("safe", fun c => .body c.bodySubject fun
    | .ok s => .answerText s
    | .error e => .answerText ("[" ++ e.message ++ "]")),
  ("nil", fun _ => .answer .null),
  ("id", fun c => .answer c.first),
  ("cat", fun c => .answerText (Value.joined "|" (c.params.map Value.display)))]

end Stencil.Helper
