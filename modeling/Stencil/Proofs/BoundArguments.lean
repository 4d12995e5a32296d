import Mathlib
import Stencil.Declaration.HelperFunction
import Stencil.Helper.Typed

/-!
# Arguments bound by position

A declared function becomes a typed helper: its parameters that refer to the options of the call
are slots for the call, and the owned ones are slots for data. The table of a declaration gives
each owned parameter an index, and a typed helper takes the arguments of the template one by one as
it goes through its slots. Both counts leave the options out, so they are the same count:

> `arguments_eq`: the index of an owned parameter is the number of owned parameters before it.
> `converted_fill`: filling the slots converts, in order, for each owned parameter the argument at
> its index, wherever the options stand.
> `arguments_bind_by_position`: the first argument that cannot be converted is the fault of the
> call; where there is none, the function runs on the converted arguments, each in its place.

Which types the texts of the parameters name is left open (`String → ArgumentType`).
-/

namespace Stencil

/-! ## What stands in a row of slots -/

/-- What a typed helper is passed in one place. -/
inductive Passed where
  | call (c : Call)
  | data (t : ArgumentType) (x : t.Carrier)

namespace Slot

/-- What stands in a row, as a list. -/
def passed : (slots : List Slot) → Row slots → List Passed
  | [], _ => []
  | call :: rest, row => .call row.1 :: passed rest row.2
  | data t :: rest, row => .data t row.1 :: passed rest row.2

/-- The data in a row, in order. -/
def converted : (slots : List Slot) → Row slots → List Passed
  | [], _ => []
  | call :: rest, row => converted rest row.2
  | data t :: rest, row => .data t row.1 :: converted rest row.2

variable (helper : String) (c : Call) (rest : List Slot) (taken : Nat) (left : List Value)

theorem fill_call :
    fill helper c (call :: rest) taken left = (fill helper c rest taken left).map (c, ·) := by
  rw [fill]
  cases fill helper c rest taken left with
  | error e => rfl
  | ok row => rfl

theorem fill_data_of_error {t : ArgumentType} {e : Fault}
    (h : t.ofValue (left.headD .null) = .error e) :
    fill helper c (data t :: rest) taken left = .error (.argument helper (taken + 1) e) := by
  rw [fill, h]

theorem fill_data_of_ok {t : ArgumentType} {x : t.Carrier}
    (h : t.ofValue (left.headD .null) = .ok x) :
    fill helper c (data t :: rest) taken left =
      (fill helper c rest (taken + 1) left.tail).map (x, ·) := by
  rw [fill, h]
  dsimp only
  cases fill helper c rest (taken + 1) left.tail with
  | error e => rfl
  | ok row => rfl

end Slot

namespace TypedHelper

variable {h : TypedHelper} {c : Call}

theorem helper_of_error {e : Fault} (hfill : Slot.fill h.name c h.slots 0 c.params = .error e) :
    h.helper c = .done (.error e) := by
  rw [helper, hfill]

theorem helper_of_ok {row : Slot.Row h.slots}
    (hfill : Slot.fill h.name c h.slots 0 c.params = .ok row) : h.helper c = h.run row := by
  rw [helper, hfill]

end TypedHelper

namespace Declaration

/-! ## The table of a declaration -/

/-- Whether a parameter refers to the options of the call. -/
def takesOptions (type : String) : Bool :=
  match TypePath.referent? (Token.read type) with
  | some inner => TypePath.lastSegment? inner == some "Options".toList
  | none => false

/-- The types of the owned parameters, in order. -/
def ownedTypes : List String → List String
  | [] => []
  | type :: rest =>
    if takesOptions type then ownedTypes rest
    else TypePath.compact (Token.read type) :: ownedTypes rest

/-- What a parameter at an index takes: its place among the owned ones is the number of those
before it. -/
def argumentAt (parameters : List String) (i : Nat) (type : String) : Argument :=
  if takesOptions type then .options
  else .owned (ownedTypes (parameters.take i)).length (TypePath.compact (Token.read type))

variable {taken : Nat} {type : String} {parameters : List String} {args : List Argument}

/-- What the arguments of a row of parameters say of the first one and of the others. -/
theorem arguments_cons_eq_ok (h : arguments taken (type :: parameters) = .ok args) :
    (takesOptions type = true ∧
        ∃ rest, arguments taken parameters = .ok rest ∧ args = .options :: rest) ∨
      (takesOptions type = false ∧
        ∃ rest, arguments (taken + 1) parameters = .ok rest ∧
          args = .owned taken (TypePath.compact (Token.read type)) :: rest) := by
  rw [arguments] at h
  unfold takesOptions
  cases hreferent : TypePath.referent? (Token.read type) with
  | none =>
    simp only [hreferent] at h
    obtain ⟨rest, hrest, rfl⟩ := of_map_eq_ok h
    exact .inr ⟨rfl, rest, hrest, rfl⟩
  | some inner =>
    simp only [hreferent] at h
    split at h
    next hoptions =>
      obtain ⟨rest, hrest, rfl⟩ := of_map_eq_ok h
      exact .inl ⟨by simp [hoptions], rest, hrest, rfl⟩
    next => cases h

/-- The index of an owned parameter is the number of owned parameters before it. -/
theorem arguments_eq (h : arguments taken parameters = .ok args) :
    args = parameters.mapIdx fun i type =>
      if takesOptions type then .options
      else .owned (taken + (ownedTypes (parameters.take i)).length)
        (TypePath.compact (Token.read type)) := by
  induction parameters generalizing taken args with
  | nil =>
    cases h
    rfl
  | cons type rest ih =>
    rw [List.mapIdx_cons]
    rcases arguments_cons_eq_ok h with ⟨htype, more, hmore, rfl⟩ | ⟨htype, more, hmore, rfl⟩
    · rw [ih hmore]
      simp [htype, ownedTypes]
    · rw [ih hmore]
      simp [htype, ownedTypes, Nat.add_assoc, Nat.add_comm 1]

/-- Every exported function of a block has an entry in its table. -/
theorem entry_of_exported {functions : List HelperFunction} {table : List Entry}
    (h : entries functions = .ok table) {f : HelperFunction} (hf : f ∈ functions)
    (hexported : f.isExported = true) :
    ∃ entry ∈ table, entry.function = f.name ∧ f.helperName = .ok entry.name ∧
      arguments 0 f.parameters = .ok entry.arguments := by
  induction functions generalizing table with
  | nil => cases hf
  | cons g rest ih =>
    obtain ⟨name, hname, h⟩ := of_bind_eq_ok h
    rcases List.mem_cons.1 hf with rfl | hf
    · rw [if_pos hexported] at h
      obtain ⟨args, hargs, h⟩ := of_bind_eq_ok h
      obtain ⟨more, -, rfl⟩ := of_map_eq_ok h
      exact ⟨_, List.mem_cons_self .., rfl, hname, hargs⟩
    · split at h
      next =>
        obtain ⟨args, -, h⟩ := of_bind_eq_ok h
        obtain ⟨more, hmore, rfl⟩ := of_map_eq_ok h
        obtain ⟨entry, hentry, hlaws⟩ := ih hmore hf
        exact ⟨entry, List.mem_cons_of_mem _ hentry, hlaws⟩
      next => exact ih h hf

/-! ## The slots of a declaration -/

/-- The slot for an argument, given the types that texts name. -/
def Argument.slot (types : String → ArgumentType) : Argument → Slot
  | options => .call
  | owned _ type => .data (types type)

/-- The typed helper of an entry in a table, given its function. -/
def Entry.typed (e : Entry) (types : String → ArgumentType)
    (run : Slot.Row (e.arguments.map (Argument.slot types)) → Script) : TypedHelper where
  name := e.name
  slots := e.arguments.map (Argument.slot types)
  run := run

/-- The argument of the template at an index, null where there is none, as a type. -/
def convert (types : String → ArgumentType) (params : List Value) (k : Nat) (type : String) :
    Except Fault (types type).Carrier :=
  (types type).ofValue (params[k]?.getD .null)

/-- What a helper makes of the arguments of the template: all that is converted, in order, or the
fault of the first that cannot be. -/
def conversions (types : String → ArgumentType) (name : String) (args : List Argument) (c : Call)
    (params : List Value) : Except Fault (List Passed) :=
  (Slot.fill name c (args.map (Argument.slot types)) 0 params).map (Slot.converted _)

/-- The arguments from an index on, each converted as its type in a row of types. -/
def convertFrom (types : String → ArgumentType) (name : String) (params : List Value) :
    Nat → List String → Except Fault (List Passed)
  | _, [] => .ok []
  | k, type :: rest =>
    match convert types params k type with
    | .error e => .error (.argument name (k + 1) e)
    | .ok x => (convertFrom types name params (k + 1) rest).map (.data (types type) x :: ·)

/-- What is passed in the place of an argument: the call itself, or the argument of the template at
its index as its type. -/
inductive Binds (types : String → ArgumentType) (c : Call) (params : List Value) :
    Argument → Passed → Prop where
  | options : Binds types c params .options (.call c)
  | owned {k : Nat} {type : String} {x : (types type).Carrier}
    (h : convert types params k type = .ok x) :
    Binds types c params (.owned k type) (.data (types type) x)

section

variable {types : String → ArgumentType} {name : String} {c : Call} {params : List Value}

theorem headD_drop (params : List Value) (k : Nat) :
    (params.drop k).headD .null = params[k]?.getD .null := by
  rw [List.headD_eq_head?_getD, List.head?_drop]

/-- Filling the slots converts, in order, for each owned parameter the argument at its index,
wherever the options stand. -/
theorem converted_fill (h : arguments taken parameters = .ok args) :
    (Slot.fill name c (args.map (Argument.slot types)) taken (params.drop taken)).map
        (Slot.converted _) =
      convertFrom types name params taken (ownedTypes parameters) := by
  induction parameters generalizing taken args with
  | nil =>
    cases h
    rfl
  | cons type rest ih =>
    rcases arguments_cons_eq_ok h with ⟨htype, more, hmore, rfl⟩ | ⟨htype, more, hmore, rfl⟩
    · rw [ownedTypes, if_pos htype, ← ih hmore]
      change (Slot.fill name c (.call :: more.map (Argument.slot types)) taken
        (params.drop taken)).map (Slot.converted _) = _
      rw [Slot.fill_call]
      exact map_map_result
    · rw [ownedTypes, if_neg (by simp [htype]), convertFrom, ← ih hmore]
      change (Slot.fill name c (.data (types _) :: more.map (Argument.slot types)) taken
        (params.drop taken)).map (Slot.converted _) = _
      split
      next e he => rw [Slot.fill_data_of_error _ _ _ _ _ ((congrArg _ (headD_drop ..)).trans he)]; rfl
      next x hx =>
        rw [Slot.fill_data_of_ok _ _ _ _ _ ((congrArg _ (headD_drop ..)).trans hx), List.tail_drop]
        exact map_map_result.trans (map_map_result (g := (Passed.data (types _) x :: ·))).symm

/-- What stands in a row that was filled: in each place what its argument says. -/
theorem fill_binds (h : arguments taken parameters = .ok args)
    {row : Slot.Row (args.map (Argument.slot types))}
    (hrow : Slot.fill name c (args.map (Argument.slot types)) taken (params.drop taken) = .ok row) :
    List.Forall₂ (Binds types c params) args (Slot.passed _ row) := by
  induction parameters generalizing taken args with
  | nil =>
    cases h
    exact .nil
  | cons type rest ih =>
    rcases arguments_cons_eq_ok h with ⟨-, more, hmore, rfl⟩ | ⟨-, more, hmore, rfl⟩
    · obtain ⟨inner, hinner, rfl⟩ := of_map_eq_ok ((Slot.fill_call ..).symm.trans hrow)
      exact .cons .options (ih hmore hinner)
    · cases hx : (types (TypePath.compact (Token.read type))).ofValue
        ((params.drop taken).headD .null) with
      | error e => cases (Slot.fill_data_of_error _ _ _ _ _ hx).symm.trans hrow
      | ok x =>
        obtain ⟨inner, hinner, rfl⟩ :=
          of_map_eq_ok ((Slot.fill_data_of_ok _ _ _ _ _ hx).symm.trans hrow)
        rw [List.tail_drop] at hinner
        rw [headD_drop] at hx
        exact .cons (.owned hx) (ih hmore hinner)

/-! ## The first fault, and surplus arguments -/

/-- The first argument that cannot be converted is the fault. -/
theorem convertFrom_of_fault {owned : List String} {k : Nat} {reason : Fault}
    (hk : owned[k]? = some type) (hreason : convert types params (taken + k) type = .error reason)
    (hbefore : ∀ j < k, ∀ earlier, owned[j]? = some earlier →
      ∃ x, convert types params (taken + j) earlier = .ok x) :
    convertFrom types name params taken owned = .error (.argument name (taken + k + 1) reason) := by
  induction owned generalizing taken k with
  | nil => cases hk
  | cons first rest ih =>
    rw [convertFrom]
    cases k with
    | zero =>
      cases hk
      rw [Nat.add_zero] at hreason
      rw [hreason]
    | succ k =>
      obtain ⟨x, hx⟩ := hbefore 0 (Nat.succ_pos k) first rfl
      have hrest : convertFrom types name params (taken + 1) rest =
          .error (.argument name (taken + 1 + k + 1) reason) := by
        refine ih hk ?_ fun j hj earlier hearlier => ?_
        · rwa [Nat.add_right_comm]
        · rw [Nat.add_right_comm]
          exact hbefore (j + 1) (Nat.succ_lt_succ hj) earlier hearlier
      rw [Nat.add_zero] at hx
      rw [hx, hrest, Nat.add_right_comm taken 1 k]
      rfl

/-- Without such an argument there is no fault. -/
theorem exists_convertFrom {owned : List String}
    (h : ∀ k type, owned[k]? = some type → ∃ x, convert types params (taken + k) type = .ok x) :
    ∃ values, convertFrom types name params taken owned = .ok values := by
  induction owned generalizing taken with
  | nil => exact ⟨[], rfl⟩
  | cons first rest ih =>
    obtain ⟨x, hx⟩ := h 0 first rfl
    have hrest : ∀ k type, rest[k]? = some type →
        ∃ x, convert types params (taken + 1 + k) type = .ok x := by
      intro k type hk
      rw [Nat.add_right_comm]
      exact h (k + 1) type hk
    obtain ⟨values, hvalues⟩ := ih hrest
    rw [Nat.add_zero] at hx
    rw [convertFrom, hx, hvalues]
    exact ⟨_, rfl⟩

/-- Arguments beyond those that are converted make no difference. -/
theorem convertFrom_surplus {owned : List String} (surplus : List Value)
    (h : taken + owned.length ≤ params.length) :
    convertFrom types name (params ++ surplus) taken owned =
      convertFrom types name params taken owned := by
  induction owned generalizing taken with
  | nil => rfl
  | cons first rest ih =>
    rw [List.length_cons] at h
    have hfirst : convert types (params ++ surplus) taken first = convert types params taken first := by
      rw [convert, convert, List.getElem?_append_left (by omega)]
    rw [convertFrom, convertFrom, hfirst, ih (by omega)]

end

/-! ## Helpers of declared functions -/

theorem argument_message (name : String) (index : Nat) (reason : Fault) :
    (Fault.argument name index reason).message =
      "Helper Error: " ++ name ++ ": argument " ++ toString index ++ ": " ++ reason.message := by
  have htitle : FaultKind.helper.title ++ ": " = "Helper Error: " := by decide
  rw [Fault.message, htitle]

/-- Where all arguments can be converted, the function is run on them and the call, each in its
place. -/
theorem typed_runs {entry : Entry} {parameters : List String}
    (hargs : arguments 0 parameters = .ok entry.arguments) {types : String → ArgumentType}
    (run : Slot.Row (entry.arguments.map (Argument.slot types)) → Script) {c : Call}
    (hall : ∀ k type, (ownedTypes parameters)[k]? = some type →
      ∃ x, convert types c.params k type = .ok x) :
    ∃ row, (entry.typed types run).helper c = run row ∧
      List.Forall₂ (Binds types c c.params) entry.arguments (Slot.passed _ row) := by
  obtain ⟨values, hvalues⟩ : ∃ values,
      convertFrom types entry.name c.params 0 (ownedTypes parameters) = .ok values :=
    exists_convertFrom (by simpa using hall)
  have hconverted : conversions types entry.name entry.arguments c c.params =
      convertFrom types entry.name c.params 0 (ownedTypes parameters) := converted_fill hargs
  obtain ⟨row, hrow, -⟩ := of_map_eq_ok (hconverted.trans hvalues)
  exact ⟨row, TypedHelper.helper_of_ok hrow, fill_binds hargs hrow⟩

/-- **Arguments are bound by position.** Take a block of functions that has a table, and an exported
function in it. Its entry gives each owned parameter its place among the owned parameters as its
index. Whatever types the parameters name, whatever the function does and whatever it is called
with, the typed helper of the entry does this:

if the argument at an index, null where there is none, cannot be converted as the owned type of
this index, and all arguments before it can, then the call fails with the number of the argument,
from one, and the function is not run;

if all can be converted, then the function is run, once, on them and the call, each in its place.

Arguments beyond those change nothing in what is converted, and neither does it matter where among
the parameters the options of the call stand. -/
theorem arguments_bind_by_position {functions : List HelperFunction} {table : List Entry}
    (htable : helperTable .plain functions = .ok table) {f : HelperFunction} (hf : f ∈ functions)
    (hexported : f.isExported = true) :
    ∃ entry ∈ table, entry.function = f.name ∧ f.helperName = .ok entry.name ∧
      entry.arguments = f.parameters.mapIdx (argumentAt f.parameters) ∧
      ∀ (types : String → ArgumentType)
        (run : Slot.Row (entry.arguments.map (Argument.slot types)) → Script) (c : Call),
        let owned := ownedTypes f.parameters
        let outcome := (entry.typed types run).helper c
        (∀ k type reason, owned[k]? = some type → convert types c.params k type = .error reason →
          (∀ j < k, ∀ earlier, owned[j]? = some earlier →
            ∃ x, convert types c.params j earlier = .ok x) →
          ∃ e : Fault, outcome = .done (.error e) ∧ e.kind = .helper ∧
            e.message = "Helper Error: " ++ entry.name ++ ": argument " ++ toString (k + 1) ++ ": " ++
              reason.message) ∧
        ((∀ k type, owned[k]? = some type → ∃ x, convert types c.params k type = .ok x) →
          ∃ row, outcome = run row ∧
            List.Forall₂ (Binds types c c.params) entry.arguments (Slot.passed _ row)) ∧
        (∀ surplus, owned.length ≤ c.params.length →
          conversions types entry.name entry.arguments c (c.params ++ surplus) =
            conversions types entry.name entry.arguments c c.params) ∧
        ∀ parameters args, arguments 0 parameters = .ok args → ownedTypes parameters = owned →
          conversions types entry.name args c c.params =
            conversions types entry.name entry.arguments c c.params := by
  obtain ⟨entry, hentry, hfunction, hname, hargs⟩ := entry_of_exported htable hf hexported
  have hplaces : entry.arguments = f.parameters.mapIdx (argumentAt f.parameters) := by
    rw [arguments_eq hargs]
    simp only [Nat.zero_add]
    rfl
  refine ⟨entry, hentry, hfunction, hname, hplaces, fun types run c => ?_⟩
  -- Of the parameters, the conversions know the owned types and their order only.
  have hconversions : ∀ parameters args, arguments 0 parameters = .ok args → ∀ params,
      conversions types entry.name args c params =
        convertFrom types entry.name params 0 (ownedTypes parameters) := by
    intro parameters args hargs params
    exact converted_fill hargs
  have hown := hconversions _ _ hargs
  refine ⟨fun k type reason hk hreason hbefore => ?_, fun hall => ?_, fun surplus henough => ?_,
    fun parameters args hother hsame => ?_⟩
  · refine ⟨.argument entry.name (k + 1) reason, ?_, rfl, argument_message ..⟩
    have hfault := hown c.params
    rw [convertFrom_of_fault (k := k) hk (by rwa [Nat.zero_add]) (by simpa using hbefore),
      Nat.zero_add] at hfault
    exact TypedHelper.helper_of_error (of_map_eq_error hfault)
  · exact typed_runs hargs run hall
  · rw [hown, hown, convertFrom_surplus surplus (by simpa using henough)]
  · rw [hconversions _ _ hother, hown, hsame]

/-- A function with the options between its two owned parameters. -/
def mixed : HelperFunction :=
  ⟨"mixed", "pub", false, ["i64", "& Options<'_>", "String"], some "String", .absent⟩

/-- The second argument is no text. -/
theorem arguments_bind_by_position_of_mixed :
    let types : String → ArgumentType := fun type =>
      if type = "i64" then (DataType.int .i64).argument rfl else DataType.text.argument rfl
    ∃ table, helperTable .plain [mixed] = .ok table ∧ mixed ∈ [mixed] ∧ mixed.isExported = true ∧
      ∃ entry ∈ table, ∀ run c, c.params = [.i64 5, .list [], .null] →
        ∃ e : Fault, (entry.typed types run).helper c = .done (.error e) ∧
          e.message =
            "Helper Error: mixed: argument 2: Type Mismatch: Expected Str, got List([])" := by
  intro types
  have htable : helperTable .plain [mixed] =
      .ok [⟨"mixed", "mixed", [.owned 0 "i64", .options, .owned 1 "String"], false⟩] := by
    decide +kernel
  have hmember : mixed ∈ [mixed] := List.mem_cons_self ..
  have hexported : mixed.isExported = true := by decide +kernel
  refine ⟨_, htable, hmember, hexported, ?_⟩
  obtain ⟨entry, hentry, -, hname, -, hlaws⟩ :=
    arguments_bind_by_position htable hmember hexported
  refine ⟨entry, hentry, fun run c hparams => ?_⟩
  have hnamed : mixed.helperName = .ok "mixed" := rfl
  have howned : ownedTypes mixed.parameters = ["i64", "String"] := by decide +kernel
  have hlaw := (hlaws types run c).1 1 "String" (.unexpected "Str" (.list []))
  rw [howned, hparams, ← Except.ok.inj (hnamed.symm.trans hname)] at hlaw
  obtain ⟨e, houtcome, -, hmessage⟩ := hlaw rfl rfl fun j hj earlier hearlier => by
    obtain rfl : j = 0 := Nat.lt_one_iff.1 hj
    cases hearlier
    exact ⟨_, rfl⟩
  exact ⟨e, houtcome, hmessage.trans (by decide +kernel)⟩

end Declaration

end Stencil
