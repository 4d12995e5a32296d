import Stencil.Declaration.Fault
import Stencil.Declaration.Token
import Stencil.Naming
import Stencil.Value

/-!
# Declared records

A record is declared by its name, its fields and its attributes. From the declaration follow the
two tables that its values are looked up in: fields under their keys, and methods, first those
that the attributes list and then, where they ask for getters, one or two generated ones for
every field. A key may stand in a table more than once; then the first entry counts.

An ignored field stands in neither table.
-/

namespace Stencil.Declaration

/-- An entry in a list of methods: the key, and the method where it is not named like the
key. -/
structure MethodItem where
  key : String
  method : Option String
  deriving DecidableEq, Repr

/-- An item of an attribute. -/
inductive Item where
  /-- A bare word. -/
  | word (w : String)
  /-- A text alone. -/
  | literal (s : String)
  | rename (s : String)
  | methods (entries : List MethodItem)
  deriving DecidableEq, Repr

/-- What a record may be declared as. -/
inductive Form where
  | named
  | unit
  | tuple
  | choice
  deriving DecidableEq, Repr

/-- A declared field. An attribute is a list of items. -/
structure RecordField where
  name : String
  type : String
  attributes : List (List Item)
  deriving DecidableEq, Repr

/-- A declared record. -/
structure Record where
  name : String
  form : Form
  attributes : List (List Item)
  fields : List RecordField
  deriving DecidableEq, Repr

/-- Where the value of an entry comes from. -/
inductive Access where
  | field (name : String)
  | method (name : String)
  deriving DecidableEq, Repr

/-- How an access is written. -/
def Access.text : Access → String
  | field name => "self." ++ name
  | method name => "self." ++ name ++ "()"

/-- The two tables of a declared record. -/
structure RecordTables where
  typeName : String
  fields : List (String × Access)
  methods : List (String × Access)
  deriving DecidableEq, Repr

/-- The words that cannot be identifiers on their own. -/
def reservedWords : List String := [
  "_", "abstract", "as", "async", "await", "become", "box", "break", "const", "continue",
  "crate", "do", "dyn", "else", "enum", "extern", "false", "final", "fn", "for", "if", "impl",
  "in", "let", "loop", "macro", "match", "mod", "move", "mut", "override", "priv", "pub", "ref",
  "return", "Self", "self", "static", "struct", "super", "trait", "true", "try", "type",
  "typeof", "unsafe", "unsized", "use", "virtual", "where", "while", "yield"]

/-- An identifier without the mark that lets it be a reserved word. -/
def plainName (name : String) : String :=
  match name.toList with
  | 'r' :: '#' :: rest => String.ofList rest
  | _ => name

/-- Whether a name is a path of several segments. -/
def isPath : List Char → Bool
  | ':' :: ':' :: _ => true
  | _ :: rest => isPath rest
  | [] => false

/-- Reads an entry of a method list. -/
def MethodItem.read (m : MethodItem) : Except DeclarationFault (String × Access) :=
  if isPath m.key.toList then .error .methodPath
  else
    match m.method with
    | none => .ok (m.key, .method m.key)
    | some name =>
      if reservedWords.contains name then .error (.keyword name) else .ok (m.key, .method name)

/-- What the attributes of a record ask for. -/
structure RecordOptions where
  getters : Bool
  methods : List (String × Access)
  deriving DecidableEq, Repr

/-- Takes an item of a record's attribute. -/
def RecordOptions.take (o : RecordOptions) (i : Item) (last : Bool) :
    Except DeclarationFault RecordOptions :=
  match i with
  | .word "getters" => .ok { o with getters := true }
  | .word "methods" => .error (.missingList last)
  | .methods [] => .error .noMethods
  | .methods entries => (entries.mapM MethodItem.read).map fun ms =>
      { o with methods := o.methods ++ ms }
  | .literal _ => .error .literalItem
  | .word _ | .rename _ => .error .unknownRecordItem

/-- Takes the items of an attribute in order. -/
def takeItems {α : Type} (take : α → Item → Bool → Except DeclarationFault α) :
    α → List Item → Except DeclarationFault α
  | a, [] => .ok a
  | a, i :: rest => (take a i rest.isEmpty).bind fun a => takeItems take a rest

/-- What the attributes of a field ask for. -/
structure FieldOptions where
  key : String
  ignored : Bool
  deriving DecidableEq, Repr

/-- Takes an item of a field's attribute. -/
def FieldOptions.take (o : FieldOptions) (i : Item) (last : Bool) :
    Except DeclarationFault FieldOptions :=
  match i with
  | .word "ignore" => .ok { o with ignored := true }
  | .word "rename" => .error (.missingEquals last)
  | .rename s => .ok { o with key := s }
  | .literal _ => .error .literalItem
  | .word _ | .methods _ => .error .unknownFieldItem

/-- Takes an attribute of a field: a text alone is its key. -/
def FieldOptions.takeAttribute (o : FieldOptions) :
    List Item → Except DeclarationFault FieldOptions
  | [.literal s] => .ok { o with key := s }
  | items => takeItems FieldOptions.take o items

/-- What the attributes of a field ask for; its key is its plain name unless they say
otherwise. -/
def RecordField.options (f : RecordField) : Except DeclarationFault FieldOptions :=
  f.attributes.foldlM FieldOptions.takeAttribute ⟨plainName f.name, false⟩

/-- Whether a field holds a truth value. -/
def RecordField.isFlag (f : RecordField) : Bool := Token.read f.type == [.word "bool".toList]

/-- The generated methods of a field under its key: `get`, and for a truth value also `is`. -/
def RecordField.getters (f : RecordField) (key : String) : List (String × Access) :=
  let property := Naming.pascal key.toList
  (String.ofList (Naming.getter property), .field f.name) ::
    if f.isFlag then [(String.ofList (Naming.tester property), .field f.name)] else []

/-- What a record's attributes ask for. -/
def Record.options (r : Record) : Except DeclarationFault RecordOptions :=
  r.attributes.foldlM (takeItems RecordOptions.take) ⟨false, []⟩

/-- The fields that are not ignored, under their keys. -/
def Record.keyedFields (r : Record) :
    List RecordField → Except DeclarationFault (List (String × RecordField))
  | [] => .ok []
  | f :: rest =>
    if r.form = .tuple then .error .unnamedField
    else f.options.bind fun o =>
      (r.keyedFields rest).map fun fs => if o.ignored then fs else (o.key, f) :: fs

/-- The fields that the form of a record has room for. -/
def Record.declaredFields (r : Record) : List RecordField :=
  match r.form with
  | .named | .tuple => r.fields
  | .unit | .choice => []

/-- The tables of a declared record. -/
def Record.tables (r : Record) : Except DeclarationFault RecordTables :=
  if r.form = .choice then .error .notAStruct
  else r.options.bind fun o => (r.keyedFields r.declaredFields).map fun fs =>
    { typeName := r.name
      fields := fs.map fun (key, f) => (key, .field f.name)
      methods := o.methods ++ if o.getters then fs.flatMap fun (key, f) => f.getters key else [] }

/-- The data of one value of a declared record. -/
structure Instance where
  fields : Table Value
  methods : Table Value

/-- The value that an access reads. -/
def Instance.read (i : Instance) : Access → Value
  | .field name => (i.fields.get? name).getD .null
  | .method name => (i.methods.get? name).getD .null

/-- The value of a record as templates see it: its text form is its type name. -/
def RecordTables.value (t : RecordTables) (identity : Nat) (i : Instance) : Value :=
  .object identity t.typeName t.typeName (Table.mapValues i.read t.fields)
    (Table.mapValues i.read t.methods)

end Stencil.Declaration
