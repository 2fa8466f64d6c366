import StackSurvey.Toml.Document
import StackSurvey.Json.Value

/-! # TOML values of a certain kind

    The same kinds of values that can be read from JSON can be taken from TOML.  A mismatch
    points at the innermost value it concerns. -/

namespace StackSurvey.Toml.Node

/-- What taking something from a value gives. -/
abbrev Take : Type → Type := Except Fault

def wrongKind {α : Type} (node : Node) (wanted : String) : Take α :=
  .error (.mismatch node.span (.wrongKind node.found wanted))

/-- The greatest and the least whole number of 64 bits of either kind; others are no TOML. -/
def isWord (n : Int) : Bool := -Int.pow 2 63 ≤ n && n < Int.pow 2 64

/-- A whole number that fits no word is a fault of the text wherever it is looked at. -/
def checked {α : Type} (node : Node) (result : Take α) : Take α :=
  match node with
  | .whole span n => if isWord n then result else .error (.syntaxAt span.start)
  | _ => result

def asText (node : Node) : Take String :=
  match node with
  | .text _ s => .ok s
  | _ => node.checked (node.wrongKind "a string")

def asFlag (node : Node) : Take Bool :=
  match node with
  | .flag _ b => .ok b
  | _ => node.checked (node.wrongKind "a boolean")

/-- A natural number of 64 bits, called `wanted`. -/
def asNatural (wanted : String) (node : Node) : Take Nat :=
  match node with
  | .whole span n =>
    node.checked <|
      if 0 ≤ n then .ok n.toNat
      else .error (.mismatch span (.wrongValue (.whole n) wanted))
  | _ => node.wrongKind wanted

def asList {α : Type} (item : Node → Take α) (node : Node) : Take (List α) :=
  match node with
  | .list _ _ items => items.mapM item
  | _ => node.checked (node.wrongKind "a sequence")

/-- The name under which a date or a time stands where a map is read. -/
def momentName : String := "$__toml_private_datetime"

/-- Named values, names ascending. -/
def asMap {α : Type} (item : Node → Take α) (node : Node) : Take (Dictionary α) :=
  match node with
  | .table _ _ entries => entries.mapM fun (k, v) => do return (k, ← item v)
  | .moment span s => do return [(momentName, ← item (.text span s))]
  | _ => node.checked (node.wrongKind "a map")

/-! ## Section 1: TOML values as JSON values -/

mutual

/-- The value in JSON: infinity and no number are null, and a date or a time is an object with
    its text. -/
def toJson : Node → Take Json
  | .text _ s => .ok (.text s)
  | .whole span n =>
    match Json.ofWhole? n with
    | some v => .ok v
    | none => .error (.syntaxAt span.start)
  | .double _ x => .ok (if x.isNaN || x.isInfinite then .null else .number (.double x))
  | .flag _ b => .ok (.flag b)
  | .moment _ s => .ok (.object [(momentName, .text s)])
  | .list _ _ items => do return .list (← itemsToJson items)
  | .table _ _ entries => do return .object (← entriesToJson entries)

def itemsToJson : List Node → Take (List Json)
  | [] => .ok []
  | x :: xs => do return (← toJson x) :: (← itemsToJson xs)

def entriesToJson : List (String × Node) → Take (List (String × Json))
  | [] => .ok []
  | (k, v) :: rest => do return (k, ← toJson v) :: (← entriesToJson rest)

end

def asObject (node : Node) : Take (Dictionary Json) :=
  match node with
  | .table _ _ entries => entriesToJson entries
  | .moment _ s => .ok [(momentName, .text s)]
  | _ => node.checked (node.wrongKind "a map")

/-! ## Section 2: Records -/

/-- A field of a record that is gathered in `σ`. -/
structure Field (σ : Type) where
  name : String
  required : Bool
  /-- Takes the value and stores it. -/
  take : σ → Node → Take σ

/-- The fields of a record from a list without names; further items are ignored. -/
def recordItems {σ : Type} (span : Span) (wanted : String) (count : Nat) :
    List (Field σ) → List Node → σ → Take σ
  | [], _, x => .ok x
  | fields, [], x =>
    match fields.findIdx? (·.required) with
    | some i => .error (.mismatch span (.wrongLength (count + i) wanted))
    | none => .ok x
  | field :: fields, node :: nodes, x => do
    recordItems span wanted (count + 1) fields nodes (← field.take x node)

/-- Takes the fields of a record from the entries of a table; others are ignored. -/
def recordEntries {σ : Type} (span : Span) (fields : List (Field σ)) (blank : σ)
    (entries : List (String × Node)) : Take σ := do
  let x ← entries.foldlM (fun x (k, v) =>
    match fields.find? fun f => f.name = k with
    | some field => field.take x v
    | none => .ok x) blank
  match fields.find? fun f => f.required && (Dictionary.get? f.name entries).isNone with
  | some f => .error (.mismatch span (.missingField f.name))
  | none => .ok x

/-- A record: a table with its fields or a list of them in the order of their declaration. -/
def asRecord {σ : Type} (name length : String) (fields : List (Field σ)) (blank : σ)
    (node : Node) : Take σ :=
  match node with
  | .table span _ entries => recordEntries span fields blank entries
  | .moment span s => recordEntries span fields blank [(momentName, .text span s)]
  | .list span _ items => recordItems span length 0 fields items blank
  | _ => node.checked (node.wrongKind ("struct " ++ name))

end StackSurvey.Toml.Node
