import StackSurvey.Json.Reader
import StackSurvey.Toml.Form

/-! # Forms of data

    A `Form α` says what data must look like to be read as an `α`, whichever notation it comes
    in: a JSON text, a JSON value that was read before, or a TOML value.  Forms are built from
    a few scalars by lists, maps and records; each notation keeps its own way of naming the
    place where the data misses the form. -/

namespace StackSurvey

/-- What data must look like to be read as an `α`. -/
structure Form (α : Type) where
  /-- Reads a JSON text; `depth` levels of brackets may still be opened. -/
  fromText : (depth : Nat) → Json.Reader α
  /-- Reads a JSON value. -/
  fromJson : Json → Except Mismatch α
  /-- Reads a TOML value. -/
  fromToml : Toml.Node → Except Toml.Fault α

/-- What a JSON value is, for a message. -/
def Json.found : Json → Found
  | .null => .null
  | .flag b => .flag b
  | .number (.whole n) => .whole n.val
  | .number (.double x) => .double x
  | .text s => .text s
  | .list _ => .sequence
  | .object _ => .map

namespace Form

def wrongKind {α : Type} (value : Json) (wanted : String) : Except Mismatch α :=
  .error (.wrongKind value.found wanted)

/-! ## Section 1: Scalars -/

def text : Form String where
  fromText _ := Json.Reader.text
  fromJson
    | .text s => .ok s
    | v => wrongKind v "a string"
  fromToml := Toml.Node.asText

def flag : Form Bool where
  fromText _ := Json.Reader.flag
  fromJson
    | .flag b => .ok b
    | v => wrongKind v "a boolean"
  fromToml := Toml.Node.asFlag

/-- A natural number of 64 bits, called `wanted`. -/
def natural (wanted : String) : Form Nat where
  fromText _ := Json.Reader.natural wanted
  fromJson
    | .number (.whole n) =>
      if 0 ≤ n.val then .ok n.val.toNat else .error (.wrongValue (.whole n.val) wanted)
    | v => wrongKind v wanted
  fromToml := Toml.Node.asNatural wanted

/-! ## Section 2: Compounds -/

/-- A value that may be `null` where the notation has it. -/
def optional {α : Type} (form : Form α) : Form (Option α) where
  fromText depth := Json.Reader.optional (form.fromText depth)
  fromJson
    | .null => .ok none
    | v => (form.fromJson v).map some
  fromToml node := (form.fromToml node).map some

def list {α : Type} (form : Form α) : Form (List α) where
  fromText := Json.Reader.sequence form.fromText
  fromJson
    | .list items => items.mapM form.fromJson
    | v => wrongKind v "a sequence"
  fromToml := Toml.Node.asList form.fromToml

/-- Named values, kept with their names ascending. -/
def map {α : Type} (form : Form α) : Form (Dictionary α) where
  fromText := Json.Reader.map Dictionary.putSorted form.fromText
  fromJson
    | .object members => do
      return Dictionary.sorted (← members.mapM fun (k, v) => do return (k, ← form.fromJson v))
    | v => wrongKind v "a map"
  fromToml := Toml.Node.asMap form.fromToml

/-- An object with members of any kind, in the order in which they come. -/
def object : Form (Dictionary Json) where
  fromText := Json.Reader.map Dictionary.put Json.Reader.value
  fromJson
    | .object members => .ok members
    | v => wrongKind v "a map"
  fromToml := Toml.Node.asObject

/-! ## Section 3: Records -/

/-- A field of a record that is gathered in `σ`. -/
structure Field (σ : Type) where
  name : String
  required : Bool
  fromText : (depth : Nat) → σ → Json.Reader σ
  fromJson : σ → Json → Except Mismatch σ
  fromToml : σ → Toml.Node → Except Toml.Fault σ

/-- A field whose value has a form and is stored by `store`. -/
def field {α σ : Type} (name : String) (form : Form α) (store : σ → α → σ) : Field σ where
  name := name
  required := false
  fromText depth x := do return store x (← form.fromText depth)
  fromJson x v := do return store x (← form.fromJson v)
  fromToml x v := do return store x (← form.fromToml v)

/-- The same field, which may not be left out. -/
def Field.mandatory {σ : Type} (f : Field σ) : Field σ := { f with required := true }

/-- The fields of a record among the members of an object; others are ignored. -/
def ofMembers {σ : Type} (fields : List (Field σ)) (blank : σ) (members : Dictionary Json) :
    Except Mismatch σ := do
  let x ← members.foldlM (fun x (k, v) =>
    match fields.find? fun f => f.name = k with
    | some f => f.fromJson x v
    | none => .ok x) blank
  match fields.find? fun f => f.required && (Dictionary.get? f.name members).isNone with
  | some f => .error (.missingField f.name)
  | none => .ok x

/-- A record called `name`.  Fields that are left out stay as they are in `blank`. -/
def record {σ : Type} (name : String) (fields : List (Field σ)) (blank : σ) : Form σ where
  fromText := Json.Reader.record name
    (fields.map fun f => ⟨f.name, f.required, f.fromText⟩) blank
  fromJson
    | .object members => ofMembers fields blank members
    | v => wrongKind v ("struct " ++ name)
  fromToml := Toml.Node.asRecord name (Json.Reader.recordLength name fields.length)
    (fields.map fun f => ⟨f.name, f.required, f.fromToml⟩) blank

def parseJson {α : Type} (form : Form α) (text : String) : Except Json.Fault α :=
  (form.fromText Json.nestingLimit).run text

def parseToml {α : Type} (form : Form α) (text : String) : Except Toml.Fault α := do
  form.fromToml (← Toml.parse text)

end Form
end StackSurvey
