import StackSurvey.Feature.Basic
import StackSurvey.Text.Blank
import StackSurvey.Text.Utf8

/-! # Findings

    An engine reports a feature by writing a JSON object of type `feature`.  A finding is such a
    document: the bytes as they came, and either the feature they describe or the reason why
    they describe none.  Blank documents are no findings at all. -/

namespace StackSurvey

/-- Why a document describes no feature. -/
inductive Rejection where
  | notUtf8 (fault : Utf8.Fault)
  | notJson (fault : Json.Fault)
  | notObject
  | unsupportedType (kind : String)
  | typeNotText
  | typeMissing
  | nameEmpty
  | nameNotText
  | nameMissing
  | notFeature (m : Mismatch)
deriving DecidableEq

def Rejection.message : Rejection → String
  | .notUtf8 fault => "output is not valid UTF-8: " ++ fault.message
  | .notJson fault => "output is not valid JSON: " ++ fault.message
  | .notObject => "output must be a JSON object"
  | .unsupportedType kind => "unsupported output type '" ++ kind ++ "'"
  | .typeNotText => "output type must be a string"
  | .typeMissing => "output type is missing"
  | .nameEmpty => "feature name must not be empty"
  | .nameNotText => "feature name must be a string"
  | .nameMissing => "feature name is missing"
  | .notFeature m => "invalid feature: " ++ m.message Binary64.compact

/-- A document that an engine wrote. -/
structure Finding where
  raw : Bytes
  content : Except Rejection Feature

namespace Finding

/-! ## Section 1: Reading a document -/

/-- Are two texts equal up to the case of ASCII letters? -/
def sameWord (s t : String) : Bool := s.toList.map Char.toLower = t.toList.map Char.toLower

/-- The members of a document other than its type, which must be right.  The last member takes
    the place of the type. -/
def withoutType (members : Dictionary Json) : Except Rejection (Dictionary Json) :=
  match Dictionary.get? "type" members with
  | some (.text kind) =>
    if sameWord kind "feature" then .ok (Dictionary.swapErase "type" members)
    else .error (.unsupportedType kind)
  | some _ => .error .typeNotText
  | none => .error .typeMissing

/-- A document needs a name that is more than white space. -/
def checkName (members : Dictionary Json) : Except Rejection Unit :=
  match Dictionary.get? "name" members with
  | some (.text name) => if Text.isBlankText name then .error .nameEmpty else .ok ()
  | some _ => .error .nameNotText
  | none => .error .nameMissing

/-- The feature that the members of a document describe.  Which engines have reported it is not
    for the document to say. -/
def featureOfMembers (members : Dictionary Json) : Except Rejection Feature := do
  let members ← withoutType members
  checkName members
  match Form.ofMembers Feature.fields { name := "" } members with
  | .ok f => return { f with engines := [] }
  | .error m => throw (.notFeature m)

/-- The feature that a document describes. -/
def featureOf (raw : Bytes) : Except Rejection Feature := do
  match Utf8.decode raw with
  | .error fault => throw (.notUtf8 fault)
  | .ok text =>
    match Json.parse (Text.trim text) with
    | .error fault => throw (.notJson fault)
    | .ok (.object members) => featureOfMembers members
    | .ok _ => throw .notObject

/-- The finding in a document, unless it is blank. -/
def ofBytes? (raw : Bytes) : Option Finding :=
  if raw.all Text.isBlankByte then none else some { raw, content := featureOf raw }

def ofFeature (f : Feature) : Finding :=
  { raw := Utf8.encode f.toJson.compact, content := .ok f }

/-! ## Section 2: Looking at a finding -/

def feature? (x : Finding) : Option Feature := x.content.toOption

def isValid (x : Finding) : Bool := x.feature?.isSome

/-- What is wrong with it. -/
def message? (x : Finding) : Option String :=
  match x.content with
  | .ok _ => none
  | .error r => some r.message

/-- The document as text, without white space around it. -/
def rawText (x : Finding) : String := Text.trim (Utf8.decodeLossy x.raw)

/-- Names an engine that has reported it. -/
def attributeTo (x : Finding) (engine : String) : Finding :=
  { x with content := x.content.map fun f => f.withEngine engine }

end Finding
end StackSurvey
