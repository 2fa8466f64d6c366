import StackSurvey.Form
import StackSurvey.Json.Object
import StackSurvey.Json.Printer

/-! # Features

    A feature is a part of a project's stack that an engine has found: a language, a framework,
    a package.  Reports of one feature by several engines are merged by name: what is there
    stays as it is, and only what is missing is added. -/

namespace StackSurvey

/-- A part of a project's stack. -/
structure Feature where
  name : String
  version : Option String := none
  description : Option String := none
  cpe : Option String := none
  categories : List String := []
  /-- The engines that have reported it. -/
  engines : List String := []
  /-- Whatever else the engines have to say. -/
  detail : Json.Object := .empty

namespace Feature

/-! ## Section 1: Operations -/

def withCategory (f : Feature) (category : String) : Feature :=
  { f with categories := pushUnique f.categories category }

def withEngine (f : Feature) (engine : String) : Feature :=
  { f with engines := pushUnique f.engines engine }

def withVersion (f : Feature) (version : String) : Feature :=
  { f with version := some version }

/-- Adds what another report of the same feature says.  A report of another feature adds
    nothing. -/
def merge (f g : Feature) : Feature :=
  if f.name = g.name then
    { f with
      version := f.version.or g.version
      description := f.description.or g.description
      cpe := f.cpe.or g.cpe
      categories := g.categories.foldl pushUnique f.categories
      engines := g.engines.foldl pushUnique f.engines
      detail := f.detail.merge g.detail }
  else f

@[simp] theorem merge_name (f g : Feature) : (f.merge g).name = f.name := by
  unfold merge
  split <;> rfl

/-- How a report for people shows a feature. -/
def display (f : Feature) : String :=
  match f.version with
  | some v => f.name ++ " " ++ v
  | none => f.name

/-- Are two features the same, the order of their details aside? -/
def same (f g : Feature) : Bool :=
  f.name = g.name && f.version = g.version && f.description = g.description && f.cpe = g.cpe &&
    f.categories = g.categories && f.engines = g.engines &&
    Json.same (.object f.detail.members) (.object g.detail.members)

/-! ## Section 2: Data -/

/-- A member for a text that is there. -/
def optionalMember (name : String) : Option String → List (String × Json)
  | none => []
  | some s => [(name, .text s)]

/-- A member for a list that is not empty. -/
def listMember (name : String) : List String → List (String × Json)
  | [] => []
  | xs => [(name, .ofTexts xs)]

/-- The feature as data.  What is missing or empty is left out. -/
def toJson (f : Feature) : Json :=
  .object <|
    (("name", .text f.name) :: optionalMember "version" f.version) ++
    optionalMember "description" f.description ++ optionalMember "cpe" f.cpe ++
    listMember "categories" f.categories ++ listMember "engines" f.engines ++
    (if f.detail.members.isEmpty then [] else [("meta", .object f.detail.members)])

/-- The form of what engines have to say: an object with members of any kind. -/
def detailForm : Form Json.Object where
  fromText depth := do return .ofMembers (← Form.object.fromText depth)
  fromJson v := do return .ofMembers (← Form.object.fromJson v)
  fromToml node := do return .ofMembers (← Form.object.fromToml node)

/-- The fields of a feature, of which only the name is needed. -/
def fields : List (Form.Field Feature) := [
  (Form.field "name" .text fun f name => { f with name }).mandatory,
  Form.field "version" (.optional .text) fun f version => { f with version },
  Form.field "description" (.optional .text) fun f description => { f with description },
  Form.field "cpe" (.optional .text) fun f cpe => { f with cpe },
  Form.field "categories" (.list .text) fun f categories => { f with categories },
  Form.field "engines" (.list .text) fun f engines => { f with engines },
  Form.field "meta" detailForm fun f detail => { f with detail }]

def form : Form Feature := .record "DetectedFeature" fields { name := "" }

end Feature
end StackSurvey
