import StackSurvey.Feature.Set

/-! # What has run, and what may run next

    An engine may ask that others have run before it or that features have been found.  The
    history of a run holds both, and `RunRules.satisfiedBy` is the gate in front of an engine. -/

namespace StackSurvey

/-- Adds a name to an ascending list without repetitions. -/
def insertName (name : String) : List String → List String
  | [] => [name]
  | n :: rest =>
    if n = name then n :: rest
    else if name < n then name :: n :: rest
    else n :: insertName name rest

/-- The names of a list, ascending and without repetitions. -/
def sortedNames (names : List String) : List String :=
  names.foldl (fun acc n => insertName n acc) []

@[simp] theorem mem_insertName {name other : String} {names : List String} :
    other ∈ insertName name names ↔ other = name ∨ other ∈ names := by
  induction names with
  | nil => simp [insertName]
  | cons n rest ih =>
    unfold insertName
    split
    · next h => subst h; simp
    · split
      · simp
      · simp only [List.mem_cons, ih]
        exact or_left_comm

/-- What must have happened before an engine runs. -/
structure RunRules where
  engines : List String := []
  features : List String := []
deriving DecidableEq

/-- The engines that have ended well, and the features found so far. -/
structure RunHistory where
  /-- Ascending and without repetitions. -/
  executed : List String := []
  features : FeatureSet := FeatureSet.empty

namespace RunHistory

/-- A history in which engines have run. -/
def ofEngines (names : List String) : RunHistory := { executed := sortedNames names }

/-- A history in which features were found. -/
def ofFeatures (features : FeatureSet) : RunHistory := { features }

/-- Notes that an engine has ended well. -/
def record (h : RunHistory) (name : String) : RunHistory :=
  { h with executed := insertName name h.executed }

/-- Notes what an engine has found. -/
def merge (h : RunHistory) (fs : List Feature) : RunHistory :=
  { h with features := h.features.merge fs }

/-- The names of the engines known to have run: those recorded and those that the features
    name.  Ascending and without repetitions. -/
def enginesRun (h : RunHistory) : List String :=
  (h.features.features.flatMap Feature.engines).foldl (fun acc n => insertName n acc) h.executed

end RunHistory

namespace RunRules

def isEmpty (r : RunRules) : Bool := r.engines.isEmpty && r.features.isEmpty

/-- Does the history fulfil the rules? -/
def satisfiedBy (r : RunRules) (h : RunHistory) : Bool :=
  r.isEmpty ||
    (r.engines.all (h.enginesRun.contains ·) && r.features.all (h.features.names.contains ·))

def toJson (r : RunRules) : Json :=
  .object [
    ("engines", .ofTexts r.engines),
    ("features", .ofTexts r.features)]

def form : Form RunRules :=
  .record "RunRules" [
    Form.field "engines" (.list .text) fun r engines => { r with engines },
    Form.field "features" (.list .text) fun r features => { r with features }] {}

/-- The rules as a log field shows them. -/
def display (r : RunRules) : String :=
  "RunRules \x7b engines: " ++ Text.quoteList r.engines ++ ", features: " ++
    Text.quoteList r.features ++ " \x7d"

end RunRules
end StackSurvey
