import StackSurvey.Finding.Basic
import StackSurvey.History

/-! # Leaving findings out

    The configuration of an engine can exclude features by name: a check that is not enabled, or
    an entry in a list of names.  Parts of the configuration that have another shape say nothing
    about names. -/

namespace StackSurvey

/-- The names of the features to leave out, ascending. -/
structure Filter where
  excluded : List String

namespace Filter

def disabledChecks (config : Json) : List String :=
  match config.member? "checks" with
  | some (.object checks) =>
    checks.filterMap fun (name, check) =>
      match check.member? "enabled" with
      | some (.flag false) => some name
      | _ => none
  | _ => []

def excludedNames (config : Json) : List String :=
  match config.member? "exclude_features" with
  | some (.list names) => names.filterMap Json.asText?
  | _ => []

/-- The filter that a configuration asks for. -/
def ofConfig (config : Json) : Filter :=
  ⟨sortedNames (disabledChecks config ++ excludedNames config)⟩

/-- Is the finding to be left out? -/
def excludes (filter : Filter) (x : Finding) : Bool :=
  match x.feature? with
  | some f => filter.excluded.contains f.name
  | none => false

def size (filter : Filter) : Nat := filter.excluded.length

end Filter
end StackSurvey
