import StackSurvey.Container.Outcome
import StackSurvey.Files.Artifact

/-! # Why an engine fails

    An engine may fail or run out of time, its image may be missing, or its container or its
    artifacts may give trouble. -/

namespace StackSurvey

inductive EngineFailure where
  | failed (engine reason : String)
  | timedOut (engine : String) (seconds : Nat)
  | imageRequired (message : String)
  | runtime (engine : String) (cause : Container.RuntimeFailure)
  | artifact (cause : ArtifactFailure)
deriving DecidableEq

namespace EngineFailure

def message : EngineFailure → String
  | failed engine reason => "engine " ++ engine ++ " failed: " ++ reason
  | timedOut engine seconds =>
    "engine " ++ engine ++ " ran for " ++ toString seconds ++ " seconds and was killed"
  | imageRequired message => message
  | runtime engine cause => "container runtime error for " ++ engine ++ ": " ++ cause.message
  | artifact cause => "artifact error: " ++ cause.path ++ ": " ++ cause.reason

/-- The failure behind a failure. -/
def cause? : EngineFailure → Option Container.RuntimeFailure
  | runtime _ cause => some cause
  | _ => none

/-- How a container that did not do well has ended. -/
def reasonOf (o : Container.Outcome) : String :=
  let status :=
    match o.error, o.exitStatus with
    | some error, _ => "error " ++ error
    | none, some status => "status " ++ toString status
    | none, none => "unknown status"
  "failed with " ++ status ++ " and stderr " ++ o.stderr

/-- The failure that an event of an engine's container stands for.  Without a time budget the
    duration of the run is reported. -/
def ofEvent? (engine : String) (budget : Option Duration) : Container.Event → Option EngineFailure
  | .timedOut _ o => some (.timedOut engine (budget.getD o.duration).seconds)
  | .failed _ o => some (.failed engine (reasonOf o))
  | .started _ | .output _ _ | .finished _ _ => none

end EngineFailure
end StackSurvey
