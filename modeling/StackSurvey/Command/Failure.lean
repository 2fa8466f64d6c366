import StackSurvey.Registry.Basic
import StackSurvey.Survey.Failure

/-! # Why a command fails

    Every failure of a command has a wording and the exit code that the program ends with. -/

namespace StackSurvey

/-- Why a command has failed. -/
inductive CommandFailure where
  | settings (reason : String)
  | registry (reason : String)
  | command (reason : String)
  | daemonUnreachable (reason : String)
  | json (fault : Json.Fault)
  | io (reason : String)
  | survey (failure : SurveyFailure)
deriving DecidableEq

namespace CommandFailure

def message : CommandFailure → String
  | settings reason => "configuration error: " ++ reason
  | registry reason => "registry error: " ++ reason
  | command reason => reason
  | daemonUnreachable reason => "docker not reachable: " ++ reason
  | json fault => "json output error: " ++ fault.message
  | io reason => "io error: " ++ reason
  | survey failure => failure.message

/-- The exit code of a failure: 2 for what the user has asked for, 3 for a daemon that is not
    there, 10 for reading and writing, and 1 for the rest. -/
def exitCode : CommandFailure → Nat
  | settings _ | registry _ => 2
  | survey (.settings _) | survey (.plan _) => 2
  | daemonUnreachable _ => 3
  | io _ | survey (.io _) => 10
  | command _ | json _ | survey (.engine _) => 1

/-- The failure of a command whose containers cannot be run. -/
def ofRuntime : Container.RuntimeFailure → CommandFailure
  | .connection reason => .daemonUnreachable reason
  | failure => .command failure.message

/-- The failure of a command whose registry is faulty. -/
def ofRegistry (fault : RegistryFault) : CommandFailure := .registry fault.message

end CommandFailure
end StackSurvey
