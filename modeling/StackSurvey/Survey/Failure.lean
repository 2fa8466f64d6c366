import StackSurvey.Engine.Failure

/-! # Why a survey fails

    A survey fails over its settings, over the choice of engines, over an engine, or over
    reading and writing. -/

namespace StackSurvey

inductive SettingsFault where
  | fileNotFound (path : String)
  | malformed (reason : String)
  | refused (field reason : String)
deriving DecidableEq

def SettingsFault.message : SettingsFault → String
  | fileNotFound path => "config file not found: " ++ path
  | malformed reason => "failed to parse config: " ++ reason
  | refused field reason => "invalid config value for '" ++ field ++ "': " ++ reason

/-- What is wrong with a choice of engines. -/
inductive PlanFault where
  | noEngines
  | unknownEngine (request : String)
  | repeatedEngine (name : String)
deriving DecidableEq

def PlanFault.message : PlanFault → String
  | noEngines => "no enabled engines"
  | unknownEngine request => "unknown engine name: " ++ request
  | repeatedEngine name => "engine '" ++ name ++ "' is configured more than once"

/-- What a survey tells of an engine that has failed. -/
inductive EngineFault where
  | failed (engine reason : String)
  | timedOut (engine : String) (seconds : Nat)
  | imageRequired (message : String)
  | runtime (message : String)
deriving DecidableEq

def EngineFault.message : EngineFault → String
  | failed engine reason => (EngineFailure.failed engine reason).message
  | timedOut engine seconds => (EngineFailure.timedOut engine seconds).message
  | imageRequired message => message
  | runtime message => message

/-- What a survey tells of a failure.  Trouble with containers and artifacts is told alike. -/
def EngineFailure.fault : EngineFailure → EngineFault
  | failed engine reason => .failed engine reason
  | timedOut engine seconds => .timedOut engine seconds
  | imageRequired message => .imageRequired message
  | runtime engine cause => .runtime (runtime engine cause).message
  | artifact cause => .runtime (artifact cause).message

inductive SurveyFailure where
  | settings (fault : SettingsFault)
  | plan (fault : PlanFault)
  | engine (fault : EngineFault)
  | io (reason : String)
deriving DecidableEq

def SurveyFailure.message : SurveyFailure → String
  | settings fault => "config error: " ++ fault.message
  | plan fault => "run error: " ++ fault.message
  | engine fault => "engine error: " ++ fault.message
  | io reason => "io error: " ++ reason

end StackSurvey
