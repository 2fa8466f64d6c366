import StackSurvey.Container.Spec

/-! # Outcomes and events of a container

    A container that was started ends with an outcome.  Those who follow it learn of its start,
    of each chunk of output, and of its end: it ran out of time, finished, or failed. -/

namespace StackSurvey.Container

/-- How the run of a container ended. -/
structure Outcome where
  exitStatus : Option Int := none
  /-- What is kept of the error channel. -/
  stderr : String := ""
  duration : Duration := {}
  timedOut : Bool := false
  /-- Was it stopped because no more output was wanted? -/
  stopped : Bool := false
  error : Option String := none
deriving DecidableEq

/-- A container did well if it was stopped on purpose or exited with status 0, in time and
    without an error. -/
def Outcome.isSuccess (o : Outcome) : Bool :=
  !o.timedOut && o.error.isNone && (o.stopped || o.exitStatus = some 0)

/-- What happens to a container, as seen from outside. -/
inductive Event where
  | started (who : Identity)
  | output (who : Identity) (chunk : Bytes)
  | finished (who : Identity) (outcome : Outcome)
  | timedOut (who : Identity) (outcome : Outcome)
  | failed (who : Identity) (outcome : Outcome)
deriving DecidableEq

/-- The event at the end of a container. -/
def Event.ofOutcome (who : Identity) (o : Outcome) : Event :=
  if o.timedOut then .timedOut who o
  else if o.isSuccess then .finished who o
  else .failed who o

def Event.isTerminal : Event → Bool
  | .started _ | .output _ _ => false
  | .finished _ _ | .timedOut _ _ | .failed _ _ => true

theorem Event.ofOutcome_isTerminal (who : Identity) (o : Outcome) :
    (Event.ofOutcome who o).isTerminal = true := by
  unfold Event.ofOutcome
  split
  · rfl
  · split <;> rfl

/-- Is more output wanted? -/
inductive Control where
  | continue
  | stop
deriving DecidableEq, Repr

/-- Why a container could not be run at all. -/
inductive RuntimeFailure where
  | imageRequired (container reason : String)
  | api (reason : String)
  | connection (reason : String)
deriving DecidableEq

def RuntimeFailure.message : RuntimeFailure → String
  | .imageRequired container reason =>
    "image required for container '" ++ container ++ "': " ++ reason
  | .api reason => "docker api error: " ++ reason
  | .connection reason => "docker connection error: " ++ reason

end StackSurvey.Container
