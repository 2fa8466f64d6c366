import StackSurvey.Container.Frame
import StackSurvey.Container.Outcome
import StackSurvey.Form

/-! # The container daemon

    Containers are run by a daemon that answers requests one at a time.  An answer has a status
    and a text; a status outside 200 to 299 other than 304 is a failure, and its text may carry
    a message.  Once a container has been started its channels arrive on the attached stream. -/

namespace StackSurvey.Container

/-! ## Section 1: Requests and replies -/

/-- What can be asked of the daemon. -/
inductive Request where
  | ping
  | create (spec : Spec) (image : String)
  | attach (name : String)
  | start (name : String)
  | stop (name : String)
  | kill (name : String)
  | wait (name : String)
  | remove (name : String)

structure Reply where
  status : Nat
  body : String

/-- Why a request has failed. -/
structure CallFailure where
  status : Nat
  message : String
deriving DecidableEq

def CallFailure.text (f : CallFailure) : String :=
  "Docker responded with status code " ++ toString f.status ++ ": " ++ f.message

namespace Reply

def isSuccess (r : Reply) : Bool := (200 ≤ r.status && r.status < 300) || r.status = 304

/-- The form of a text with a message. -/
def messageForm : Form String :=
  .record "DockerServerErrorMessage"
    [(Form.field "message" .text fun _ message => message).mandatory] ""

/-- The message in the text of a failure, or the whole text if there is none. -/
def message (r : Reply) : String :=
  match messageForm.parseJson r.body with
  | .ok message => message
  | .error _ => r.body

/-- The text of an answer, or the failure. -/
def result (r : Reply) : Except CallFailure String :=
  if r.isSuccess then .ok r.body else .error ⟨r.status, r.message⟩

/-- The status with which a container has exited, as the text of an answer tells it. -/
def exitStatus (body : String) : Except String (Option Int) :=
  if body.isEmpty then .ok none
  else
    match Json.parse body with
    | .error fault => .error ("Failed to deserialize JSON: " ++ fault.message)
    | .ok value =>
      match value.member? "StatusCode" with
      | some (.number (.whole n)) => .ok (some n.val)
      | _ => .ok none

end Reply

/-! ## Section 2: The attached stream -/

/-- How an attached stream ends. -/
inductive Ending where
  | closed
  | broken (reason : String)
deriving DecidableEq

/-- What arrives on an attached stream, and when, counted from the start of the container. -/
structure Attachment where
  frames : List (Duration × Frame) := []
  /-- Missing if the stream stays open until the container is made to end. -/
  ending : Option (Duration × Ending) := some ({}, .closed)

/-! ## Section 3: Daemons -/

/-- A daemon in a state `δ`. -/
structure Daemon (δ : Type) where
  /-- Answers a request. -/
  answer : Request → δ → Reply × δ
  /-- The stream attached to the container that was started last. -/
  attachment : δ → Attachment
  /-- The time since that container was started. -/
  elapsed : δ → Duration

end StackSurvey.Container
