import StackSurvey.Container.Daemon

/-! # Requests as calls

    The daemon is asked by calls of its web interface.  A call has a method and a path, a query
    whose names ascend, and a body where a container is to be created. -/

namespace StackSurvey.Container

structure Call where
  method : String
  path : String
  query : List (String × String) := []
  body : Option Json := none

/-- The number of seconds that a container has to end when it is asked to. -/
def stopSeconds : Nat := 10

/-- What the daemon is told about the host's side of a container.  It is the session that
    removes a container, not the daemon. -/
def hostPart (s : Spec) : Json :=
  .object [
    ("AutoRemove", .flag false),
    ("Binds", .ofTexts s.binds),
    ("CapDrop", .ofTexts s.droppedCapabilities),
    ("Memory", .ofNat s.memory),
    ("MemorySwap", .ofNat s.memorySwap),
    ("NetworkMode", .text s.network)]

/-- What the daemon is told about a container.  Without a command the image has its own. -/
def creation (s : Spec) (image : String) : Json :=
  .object <|
    [("AttachStderr", .flag true), ("AttachStdout", .flag true)] ++
    (if s.command.isEmpty then [] else [("Cmd", .ofTexts s.command)]) ++
    [("HostConfig", hostPart s),
      ("Image", .text image),
      ("Labels", .object (s.labels.map fun (k, v) => (k, .text v))),
      ("Tty", .flag false),
      ("User", .text s.user)]

def containerPath (name : String) : String := "/containers/" ++ name

def Request.call : Request → Call
  | .ping => { method := "GET", path := "/_ping" }
  | .create s image =>
    { method := "POST", path := "/containers/create", query := [("name", s.name)]
      body := some (creation s image) }
  | .attach name =>
    { method := "POST", path := containerPath name ++ "/attach"
      query := [("logs", "true"), ("stderr", "true"), ("stdout", "true"), ("stream", "true")] }
  | .start name => { method := "POST", path := containerPath name ++ "/start" }
  | .stop name =>
    { method := "POST", path := containerPath name ++ "/stop"
      query := [("t", toString stopSeconds)] }
  | .kill name => { method := "POST", path := containerPath name ++ "/kill" }
  | .wait name =>
    { method := "POST", path := containerPath name ++ "/wait"
      query := [("condition", "not-running")] }
  | .remove name =>
    { method := "DELETE", path := containerPath name
      query := [("force", "true"), ("link", "false"), ("v", "false")] }

end StackSurvey.Container
