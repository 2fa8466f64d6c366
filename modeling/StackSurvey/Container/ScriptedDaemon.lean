import StackSurvey.Container.Daemon

/-! # A daemon that follows a script

    This daemon runs no containers.  It grants every request unless its script has another
    reply, and what it sends on an attached stream and as exit status is scripted too.  Each
    container that is created takes the next of the scripted runs, or the common one when there
    are none left. -/

namespace StackSurvey.Container

/-- The replies that can be scripted. -/
inductive Verb where
  | ping
  | create
  | attach
  | start
  | stop
  | kill
  | wait
  | remove
deriving DecidableEq, Repr

def Request.verb : Request → Verb
  | .ping => .ping
  | .create _ _ => .create
  | .attach _ => .attach
  | .start _ => .start
  | .stop _ => .stop
  | .kill _ => .kill
  | .wait _ => .wait
  | .remove _ => .remove

/-- What happens to one container. -/
structure Scene where
  /-- The bytes of the attached stream. -/
  stream : Bytes := []
  /-- Does the stream stay open? -/
  hangs : Bool := false
  exitStatus : Int := 0
  /-- The replies that differ from the usual ones. -/
  replies : List (Verb × Reply) := []

/-- The common scene, those for the containers to come, and the one of the latest container. -/
structure ScriptedDaemon where
  common : Scene := {}
  upcoming : List Scene := []
  current : Scene := common

namespace ScriptedDaemon

/-- The scene of the next container. -/
def next (s : ScriptedDaemon) : ScriptedDaemon :=
  match s.upcoming with
  | [] => { s with current := s.common }
  | scene :: rest => { s with current := scene, upcoming := rest }

/-- The scene that a request belongs to. -/
def enter (s : ScriptedDaemon) (r : Request) : ScriptedDaemon :=
  match r.verb with
  | .create => s.next
  | _ => s

def usual (scene : Scene) : Verb → Reply
  | .create => ⟨201, ""⟩
  | .attach => ⟨200, ""⟩
  | .wait => ⟨200, "\x7b\"StatusCode\":" ++ toString scene.exitStatus ++ "\x7d"⟩
  | .ping => ⟨200, "OK"⟩
  | _ => ⟨204, ""⟩

def reply (scene : Scene) (v : Verb) : Reply :=
  match scene.replies.find? fun r => r.1 = v with
  | some (_, r) => r
  | none => usual scene v

/-- What a scene sends on the attached stream.  A stream that ends inside a frame is broken. -/
def attachment (scene : Scene) : Attachment :=
  let (frames, cut) := Frame.decode scene.stream
  let ending : Ending := if cut.isEmpty then .closed else .broken "bytes remaining on stream"
  { frames := frames.map fun f => ({}, f)
    ending := if scene.hangs then none else some ({}, ending) }

/-- The scripted daemon as a daemon.  It answers at once, and pings as if in the first scene. -/
def daemon : Daemon ScriptedDaemon where
  answer r s :=
    let s := s.enter r
    let scene := match r with | .ping => (s.upcoming.head?).getD s.common | _ => s.current
    (reply scene r.verb, s)
  attachment s := attachment s.current
  elapsed _ := {}

end ScriptedDaemon
end StackSurvey.Container
