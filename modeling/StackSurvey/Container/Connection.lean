import StackSurvey.Container.Session
import StackSurvey.Files.Disk

/-! # Reaching the daemon

    The daemon listens on a socket, which is a path on the disk.  Without anything at that path
    there is no daemon, and with something else there it does not answer. -/

namespace StackSurvey.Container

/-- The socket of the daemon unless another one is given. -/
def defaultSocket : String := "unix:///var/run/docker.sock"

/-- A path without the scheme in front of it. -/
def withoutScheme : List Char → List Char
  | 'u' :: 'n' :: 'i' :: 'x' :: ':' :: '/' :: '/' :: rest => withoutScheme rest
  | cs => cs

/-- The path of a socket. -/
def socketPath (socket : String) : String := String.ofList (withoutScheme socket.toList)

/-- The usual socket: the address of the daemon if that is a socket. -/
def usualSocket (address : Option String) : String :=
  match address with
  | some a => if "unix://".toList.isPrefixOf a.toList then a else defaultSocket
  | none => defaultSocket

/-- The failure to find a socket; `usual` stands in for an empty text. -/
def socketMissing (usual socket : String) : RuntimeFailure :=
  if socket.isEmpty then
    .connection ("failed to connect to docker: Socket not found: " ++ socketPath usual)
  else
    .connection ("failed to connect to docker at " ++ socket ++ ": Socket not found: " ++
      socketPath socket)

/-- The failure of the first request when nobody answers. -/
def unanswered : RuntimeFailure :=
  .connection "ping failed: Error in the hyper legacy client: client error (Connect)"

/-- Connects to the daemon that listens at one location. -/
def connectTo {δ : Type} (disk : Disk) (daemon : δ) (listening : Location)
    (usual socket : String) : Except RuntimeFailure (Exchange δ) :=
  match disk.locate (socketPath (if socket.isEmpty then usual else socket)) with
  | .error _ => .error (socketMissing usual socket)
  | .ok l =>
    if (disk.at? l).isNone then .error (socketMissing usual socket)
    else if l = listening then .ok { daemon }
    else .error unanswered

end StackSurvey.Container
