/-! # Paths

    A path is text with slashes between its parts.  The artifacts of a run have two paths, since
    the process that writes them and the host that mounts them may see a directory under
    different names. -/

namespace StackSurvey

namespace Path

def isAbsolute (path : String) : Bool := path.toList.head? = some '/'

/-- A path below another one; an absolute path stands on its own. -/
def join (base rest : String) : String :=
  if isAbsolute rest || base.isEmpty then rest
  else if base.toList.getLast? = some '/' then base ++ rest
  else base ++ "/" ++ rest

/-- The parts between the slashes, empty ones included. -/
def split : List Char → List (List Char)
  | [] => [[]]
  | c :: rest =>
    if c = '/' then [] :: split rest
    else
      match split rest with
      | [] => [[c]]
      | part :: parts => (c :: part) :: parts

def parts (path : String) : List String := (split path.toList).map String.ofList

/-- A path, written backwards, without the slashes and single points at its end. -/
def trimEnd : List Char → List Char
  | ['/'] => ['/']
  | '/' :: rest => trimEnd rest
  | '.' :: '/' :: rest => trimEnd ('/' :: rest)
  | cs => cs

/-- The path of the directory that holds a path; nothing for the root. -/
def parent? (path : String) : Option String :=
  match trimEnd path.toList.reverse with
  | [] | ['/'] => none
  | cs => some (String.ofList (trimEnd (cs.dropWhile (· ≠ '/'))).reverse)

end Path

/-- A path as the host sees it, and as this process sees it. -/
structure MountedPath where
  host : String
  inside : String
deriving DecidableEq, Repr

namespace MountedPath

/-- A path that looks the same from both sides. -/
def ofLocal (path : String) : MountedPath := ⟨path, path⟩

/-- A path below another one, on both sides. -/
def join (p : MountedPath) (rest : String) : MountedPath :=
  ⟨Path.join p.host rest, Path.join p.inside rest⟩

end MountedPath
end StackSurvey
