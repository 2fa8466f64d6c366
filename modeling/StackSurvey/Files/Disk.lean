import StackSurvey.Files.Path
import StackSurvey.Text.Utf8

/-! # A file system as a value

    Files and directories are entries at locations, a location being the names on the way from
    the root.  Operations resolve a path from left to right, so every directory on the way must
    exist, and two points lead back up.  A device may refuse to do what is asked of it, which
    `refuses` says for each location. -/

namespace StackSurvey

inductive FileFault where
  | notFound
  | exists
  | notDirectory
  | isDirectory
  | denied
  | noSpace
  | nameTooLong
  | nulInName
  | notUtf8
deriving DecidableEq, Repr

def FileFault.message : FileFault → String
  | .notFound => "No such file or directory (os error 2)"
  | .exists => "File exists (os error 17)"
  | .notDirectory => "Not a directory (os error 20)"
  | .isDirectory => "Is a directory (os error 21)"
  | .denied => "Permission denied (os error 13)"
  | .noSpace => "No space left on device (os error 28)"
  | .nameTooLong => "File name too long (os error 36)"
  | .nulInName => "file name contained an unexpected NUL byte"
  | .notUtf8 => "stream did not contain valid UTF-8"

/-- What is at a location. -/
inductive Entry where
  | file (bytes : Bytes)
  | directory
deriving DecidableEq

/-- The names on the way from the root. -/
abbrev Location : Type := List String

/-- What can be asked of the device that holds the files. -/
inductive Access where
  | makeDirectory
  | makeFile
  | fill
  | remove
deriving DecidableEq, Repr

/-- Files and directories.  The root is always a directory. -/
structure Disk where
  entries : List (Location × Entry) := []
  /-- Where paths that do not start at the root start. -/
  here : Location := []
  /-- What the device refuses to do, and why. -/
  refuses : Access → Location → Option FileFault := fun _ _ => none

namespace Disk

/-! ## Section 1: Locations -/

def at? (d : Disk) (l : Location) : Option Entry :=
  if l = [] then some .directory else (d.entries.find? fun e => e.1 = l).map (·.2)

def set (d : Disk) (l : Location) (e : Entry) : Disk :=
  { d with entries := d.entries.filter (fun x => x.1 ≠ l) ++ [(l, e)] }

def erase (d : Disk) (l : Location) : Disk :=
  { d with entries := d.entries.filter fun x => x.1 ≠ l }

/-- The locations of the directories that lead to a location, the nearest to the root first. -/
def ancestors (l : Location) : List Location :=
  (List.range (l.length - 1)).map fun n => l.take (n + 1)

/-- Puts an entry at a location together with the directories that lead there. -/
def place (d : Disk) (l : Location) (e : Entry) : Disk :=
  ((ancestors l).foldl (fun d l => d.set l .directory) d).set l e

/-- The location that a path from the root spells out. -/
def spelled (path : String) : Location := (Path.parts path).filter fun part => part ≠ ""

/-- The longest name, in bytes. -/
def nameLimit : Nat := 255

/-- The longest path, in bytes. -/
def pathLimit : Nat := 4095

/-- Follows parts of a path from a location.  What is there at the end may not exist. -/
def walk (d : Disk) : Location → List String → Except FileFault Location
  | l, [] => .ok l
  | l, part :: rest =>
    match d.at? l with
    | none => .error .notFound
    | some (.file _) => .error .notDirectory
    | some .directory =>
      if part = "" || part = "." then d.walk l rest
      -- Above the root is the root itself.
      else if part = ".." then d.walk l.dropLast rest
      else if nameLimit < part.utf8ByteSize then .error .nameTooLong
      else d.walk (l ++ [part]) rest

def locate (d : Disk) (path : String) : Except FileFault Location :=
  if path.toList.contains '\x00' then .error .nulInName
  else if path.isEmpty then .error .notFound
  else if pathLimit < path.utf8ByteSize then .error .nameTooLong
  else d.walk (if Path.isAbsolute path then [] else d.here) (Path.parts path)

/-- What a path leads to. -/
def find? (d : Disk) (path : String) : Option Entry :=
  match d.locate path with
  | .ok l => d.at? l
  | .error _ => none

def isDirectory (d : Disk) (path : String) : Bool := d.find? path = some .directory

def exists? (d : Disk) (path : String) : Bool := (d.find? path).isSome

/-- The path of a location. -/
def pathOf (l : Location) : String := "/" ++ String.intercalate "/" l

/-- The path from the root to what a path leads to. -/
def canonical (d : Disk) (path : String) : Except FileFault String := do
  let l ← d.locate path
  if (d.at? l).isSome then return pathOf l else throw .notFound

/-! ## Section 2: Operations -/

def makeDirectory (d : Disk) (path : String) : Except FileFault Disk := do
  let l ← d.locate path
  if (d.at? l).isSome then throw .exists
  match d.refuses .makeDirectory l with
  | some fault => throw fault
  | none => return d.set l .directory

/-- Makes a directory, and before it those on the way that do not exist.  What was made on the way
    stays, also if the directory itself cannot be made. -/
def makeDirectories (d : Disk) : (fuel : Nat) → String → Except FileFault Unit × Disk
  | 0, _ => (.error .notFound, d)
  | fuel + 1, path =>
    if path.isEmpty then (.ok (), d)
    else
      match d.makeDirectory path with
      | .ok d => (.ok (), d)
      | .error .notFound =>
        match Path.parent? path with
        | none => (.error .notFound, d)
        | some p =>
          match d.makeDirectories fuel p with
          | (.error fault, d) => (.error fault, d)
          | (.ok _, d) =>
            match d.makeDirectory path with
            | .ok d => (.ok (), d)
            -- Making those above may have made this one too, if the path ends in two points.
            | .error fault => (if d.isDirectory path then .ok () else .error fault, d)
      | .error fault => (if d.isDirectory path then .ok () else .error fault, d)

/-- Makes a directory together with all above it. -/
def createAll (d : Disk) (path : String) : Except FileFault Unit × Disk :=
  d.makeDirectories (path.length + 1) path

/-- The location at which a file of that path can be written.  A path that ends in a slash is
    that of a directory. -/
def locateFile (d : Disk) (path : String) : Except FileFault Location := do
  if path.toList.getLast? = some '/' then
    let _ ← d.locate ((Path.parent? path).getD path)
    throw .isDirectory
  let l ← d.locate path
  match d.at? l with
  | some .directory => throw .isDirectory
  | _ => return l

/-- Writes a file.  If that fails half-way, an empty file is left. -/
def write (d : Disk) (path : String) (bytes : Bytes) : Except FileFault Unit × Disk :=
  match d.locateFile path with
  | .error fault => (.error fault, d)
  | .ok l =>
    match d.refuses .makeFile l with
    | some fault => (.error fault, d)
    | none =>
      match d.refuses .fill l with
      | some fault => (.error fault, d.set l (.file []))
      | none => (.ok (), d.set l (.file bytes))

def read (d : Disk) (path : String) : Except FileFault Bytes := do
  match d.at? (← d.locate path) with
  | some (.file bytes) => return bytes
  | some .directory => throw .isDirectory
  | none => throw .notFound

def readText (d : Disk) (path : String) : Except FileFault String := do
  match Utf8.decode (← d.read path) with
  | .ok text => return text
  | .error _ => throw .notUtf8

def remove (d : Disk) (path : String) : Except FileFault Unit × Disk :=
  match d.locate path with
  | .error fault => (.error fault, d)
  | .ok l =>
    match d.at? l with
    | none => (.error .notFound, d)
    | some .directory => (.error .isDirectory, d)
    | some (.file _) =>
      match d.refuses .remove l with
      | some fault => (.error fault, d)
      | none => (.ok (), d.erase l)

end Disk
end StackSurvey
