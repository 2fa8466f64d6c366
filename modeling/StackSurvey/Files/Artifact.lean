import StackSurvey.Files.Disk
import StackSurvey.Journal

/-! # Artifacts

    An artifact is a file that exists only as long as an engine runs.  It is written where this
    process sees its path; a write that fails leaves nothing behind. -/

namespace StackSurvey

structure ArtifactFailure where
  path : String
  reason : String
deriving DecidableEq

namespace Artifact

/-- Removes an artifact.  It does not matter if it is gone; any other failure is worth a
    warning. -/
def discard (target : MountedPath) (disk : Disk) : List LogLine × Disk :=
  match disk.remove target.inside with
  | (.ok _, disk) => ([], disk)
  | (.error .notFound, disk) => ([], disk)
  | (.error fault, disk) =>
    ([{ level := .warn, message := "failed to remove engine artifact",
        fields := [("path", target.inside), ("error", fault.message)] }], disk)

/-- Makes the directory that is to hold an artifact. -/
def makeParent (target : MountedPath) (disk : Disk) : Except ArtifactFailure Unit × Disk :=
  match Path.parent? target.inside with
  | none => (.ok (), disk)
  | some parent =>
    let (result, disk) := disk.createAll parent
    (result.mapError fun fault => ⟨parent, fault.message⟩, disk)

def write (target : MountedPath) (bytes : Bytes) (disk : Disk) :
    Except ArtifactFailure Unit × List LogLine × Disk :=
  match makeParent target disk with
  | (.error failure, disk) => (.error failure, [], disk)
  | (.ok _, disk) =>
    match disk.write target.inside bytes with
    | (.ok _, disk) => (.ok (), [], disk)
    -- The file may have been made before it could not be filled.
    | (.error fault, disk) => (.error ⟨target.inside, fault.message⟩, discard target disk)

end Artifact
end StackSurvey
