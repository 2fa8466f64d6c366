import StackSurvey.Container.Watcher
import StackSurvey.Files.Disk

/-! # What runs containers

    Engines do not care who runs their containers.  A runtime gets a specification and someone
    to follow the container, and gives back how it ended, or why it could not be run at all.
    The files it may mount are those of the disk. -/

namespace StackSurvey.Container

/-- What runs containers, in a state `ρ`. -/
structure Runtime (ρ : Type) where
  run : {τ : Type} → Disk → Spec → Watcher τ → ρ × τ → Except RuntimeFailure Outcome × (ρ × τ)

end StackSurvey.Container
