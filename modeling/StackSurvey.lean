import StackSurvey.Command.Run
import StackSurvey.Container.Call
import StackSurvey.Container.Connection
import StackSurvey.Container.Rehearsal
import StackSurvey.Container.ScriptedDaemon
import StackSurvey.Journal.Exposition
import StackSurvey.Proofs.Container.Budget
import StackSurvey.Proofs.Container.Duty
import StackSurvey.Proofs.Container.Interleaving
import StackSurvey.Proofs.Container.Removal
import StackSurvey.Proofs.Engine.Agreement
import StackSurvey.Proofs.Engine.Artifacts
import StackSurvey.Proofs.Engine.Crash
import StackSurvey.Proofs.Engine.Exclusion
import StackSurvey.Proofs.Engine.Hearing
import StackSurvey.Proofs.Engine.Ration
import StackSurvey.Proofs.Engine.Tally
import StackSurvey.Proofs.Feature.Precedence
import StackSurvey.Proofs.Feature.RoundTrip
import StackSurvey.Proofs.Finding.Format
import StackSurvey.Proofs.Finding.Surroundings
import StackSurvey.Proofs.Number.Word
import StackSurvey.Proofs.Registry.Plans
import StackSurvey.Proofs.Registry.Selection
import StackSurvey.Proofs.Settings.Bounds
import StackSurvey.Proofs.Settings.Mounts
import StackSurvey.Proofs.Settings.Overrides
import StackSurvey.Proofs.Stream.Boundaries
import StackSurvey.Proofs.Stream.Inspection
import StackSurvey.Proofs.Survey.Accounts
import StackSurvey.Proofs.Survey.AllOrNothing
import StackSurvey.Proofs.Survey.Allowance
import StackSurvey.Proofs.Survey.Provenance
import StackSurvey.Proofs.Survey.Reference
import StackSurvey.Proofs.Survey.Repetition
import StackSurvey.Proofs.Survey.Visits
