import StackSurvey.Json.Printer
import StackSurvey.Registry.Basic
import StackSurvey.Report.Style

/-! # Listings of a registry

    The engines of a registry can be listed as a table or as data. -/

namespace StackSurvey.Registry

open Report (padded styled)

/-! ## Section 1: The table -/

def nameWidth : Nat := 20

/-- The width of the column that says whether an engine is enabled. -/
def enabledWidth : Nat := 9

def channelsWidth : Nat := 24

def row (name enabled channels description : String) : String :=
  name ++ " " ++ enabled ++ " " ++ channels ++ " " ++ description ++ "\n"

/-- The row above all others. -/
def headerRow (colour : Bool) : String :=
  let bold := styled colour .bold
  row (bold (padded nameWidth "NAME")) (bold (padded enabledWidth "ENABLED"))
    (bold (padded channelsWidth "CHANNELS")) (bold "DESCRIPTION")

/-- A line below a row, if there is anything to name. -/
def ruleLine (what : String) (names : List String) : String :=
  if names.isEmpty then "" else "  after " ++ what ++ ": " ++ String.intercalate ", " names ++ "\n"

/-- The rows of an entry. -/
def entryRows (colour : Bool) (e : RegistryEntry) : String :=
  let enabled :=
    if e.enabled then styled colour .green (padded enabledWidth "yes")
    else styled colour .red (padded enabledWidth "no")
  let channels := padded channelsWidth (String.intercalate "," (Dictionary.names e.channels))
  row (padded nameWidth e.name) enabled channels e.description ++
    ruleLine "engines" e.rules.engines ++ ruleLine "features" e.rules.features

def table (colour : Bool) (r : Registry) : String :=
  if r.entries.isEmpty then "No engines registered.\n"
  else headerRow colour ++ String.join (r.entries.map (entryRows colour))

/-! ## Section 2: Data -/

/-- What a listing says of an entry. -/
def summary (e : RegistryEntry) : Json :=
  .object [
    ("name", .text e.name),
    ("description", .text e.description),
    ("enabled", .flag e.enabled),
    ("channels", .ofTexts (Dictionary.names e.channels)),
    ("after_engines", .ofTexts e.rules.engines),
    ("after_features", .ofTexts e.rules.features)]

/-- The listing of a registry as data. -/
def listing (r : Registry) : String :=
  (Json.object [("engines", .list (r.entries.map summary))]).pretty ++ "\n"

end StackSurvey.Registry
