import Tripwire.Engine

/-!
# Listings

A listing shows every registered condition in ascending order of ids: its name, whether it is
satisfied, its canonical text, and what it asks for.
-/

namespace Tripwire

namespace Action

/-- One line on a message; a payload stands in braces. -/
def describe (action : Action) : String :=
  let message := "sensor " ++ toString action.target ++ ": " ++ action.message
  if action.payload.entries.isEmpty then message
  else
    let values := action.payload.entries.map fun (name, value) => name ++ ": " ++ value.print
    message ++ " \x7b" ++ ", ".intercalate values ++ "\x7d"

end Action

namespace Engine

/-- A name in double quotes, each double quote in it escaped. -/
def quoteName (name : String) : String :=
  "\"" ++ name.replace "\"" "\\\"" ++ "\""

/-- The line on a condition and those on its actions. -/
def describe (engine : Engine) (condition : ConditionId) : List String :=
  match engine.root? condition with
  | none => []
  | some root =>
      let name :=
        match root.name with
        | some name => " " ++ quoteName name
        | none => ""
      let status := if engine.isSatisfied condition then "true" else "false"
      let text := (engine.print? condition).getD ""
      ("#" ++ toString condition ++ name ++ " [" ++ status ++ "] " ++ text) ::
        root.actions.map fun action => "  -> " ++ action.describe

/-- The lines of a listing. -/
def listingLines (engine : Engine) : List String :=
  ["// trigger-rs condition dump",
    "// Sensors: " ++ toString engine.sensors.size,
    "// Conditions: " ++ toString engine.roots.size ++ " (" ++
      toString engine.satisfied.size ++ " satisfied)",
    ""] ++ engine.roots.keys.flatMap engine.describe

/-- The text of a listing; every line is ended. -/
def listing (engine : Engine) : String :=
  String.join (engine.listingLines.map (· ++ "\n"))

end Engine

end Tripwire
