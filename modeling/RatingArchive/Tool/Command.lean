import RatingArchive.Tool.Inspect
import RatingArchive.Tool.Pack
/-!
# Commands

The two tools, called with their arguments on a volume.
-/

namespace RatingArchive.Tool

/-- The tools there are. -/
inductive Command where
  /-- Packs a text file. -/
  | pack
  /-- Shows what is in an archive. -/
  | inspect
  deriving DecidableEq, Repr

namespace Command

/-- The name of a tool. -/
def name : Command → String
  | pack => "pack"
  | inspect => "inspect"

/-- The tool with the given name. -/
def ofName? : String → Option Command
  | "pack" => some pack
  | "inspect" => some inspect
  | _ => none

/-- The arguments of a tool. -/
def specs : Command → List OptionSpec
  | pack => Pack.specs
  | inspect => Inspect.specs

/-- How a tool is called. -/
def usage (command : Command) : String :=
  "Usage: " ++ command.name ++ String.join (command.specs.map fun spec =>
    let text := "--" ++ spec.name ++ if spec.valued then " <" ++ spec.name.toUpper ++ ">" else ""
    if spec.needed then " " ++ text else " [" ++ text ++ "]") ++ "\n"

/-- The end of a tool whose arguments were not read to the end. -/
def stopped (command : Command) : Stop → Outcome
  | .help => .success command.usage
  | .version => .success (command.name ++ " 0.1.0\n")
  | stop => .misused (stop.message ++ "\n\n" ++ command.usage)

/-- Calls a tool. -/
def run (command : Command) (arguments : List String) (volume : Volume) : Outcome × Volume :=
  match readArguments command.specs arguments with
  | .error stop => (command.stopped stop, volume)
  | .ok given =>
    match command with
    | pack => Pack.run (.ofGiven given) volume
    | inspect => (Inspect.run (.ofGiven given) volume, volume)

end Command

end RatingArchive.Tool
