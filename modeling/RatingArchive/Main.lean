import RatingArchive.Tool.Command
/-!
# The command line

`pack` and `inspect` on the files of this machine. The tools themselves are functions on volumes;
here their files are read beforehand, and the file they made is written afterwards.
-/

namespace RatingArchive

open Tool

/-- The place to which a path leads on this machine. -/
def findPlace (path : String) : IO String := do
  try return (← IO.FS.realPath path).toString
  catch _ => return plainPath path

/-- The file at a place of this machine. -/
def readFile (place : String) : IO (Option File) := do
  try
    let resolved ← IO.FS.realPath place
    let modified := (← resolved.metadata).modified
    let content ← IO.FS.readBinFile resolved
    return some
      ⟨content.toList, some place, some ⟨modified.sec * 1000000000 + modified.nsec.toNat⟩⟩
  catch _ => return none

/-- The volume with the files of this machine to which the given paths lead. -/
def readVolume (paths : List String) (canCreate : Bool) : IO Volume := do
  let places ← paths.mapM fun path => return (path, ← findPlace path)
  let files ← places.mapM fun (_, place) => return (place, ← readFile place)
  return {
    place := fun path => (places.lookup path).getD path
    file? := fun place => (files.lookup place).join
    canCreate := fun _ => canCreate }

/-- Prints what a tool printed, and answers its exit code. -/
def finish (outcome : Outcome) : IO UInt32 := do
  IO.print outcome.stdout
  IO.eprint outcome.stderr
  return UInt32.ofNat outcome.code

/-- Packs a file of this machine. The archive is written if the tool made it. -/
def runPack (options : Pack.Options) : IO UInt32 := do
  let before ← readVolume [options.input, options.output] true
  let (outcome, after) := Pack.run options before
  let made := after.content? options.output
  if made = before.content? options.output then finish outcome
  else
    try
      IO.FS.writeBinFile options.output (ByteArray.mk (made.getD []).toArray)
      finish outcome
    catch _ =>
      finish (Pack.run options { before with canCreate := fun _ => false }).1

/-- Calls a tool on the files of this machine. -/
def runCommand (command : Command) (arguments : List String) : IO UInt32 := do
  match readArguments command.specs arguments with
  | .error stop => finish (command.stopped stop)
  | .ok given =>
    match command with
    | .pack => runPack (.ofGiven given)
    | .inspect =>
      let options := Inspect.Options.ofGiven given
      finish (Inspect.run options (← readVolume [options.path] false))

end RatingArchive

/-- The first argument names the tool, and the others are its arguments. -/
def main (arguments : List String) : IO UInt32 := do
  match arguments with
  | name :: rest =>
    match RatingArchive.Tool.Command.ofName? name with
    | some command => RatingArchive.runCommand command rest
    | none => RatingArchive.finish (.misused ("error: unknown command '" ++ name ++ "'\n"))
  | [] => RatingArchive.finish (.misused "Usage: pack | inspect\n")
