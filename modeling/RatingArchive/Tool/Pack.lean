import RatingArchive.Packer
import RatingArchive.RatingLine
import RatingArchive.Sink.File
import RatingArchive.Text.Lines
import RatingArchive.Tool.Arguments
import RatingArchive.Tool.Outcome
import RatingArchive.Tool.Volume
/-!
# The packing tool

Packs the ratings in the lines of a text file. Blank lines do not count. At the first line that is
no rating the tool fails, and leaves an archive of the ratings before it.
-/

namespace RatingArchive.Tool.Pack

/-- What the tool is asked to do. -/
structure Options where
  /-- The path of the text file. -/
  input : String
  /-- The path of the archive. -/
  output : String
  delimiter : String
  /-- Whether the archive has timestamps. -/
  timestamps : Bool
  deriving DecidableEq, Repr

/-- The arguments of the tool. -/
def specs : List OptionSpec :=
  [{ name := "input", valued := true, needed := true },
   { name := "output", valued := true, needed := true },
   { name := "delimiter", valued := true, needed := false },
   { name := "timestamps", valued := false, needed := false }]

/-- What the arguments ask for. A comma is the delimiter unless another is given. -/
def Options.ofGiven (given : Given) : Options where
  input := (given.lookup "input").getD ""
  output := (given.lookup "output").getD ""
  delimiter := (given.lookup "delimiter").getD ","
  timestamps := (given.lookup "timestamps").isSome

/-- The format of the archive. -/
def Options.format (options : Options) : Format :=
  if options.timestamps then .timestamped else .plain

/-- An operation on the packer, whose failure ends the tool. -/
abbrev Action (α : Type) := EStateM Failure (Packer FileSink) α

/-- Adds a rating to the archive. -/
def writeRating (rating : Rating) : Action Unit := fun packer =>
  match Packer.write rating packer with
  | .ok () packer => .ok () packer
  | .error error packer => .error (.ofError error) packer

/-- Adds the ratings in the lines to the archive. `number` is the number of the first line. -/
def writeLines (options : Options) (number : Nat) : List Bytes → Action Unit
  | [] => pure ()
  | bytes :: rest =>
    match Text.ofUtf8? bytes with
    | none => throw ⟨IoError.notText.message, []⟩
    | some line => do
      if (Text.trim line.toList).isEmpty then
        writeLines options (number + 1) rest
      else
        match readLine options.delimiter.toList options.timestamps line.toList with
        | .error fault =>
          throw ((Failure.ofMessages fault.messages).within
            (options.input ++ ":" ++ toString number))
        | .ok rating =>
          writeRating rating
          writeLines options (number + 1) rest

/-- Closes the archive. -/
def closePacker : Action Unit := fun packer =>
  match Packer.close packer with
  | .ok () packer => .ok () packer
  | .error error packer => .error (.ofError error) packer

/-- Gives up the packer, and answers what is left in the file. -/
def abandoned (packer : Packer FileSink) : Bytes :=
  match Packer.drop packer with
  | .ok () packer => packer.sink.released
  | .error _ packer => packer.sink.released

/-- Does what the options ask for. -/
def run (options : Options) (volume : Volume) : Outcome × Volume :=
  if options.delimiter.isEmpty then
    (.failed "" ⟨"delimiter MUST not be empty", []⟩, volume)
  else if (volume.content? options.input).isNone then
    (.failed "" ⟨"open " ++ options.input, [IoError.notFound.message]⟩, volume)
  else if !volume.admits options.output then
    (.failed "" (.ofError (.io .notFound)), volume)
  else
    -- the output is emptied before the input is read, which shows if they are one file
    let volume := volume.store options.output []
    let lines := Text.lines ((volume.content? options.input).getD [])
    match Packer.new (FileSink.create options.output) options.format with
    | .error (error, sink) =>
      (.failed "" (.ofError error), volume.store options.output sink.released)
    | .ok packer =>
      match (do writeLines options 1 lines; closePacker).run packer with
      | .ok () packer => (.success "", volume.store options.output packer.sink.released)
      | .error failure packer =>
        (.failed "" failure, volume.store options.output (abandoned packer))

end RatingArchive.Tool.Pack
