import RatingArchive.Archive.Query
import RatingArchive.Archive.Window
import RatingArchive.Description
import RatingArchive.Text.Natural
import RatingArchive.Tool.Arguments
import RatingArchive.Tool.Outcome
import RatingArchive.Tool.Volume
/-!
# The inspection tool

Describes an archive, counts what is visible in it or before a cutoff, and prints the ratings of a
user or an item.
-/

namespace RatingArchive.Tool.Inspect

/-- What the tool is asked to show. -/
structure Options where
  path : String
  user : Option UInt64
  item : Option UInt64
  /-- The cutoff. -/
  before : Option UInt64
  /-- Whether the archive is verified when it is opened. -/
  verify : Bool
  deriving DecidableEq, Repr

/-- The number in a text, if it is one. -/
def number? (text : String) : Option UInt64 := (Text.readNatural text.toList).toOption

/-- The arguments of the tool. -/
def specs : List OptionSpec :=
  let numeric (name : String) : OptionSpec :=
    { name, valued := true, needed := false, admits := fun text => (number? text).isSome }
  [{ name := "path", valued := true, needed := true },
   numeric "user", numeric "item", numeric "before",
   { name := "verify", valued := false, needed := false }]

/-- What the arguments ask for. -/
def Options.ofGiven (given : Given) : Options where
  path := (given.lookup "path").getD ""
  user := (given.lookup "user").bind number?
  item := (given.lookup "item").bind number?
  before := (given.lookup "before").bind number?
  verify := (given.lookup "verify").isSome

/-- The texts, each in a line of its own. -/
def inLines (texts : List String) : String := String.join (texts.map (· ++ "\n"))

/-- The ratings with a key on one side. -/
def showGroup (archive : Archive) (side : Side) (key : UInt64) : List String :=
  match archive.group? side key with
  | some group => group.ratings.toList.map Rating.text
  | none => [side.name ++ " " ++ toString key ++ " not found"]

/-- The counts of what is visible, and the ratings asked for. -/
def showContent (options : Options) (archive : Archive) : List String :=
  ["records: " ++ toString archive.length ++ ", users: " ++ toString (archive.keys .user).length ++
    ", items: " ++ toString (archive.keys .item).length] ++
  (options.user.map (showGroup archive .user)).getD [] ++
  (options.item.map (showGroup archive .item)).getD []

/-- Does what the options ask for. -/
def run (options : Options) (volume : Volume) : Outcome :=
  if options.path.isEmpty then .failed "" ⟨"path MUST not be empty", []⟩
  else
    match volume.open? options.path with
    | none => .failed "" (.ofError (.io .notFound))
    | some file =>
      match Archive.ofFile file options.verify with
      | .error error => .failed "" (.ofError error)
      | .ok archive =>
        let description := archive.describe.text
        match options.before with
        | none => .success (inLines (description :: showContent options archive))
        | some cutoff =>
          match archive.window cutoff with
          | .error error => .failed (inLines [description]) (.ofError error)
          | .ok part =>
            let window :=
              "window: " ++ toString part.length ++ " records before " ++ toString cutoff
            .success (inLines (description :: window :: showContent options part))

end RatingArchive.Tool.Inspect
