/-!
# Command-line arguments

Options are written `--name value` or `--name=value`, and switches `--name`. Each is given at most
once. A value must not look like an option unless it follows an equals sign. Arguments are read from
left to right, and the first that is wrong, or asks for help, decides.
-/

namespace RatingArchive.Tool

/-- What a tool understands. -/
structure OptionSpec where
  name : String
  /-- Whether the option has a value. -/
  valued : Bool
  /-- Whether the tool cannot do without it. -/
  needed : Bool
  /-- Whether a value is admitted. -/
  admits : String → Bool := fun _ => true

/-- Why the arguments were not read to the end. -/
inductive Stop where
  /-- Help was asked for. -/
  | help
  /-- The version was asked for. -/
  | version
  | unknown (argument : String)
  | valueMissing (name : String)
  | valueUnexpected (name : String)
  | valueRefused (name value : String)
  | repeated (name : String)
  | neededMissing (name : String)
  deriving DecidableEq, Repr

/-- The wording of a stop. -/
def Stop.message : Stop → String
  | help => "help"
  | version => "version"
  | unknown argument => "error: unexpected argument '" ++ argument ++ "'"
  | valueMissing name => "error: a value is required for '--" ++ name ++ "'"
  | valueUnexpected name => "error: no value is allowed for '--" ++ name ++ "'"
  | valueRefused name value => "error: invalid value '" ++ value ++ "' for '--" ++ name ++ "'"
  | repeated name => "error: '--" ++ name ++ "' is given more than once"
  | neededMissing name => "error: '--" ++ name ++ "' is required"

/-- The options that were given, with their values; switches have an empty one. -/
abbrev Given := List (String × String)

/-- Whether an argument looks like an option. A single minus sign does not. -/
def looksLikeOption (argument : String) : Bool :=
  match argument.toList with
  | '-' :: _ :: _ => true
  | _ => false

/-- The parts of a long option before and behind its equals sign. -/
def splitLong (body : List Char) : String × Option String :=
  match body.dropWhile (· ≠ '=') with
  | [] => (String.ofList body, none)
  | _ :: value => (String.ofList (body.takeWhile (· ≠ '=')), some (String.ofList value))

/-- The forms an argument can have. -/
inductive ArgumentForm where
  /-- Two minus signs: what follows are no options. -/
  | endOfOptions
  | long (name : String) (value : Option String)
  | short (letter : Char)
  | word
  deriving Repr

/-- The form of an argument. -/
def ArgumentForm.of (argument : String) : ArgumentForm :=
  match argument.toList with
  | ['-', '-'] => endOfOptions
  | '-' :: '-' :: body => let (name, value) := splitLong body; long name value
  | '-' :: letter :: _ => short letter
  | _ => word

/-- Adds an option to those given before, if its value is admitted. -/
def accept (spec : OptionSpec) (value : String) (given : Given) : Except Stop Given :=
  if spec.admits value then .ok (given ++ [(spec.name, value)])
  else .error (.valueRefused spec.name value)

/-- Reads the arguments that follow those given. -/
def scan (specs : List OptionSpec) (given : Given) : List String → Except Stop Given
  | [] => .ok given
  | argument :: rest =>
    match ArgumentForm.of argument with
    | .endOfOptions =>
      match rest with
      | [] => .ok given
      | word :: _ => .error (.unknown word)
    | .word => .error (.unknown argument)
    | .short 'h' => .error .help
    | .short 'V' => .error .version
    | .short _ => .error (.unknown argument)
    | .long "help" none => .error .help
    | .long "version" none => .error .version
    | .long name value =>
      match specs.find? (·.name == name) with
      | none => .error (.unknown argument)
      | some spec =>
        if (given.lookup name).isSome then .error (.repeated name)
        else
          match spec.valued, value, rest with
          | true, some value, rest => do scan specs (← accept spec value given) rest
          | true, none, next :: rest =>
            if looksLikeOption next then .error (.valueMissing name)
            else do scan specs (← accept spec next given) rest
          | true, none, [] => .error (.valueMissing name)
          | false, none, rest => do scan specs (← accept spec "" given) rest
          | false, some _, _ => .error (.valueUnexpected name)

/-- Reads all arguments. Every option that is needed has to be among them. -/
def readArguments (specs : List OptionSpec) (arguments : List String) : Except Stop Given := do
  let given ← scan specs [] arguments
  match specs.find? fun spec => spec.needed && (given.lookup spec.name).isNone with
  | some spec => throw (.neededMissing spec.name)
  | none => return given

end RatingArchive.Tool
