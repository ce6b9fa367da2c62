import RatingArchive.Error
/-!
# Outcomes of a tool

A tool ends with an exit code and what it printed. A failure is printed as a chain of messages: what
failed, and below it what that is due to.
-/

namespace RatingArchive.Tool

/-- How a tool ended. -/
structure Outcome where
  code : Nat
  stdout : String
  stderr : String
  deriving DecidableEq, Repr

/-- What failed, with its causes. -/
structure Failure where
  message : String
  causes : List String := []
  deriving DecidableEq, Repr

namespace Failure

/-- The failure of an operation on an archive. The failure of a medium has its report as a cause. -/
def ofError (error : Error) : Failure :=
  match error with
  | .io failure => ⟨error.message, [failure.message]⟩
  | _ => ⟨error.message, []⟩

/-- The failure that a chain of messages describes. -/
def ofMessages : List String → Failure
  | [] => ⟨"", []⟩
  | message :: causes => ⟨message, causes⟩

/-- The failure of something larger, due to this one. -/
def within (context : String) (failure : Failure) : Failure :=
  ⟨context, failure.message :: failure.causes⟩

/-- The causes below the message. Several causes are numbered. -/
def causeText : List String → String
  | [] => ""
  | [cause] => "\n\nCaused by:\n    " ++ cause
  | causes =>
    "\n\nCaused by:" ++ String.join (causes.zipIdx.map fun (cause, i) =>
      let number := toString i
      "\n" ++ "".pushn ' ' (5 - number.length) ++ number ++ ": " ++ cause)

/-- The failure as a tool prints it. -/
def text (failure : Failure) : String :=
  "Error: " ++ failure.message ++ causeText failure.causes ++ "\n"

end Failure

namespace Outcome

/-- The end of a tool that did its work. -/
def success (stdout : String) : Outcome := ⟨0, stdout, ""⟩

/-- The end of a tool that failed after printing `stdout`. -/
def failed (stdout : String) (failure : Failure) : Outcome := ⟨1, stdout, failure.text⟩

/-- The end of a tool that was called with wrong arguments. -/
def misused (message : String) : Outcome := ⟨2, "", message⟩

end Outcome

end RatingArchive.Tool
