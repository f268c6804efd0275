import SchemaDelta.Script.Basic
import SchemaDelta.Command.Arguments
import SchemaDelta.Command.Files

/-!
# The command

The command reads the text of a delta and writes the script of it to a file or to its output. It
stops at the first thing that is wrong: its arguments, the scope, the input, the document, and at
last the output file. It is written for any file system.
-/

namespace SchemaDelta.Command

/-- What a call leaves behind: its exit code, its output, and its message if it failed. -/
structure Result where
  code : Nat
  output : String := ""
  message : Option String := none

/-- A call that failed with a message. -/
def Result.failure (message : String) : Result :=
  { code := 1, message := some message }

/-- The last line of what a failed call shows, which is the message with a line end after it. -/
def Result.lastLine? (r : Result) : Option String :=
  r.message.bind fun text => (Text.lines (text ++ "\n")).getLast?

/-- A call whose arguments cannot be used. -/
def Result.usage : Result :=
  { code := 2 }

/-- The script is written to the output of the call, with a line end, or to a file, without. -/
def deliver {m : Type → Type} [Monad m] (files : Files m) (output : Option String)
    (script : String) : m Result := do
  match output with
  | none => return { code := 0, output := script ++ "\n" }
  | some path =>
    match ← files.write path script with
    | .ok () => return { code := 0 }
    | .error e => return .failure ("Failed to write " ++ path ++ ": " ++ e.message)

/-- A call with the given arguments. The default release is for a call that names none. -/
def run {m : Type → Type} [Monad m] (files : Files m) (args : List String)
    (defaultRelease : Option String) : m Result := do
  match Arguments.read? args defaultRelease with
  | none => return .usage
  | some a =>
    match Scope.ofName? a.scope with
    | none => return .failure ("Invalid scope: " ++ a.scope)
    | some scope =>
      match ← files.read a.input with
      | .error e => return .failure ("Failed to read " ++ a.input ++ ": " ++ e.message)
      | .ok text =>
        match Script.forScope scope text a.release with
        | .error e => return .failure ("Error: " ++ e.message)
        | .ok script => deliver files a.output script.text

end SchemaDelta.Command
