import SchemaDelta.Command.Run

/-!
# The program

The command on the files of the machine. The default release stands in the environment, in the
variable that is named for the program.
-/

namespace SchemaDelta.Program

open Command

/-- The number of a system error, which some calls give as its negative. -/
def errorNumber (code : UInt32) : Nat :=
  min code.toNat (-code).toNat

/-- The error that a system call failed with. -/
def fileError : IO.Error → FileError
  | .noFileOrDirectory _ _ _ => .missing
  | .inappropriateType _ code _ => if errorNumber code = 21 then .isDirectory else .notDirectory
  | .invalidArgument _ code text =>
    if errorNumber code = 36 then .nameTooLong
    else .other (text ++ " (os error " ++ toString (errorNumber code) ++ ")")
  | .permissionDenied _ _ _ => .other "Permission denied (os error 13)"
  | e => .other (toString e)

/-- The files of the machine. -/
def machine : Files IO where
  read path := do
    try
      return match String.fromUTF8? (← IO.FS.readBinFile path) with
        | some text => .ok text
        | none => .error .notText
    catch e => return .error (fileError e)
  write path text := do
    try
      IO.FS.writeBinFile path text.toUTF8
      return .ok ()
    catch e => return .error (fileError e)

/-- The environment variable for the default release. -/
def releaseVariable (programPath : String) : String :=
  (DataType.lastSegment programPath).toUpper ++ "_DB_VERSION"

/-- How the program is called. -/
def usageText : String :=
  "usage: INPUT [-o|--output PATH] [--db-version VERSION] [-s|--scope SCOPE] [--log-level LEVEL]"

end SchemaDelta.Program

open SchemaDelta in
/-- The command line. -/
def main (args : List String) : IO UInt32 := do
  let name := Program.releaseVariable (toString (← IO.appPath))
  let result ← Command.run Program.machine args (← IO.getEnv name)
  IO.print result.output
  match result.message with
  | some text => IO.eprintln text
  | none => if result.code = 2 then IO.eprintln Program.usageText
  return UInt32.ofNat result.code
