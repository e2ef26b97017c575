import DoxygenRest.Command.Execution

/-!
# The command line on a disk

Gives commands access to the files of the machine, and prints what comes of them.
-/

namespace DoxygenRest

/-- The cause behind a failure that the system reports. -/
def FileError.ofSystem (failure : IO.Error) : FileError :=
  match failure with
  | .noFileOrDirectory .. => .notFound
  | .inappropriateType _ 20 _ => .notDirectory
  | .inappropriateType _ 21 _ => .isDirectory
  | .permissionDenied _ code details => .other (details ++ " (os error " ++ toString code ++ ")")
  | failure => .other (toString failure)

instance : Files IO where
  isDirectory path := do
    ((← IO.currentDir) / path).isDir
  isPresent path := do
    ((← IO.currentDir) / path).pathExists
  readBytes path := do
    try
      return .ok (← IO.FS.readBinFile path)
    catch failure => return .error (.ofSystem failure)
  writeBytes path content := do
    try
      IO.FS.writeBinFile path content
      return .ok ()
    catch failure => return .error (.ofSystem failure)

end DoxygenRest

/-- Execute the command line that the program is started with. -/
def main (arguments : List String) : IO UInt32 := do
  let directory := (← IO.currentDir).toString
  let outcome ← DoxygenRest.Command.executeLine directory arguments
  (← IO.getStdout).putStr outcome.output
  (← IO.getStderr).putStr outcome.log
  return outcome.exitCode.toUInt32
