import DoxygenRest.Index.Directory
import DoxygenRest.PassError
import DoxygenRest.Settings

/-!
# Commands

What the command line can be asked to do, how that can fail, and what comes of it: a text on the
standard output, a log on the standard error, and an exit code.
-/

namespace DoxygenRest

/-- What to render, and where to. -/
structure RenderRequest where
  /-- Members or compounds by identifier or name; if there are none, all members of some kinds. -/
  targets : List String := []
  /-- Kinds that take precedence over those of the settings. -/
  kinds : List String := []
  /-- A directory that takes precedence over that of the settings. -/
  root? : Option String := none
  /-- A file that takes precedence over that of the settings. -/
  outFile? : Option String := none
  /-- Print the output, whatever file there is for it. -/
  toOutput : Bool := false
  deriving DecidableEq

/-- What the command line is asked to do. -/
inductive Command where
  /-- List the members of the index, or those of the given kinds. -/
  | list (root? : Option String) (kinds : List String)
  /-- Print the adjusted definition of one compound or member. -/
  | adjust (root? : Option String) (target : String)
  /-- Render definitions. -/
  | render (request : RenderRequest)
  deriving DecidableEq

/-- Why a command fails. -/
inductive CommandError where
  | settings (cause : SettingsError)
  | noDirectory (path : String)
  /-- There is no index to be read in this directory. -/
  | noIndex (directory : String) (cause : IndexError)
  | unknownTarget (target : String)
  | definition (cause : IndexError)
  | pass (cause : PassError)
  | unwritable (path : String) (cause : FileError)
  /-- So many definitions could not be rendered. -/
  | unrendered (count : Nat)
  deriving DecidableEq

namespace CommandError

/-- The wordings from the failure to its innermost cause. -/
def causes : CommandError → List String
  | settings cause => [cause.message]
  | noDirectory path => ["Doxygen XML directory does not exist: " ++ path]
  | noIndex directory cause => ("Cannot load the Doxygen index in " ++ directory) :: cause.causes
  | unknownTarget target => ["No compound or member named " ++ Text.quoted target]
  | definition cause => cause.causes
  | pass cause => cause.causes
  | unwritable path cause => ["Cannot write " ++ path ++ ": " ++ cause.message]
  | unrendered count => [toString count ++ " members failed to render"]

/-- The wording of a failure, without its causes. -/
def message (e : CommandError) : String :=
  e.causes.headD ""

/-- How a failure ends the log. -/
def report (e : CommandError) : String :=
  "\nError: " ++ ": ".intercalate e.causes ++ "\n\n"

end CommandError

/-- What has been printed. -/
structure Transcript where
  /-- What went to the standard output. -/
  output : String := ""
  /-- What went to the standard error. -/
  log : String := ""
  deriving DecidableEq

/-- What comes of a command. -/
structure Outcome extends Transcript where
  exitCode : Nat
  deriving DecidableEq

/-- A command under way, with the files that `m` gives access to. -/
abbrev Run (m : Type → Type) := ExceptT CommandError (StateT Transcript m)

namespace Run

variable {m : Type → Type} [Monad m]

/-- Print to the standard output. -/
def print (text : String) : Run m Unit :=
  modifyThe Transcript fun t => { t with output := t.output ++ text }

/-- Print a line to the standard error. -/
def log (line : String) : Run m Unit :=
  modifyThe Transcript fun t => { t with log := t.log ++ line ++ "\n" }

/-- Work with files, where a failure of theirs is one of the command. -/
def lift {ε α : Type} (failure : ε → CommandError) (work : ExceptT ε m α) : Run m α := do
  match ← (work.run : m (Except ε α)) with
  | .ok result => return result
  | .error cause => throw (failure cause)

/-- What comes of a command. -/
def outcome (work : Run m Unit) : m Outcome := do
  let (result, transcript) ← (work.run).run {}
  match result with
  | .ok () => return { transcript with exitCode := 0 }
  | .error e => return { transcript with log := transcript.log ++ e.report, exitCode := 1 }

end Run

end DoxygenRest
