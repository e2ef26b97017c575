/-!
# Files

What the command line needs of the place it runs in, as an interface: to ask whether a path leads
anywhere, and to read and write whole files.  Everything above this interface is pure in the monad
that provides it, so that a command behaves alike on a disk and in memory.

Paths are texts whose names are separated by slashes.  They are joined, never simplified: a path
in a message reads as its parts were given.
-/

namespace DoxygenRest

/-- Why a file cannot be read or written. -/
inductive FileError where
  | notFound
  /-- A name on the way is not a directory. -/
  | notDirectory
  | isDirectory
  | nameTooLong
  /-- The path holds a null character. -/
  | nullInPath
  /-- The bytes of the file are no text. -/
  | notText
  /-- Any other failure, in the words of whoever reported it. -/
  | other (description : String)
  deriving DecidableEq

/-- The wording of a file error. -/
def FileError.message : FileError → String
  | notFound => "No such file or directory (os error 2)"
  | notDirectory => "Not a directory (os error 20)"
  | isDirectory => "Is a directory (os error 21)"
  | nameTooLong => "File name too long (os error 36)"
  | nullInPath => "file name contained an unexpected NUL byte"
  | notText => "stream did not contain valid UTF-8"
  | other description => description

/-- A place with files, reached through the monad `m`. -/
class Files (m : Type → Type) where
  /-- Whether the path leads to a directory. -/
  isDirectory (path : String) : m Bool
  /-- Whether the path leads to anything. -/
  isPresent (path : String) : m Bool
  /-- The content of a file. -/
  readBytes (path : String) : m (Except FileError ByteArray)
  /-- Replace the content of a file, which is created if need be. -/
  writeBytes (path : String) (content : ByteArray) : m (Except FileError Unit)

namespace Files

/-- The content of a file as text. -/
def readText {m : Type → Type} [Monad m] [Files m] (path : String) : ExceptT FileError m String := do
  match String.fromUTF8? (← ExceptT.mk (readBytes path)) with
  | some text => return text
  | none => throw .notText

/-- Replace the content of a file by a text. -/
def writeText {m : Type → Type} [Files m] (path text : String) : ExceptT FileError m Unit :=
  ExceptT.mk (writeBytes path text.toUTF8)

/-- Whether a path starts at the root rather than at the working directory. -/
def isAbsolute (path : String) : Bool :=
  path.toList.head? == some '/'

/-- The path that leads to `path` from the directory `base`. -/
def join (base path : String) : String :=
  if isAbsolute path then path
  else if base = "" ∨ base.toList.getLast? = some '/' then base ++ path
  else base ++ "/" ++ path

end Files

end DoxygenRest
