import DoxygenRest.Files.Basic
import DoxygenRest.Json.Value

/-!
# Settings

The settings of the command line are kept in a file of the working directory: where the index is,
which kinds of members are rendered, and where the output goes.  The file holds a JSON object with
a member for each setting, or a list of the settings in their order.  A setting that is left out
has its default value, and so have all if there is no file.
-/

namespace DoxygenRest

/-- The settings of the command line. -/
structure Settings where
  /-- The directory of the index. -/
  doxygenRoot : String := "xml"
  /-- The kinds of members to render. -/
  kinds : List String := ["function", "typedef", "define"]
  /-- The file for the output, which is printed if there is none. -/
  outFile? : Option String := none
  deriving DecidableEq

/-- Why there are no settings. -/
inductive SettingsError where
  | file (cause : FileError)
  /-- A fault in the text of the file. -/
  | content (text : String) (fault : Json.Fault)
  deriving DecidableEq

/-- The wording of a settings error. -/
def SettingsError.message : SettingsError → String
  | file cause => cause.message
  | content text fault => fault.message text

namespace Settings

/-- The name of the settings file. -/
def fileName : String := "aerate.config.json"

open Json (Read)

/-! ### Reading settings -/

/-- The settings that have been read so far. -/
structure Partial where
  doxygenRoot? : Option String := none
  kinds? : Option (List String) := none
  outFile? : Option (Option String) := none

/-- The settings with defaults for what has not been read. -/
def Partial.complete (read : Partial) : Settings :=
  let default : Settings := {}
  { doxygenRoot := read.doxygenRoot?.getD default.doxygenRoot
    kinds := read.kinds?.getD default.kinds
    outFile? := read.outFile?.getD default.outFile? }

/-- Read a value behind its key, unless there is one already. -/
def member {α : Type} (key : String) (known : Option α) (value : Read α) : Read (Option α) := do
  if known.isSome then Json.refuseRepeated key
  Json.colon
  some <$> value

/-- Read the value of a member and keep it if it is a setting. -/
def keep (read : Partial) (key : String) : Read Partial := do
  match key with
  | "doxygenRoot" => return { read with doxygenRoot? := ← member key read.doxygenRoot? Json.text }
  | "kinds" => return { read with kinds? := ← member key read.kinds? (Json.listOf Json.text) }
  | "outFile" => return { read with outFile? := ← member key read.outFile? (Json.optional Json.text) }
  | _ =>
    Json.colon
    Json.skip
    return read

/-- Read settings from the members of an object whose brace has been taken. -/
def fromMembers : Read Settings := do
  let read ← Json.repeatUntil (fun (first, read) => do
    match ← Json.nextKey first with
    | some key => return .inl (false, ← keep read key)
    | none => return .inr read) (true, {})
  Json.advance
  return read.complete

/-- Read the next item of a list, if there is one. -/
def item {α : Type} (first : Bool) (value : Read α) : Read (Option α) := do
  if ← Json.nextItem first then some <$> value else return none

/-- Read settings from the items of a list whose bracket has been taken. -/
def fromItems : Read Settings := do
  let doxygenRoot? ← item true Json.text
  let kinds? ← item false (Json.listOf Json.text)
  let outFile? ← item false (Json.optional Json.text)
  Json.endList
  return Partial.complete { doxygenRoot?, kinds?, outFile? }

/-- Read settings. -/
def reader : Read Settings := do
  let settings ← match ← Json.peekValue with
    | '\x7b' => do
      Json.advance
      fromMembers
    | '[' => do
      Json.advance
      fromItems
    | _ => Json.refuse "struct Config"
  Json.endText
  return settings

/-- The settings that a text holds. -/
def parse (text : String) : Except Json.Fault Settings :=
  match reader ⟨text.toList, 0⟩ with
  | .ok settings _ => .ok settings
  | .error fault _ => .error fault

/-! ### Loading settings -/

/-- The settings of a directory. -/
def load {m : Type → Type} [Monad m] [Files m] (directory : String) :
    ExceptT SettingsError m Settings := do
  let path := Files.join directory fileName
  if !(← (Files.isPresent path : m Bool)) then return {}
  let text ← ExceptT.adapt .file (Files.readText path)
  match parse text with
  | .ok settings => return settings
  | .error fault => throw (.content text fault)

end Settings

end DoxygenRest
