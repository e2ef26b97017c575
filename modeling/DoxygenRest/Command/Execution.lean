import DoxygenRest.Adjust
import DoxygenRest.Command.Arguments
import DoxygenRest.Document
import DoxygenRest.Xml.Writer

/-!
# Executing commands

Every command starts from the settings of its directory and from an index.  Rendering goes on after
a definition that fails: what can be rendered is put out, and the command fails in the end.
-/

namespace DoxygenRest

namespace Command

variable {m : Type → Type} [Monad m] [Files m]

/-- Read the index, from a given directory or from that of the settings. -/
def openIndex (settings : Settings) (directory : String) (root? : Option String) :
    Run m Index := do
  let root := root?.getD (Files.join directory settings.doxygenRoot)
  if !(← (Files.isDirectory root : m Bool)) then throw (.noDirectory root)
  Run.lift (.noIndex root) (Index.load root)

/-- The listing that a target means. -/
def find (index : Index) (target : String) : Run m NodeId :=
  match index.lookup? target with
  | some n => pure n
  | none => throw (.unknownTarget target)

/-- Fill a text up with spaces. -/
def padTo (width : Nat) (text : String) : String :=
  text ++ String.ofList (List.replicate (width - text.length) ' ')

/-- How a member is listed. -/
def memberLine (index : Index) (n : NodeId) : String :=
  "  " ++ padTo 10 (index.kind n) ++ " " ++ padTo 30 (index.name n) ++ " " ++ index.refid n ++ "\n"

/-- List the members of an index, or those of the given kinds, under their compounds. -/
def listMembers (index : Index) (kinds : List String) : Run m Unit := do
  let listed := index.compounds.map fun compound =>
    (compound, (index.members compound).filter fun n => kinds.isEmpty || kinds.contains (index.kind n))
  for (compound, members) in listed do
    if !members.isEmpty then
      Run.print (index.kind compound ++ " " ++ index.name compound ++ "\n")
      for n in members do
        Run.print (memberLine index n)
  Run.log ""
  Run.log ("Found " ++ toString (listed.foldr (fun item count => item.2.length + count) 0) ++ " members")

/-- Print the adjusted definition behind a listing. -/
def printAdjusted (index : Index) (n : NodeId) : Run m Unit := do
  let definition ← Run.lift .definition (index.definition n)
  match Adjust.adjust definition.node definition.document with
  | .ok _ document => Run.print (document.toXml definition.node ++ "\n")
  | .error cause _ => throw (.pass cause)

/-- Render the definition behind a listing. -/
def renderListing (index : Index) (n : NodeId) : Run m String := do
  let definition ← Run.lift .definition (index.definition n)
  match convert index.resolver definition.node definition.document with
  | .ok text _ => return text
  | .error cause _ => throw (.pass cause)

/-- Render listings in turn and log how each went.  The answer holds the text and the numbers of
successes and failures. -/
def renderListings (index : Index) : List NodeId → Run m (String × Nat × Nat)
  | [] => return ("", 0, 0)
  | n :: ns => do
    let shown := index.kind n ++ " " ++ index.name n
    try
      let text ← renderListing index n
      Run.log ("  ✓ " ++ shown)
      let (texts, rendered, failed) ← renderListings index ns
      return (text ++ texts, rendered + 1, failed)
    catch e =>
      Run.log ("  ✗ " ++ shown ++ " - " ++ e.message)
      let (texts, rendered, failed) ← renderListings index ns
      return (texts, rendered, failed + 1)

/-- The listings to render. -/
def selection (settings : Settings) (index : Index) (request : RenderRequest) :
    Run m (List NodeId) :=
  if request.targets.isEmpty then
    pure (index.membersOfKinds (if request.kinds.isEmpty then settings.kinds else request.kinds))
  else request.targets.mapM (find index)

/-- The file for the output. -/
def outPath? (settings : Settings) (directory : String) (request : RenderRequest) :
    Option String :=
  if request.toOutput then none
  else request.outFile? <|> settings.outFile?.map (Files.join directory)

/-- Render definitions and put the text out. -/
def renderAll (settings : Settings) (directory : String) (index : Index)
    (request : RenderRequest) : Run m Unit := do
  let listings ← selection settings index request
  Run.log "Rendering Doxygen members..."
  if listings.isEmpty then Run.log "No members found"
  else
    let (text, rendered, failed) ← renderListings index listings
    match outPath? settings directory request with
    | some path => Run.lift (.unwritable path) (Files.writeText path text)
    | none => Run.print text
    Run.log ""
    if failed = 0 then Run.log ("✅ Rendered " ++ toString rendered ++ " members")
    else
      Run.log ("⚠️ Rendered " ++ toString rendered ++ " members, " ++ toString failed ++ " errors")
      throw (.unrendered failed)

/-- Do what a command asks for. -/
def perform (directory : String) (command : Command) : Run m Unit := do
  let settings ← Run.lift .settings (Settings.load directory)
  match command with
  | .list root? kinds => listMembers (← openIndex settings directory root?) kinds
  | .adjust root? target => do
    let index ← openIndex settings directory root?
    printAdjusted index (← find index target)
  | .render request => do
    let index ← openIndex settings directory request.root?
    renderAll settings directory index request

/-- Execute a command line in a working directory.  A line that asks for nothing that can be done
has an exit code of its own. -/
def executeLine (directory : String) (arguments : List String) : m Outcome :=
  match ofArguments arguments with
  | .ok command => (perform directory command).outcome
  | .error e => pure { log := "error: " ++ e.message ++ "\n", exitCode := 2 }

end Command

end DoxygenRest
