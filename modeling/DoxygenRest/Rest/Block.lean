import DoxygenRest.Renderer
import DoxygenRest.Rest.Escape
import DoxygenRest.Rest.Layout
import DoxygenRest.Schema

/-!
# Rendering blocks

The renderings of paragraphs, sections and lists.  A block other than a paragraph or a description
ends with a blank line.  What a block does not allow among its children is an error.
-/

namespace DoxygenRest.Rest

variable (render : Render) (t : Tree)

/-- The first child of a given tag. -/
def child? (n : NodeId) (tag : String) : Option NodeId :=
  (t.children n).find? fun child => t.tag child == tag

/-- The text of the first child of a given tag, which must be there. -/
def field (n : NodeId) (tag : String) : Except PassError String :=
  match child? t n tag with
  | some child => .ok (t.stringValue child)
  | none => .error (.missing tag (t.tag n))

/-- The tag of an element's parent, empty if it has none. -/
def parentTag (n : NodeId) : String :=
  ((t.parent? n).map t.tag).getD ""

/-- Whether a text that is not empty goes on in its last line. -/
def isMidLine (text : String) : Bool :=
  text.toList.getLast?.any (· != '\n')

/-- Render the children of a paragraph behind the text `out`; a block starts on a line of its own,
with a blank line before it. -/
def renderContent : List NodeId → (out : String) → Except PassError String
  | [], out => .ok out
  | child :: rest, out => do
    let out := if Schema.isStructural t child && isMidLine out then out ++ "\n\n" else out
    let rendered ← render child out
    renderContent rest (out ++ rendered)

/-- A paragraph.  Blanks in front of its first word would indent it and are left out. -/
def renderPara : Render := fun n _ =>
  renderContent render t (t.children n) (escape (Text.trimStart (t.text n)))

/-- The texts of paragraphs, without those that are blank.  Nothing but paragraphs may stand in
`owner` here. -/
def paragraphs (owner : NodeId) : List NodeId → Except PassError (List String)
  | [] => .ok []
  | child :: rest => do
    if t.tag child ≠ "para" then throw (.unexpected (t.tag child) (t.tag owner))
    let rendered ← render child ""
    let others ← paragraphs owner rest
    pure (if Text.isBlank rendered then others else Text.trimEnd rendered :: others)

/-- A description: its paragraphs, with blank lines between them. -/
def renderDescription : Render := fun n _ =>
  (paragraphs render t n (t.children n)).map joinParagraphs

/-! ### Sections -/

/-- The body of a section: its paragraphs.  Titles do not belong to it. -/
def sectionBody (n : NodeId) : Except PassError String :=
  (paragraphs render t n ((t.children n).filter fun child => t.tag child != "title")).map
    joinParagraphs

/-- A section without a written form of its own. -/
def renderSection : Render := fun n _ => do
  pure ((← sectionBody render t n) ++ "\n\n")

/-- A section as the body of a directive. -/
def renderDirective (header : String) : Render := fun n _ => do
  pure (directive header (← sectionBody render t n))

/-- A section as an admonition named for its kind. -/
def renderAdmonition : Render := fun n before =>
  renderDirective render t (".. " ++ (t.attribute? n "kind").getD "note" ++ "::") n before

/-- A section as an admonition with the section's title. -/
def renderTitled : Render := fun n before => do
  let title ← field t n "title"
  renderDirective render t (".. admonition:: " ++ Text.trim title) n before

/-- A field list item: a marker with its body, which is indented as far as the marker is wide in
bytes. -/
def fieldItem (marker body : String) : String :=
  marker ++ Text.trim (indent body marker.utf8ByteSize)

/-- A section on the value returned by a function. -/
def renderReturn : Render := fun n _ => do
  pure (fieldItem ":return: " (← sectionBody render t n) ++ "\n\n")

/-! ### Lists -/

/-- The name of the fields of a parameter list of a given kind. -/
def fieldName? (kind : String) : Option String :=
  if kind = "param" then some "param"
  else if kind = "retval" then some "retval"
  else if kind = "exception" then some "raises"
  else none

/-- The fields for one item of a parameter list: each of its names with the description they
share. -/
def parameterFields (fieldName : String) (item : NodeId) : Except PassError (List String) := do
  match child? t item "parameternamelist", child? t item "parameterdescription" with
  | none, _ => throw (.missing "parameternamelist" "parameteritem")
  | _, none => throw (.missing "parameterdescription" "parameteritem")
  | some names, some description =>
    let rendered ← render description ""
    pure (((t.children names).filter fun name => t.tag name == "parametername").map fun name =>
      Text.trimEnd
        (fieldItem (":" ++ fieldName ++ " " ++ Text.trim (t.stringValue name) ++ ": ") rendered))

/-- The fields for the items of a parameter list. -/
def parameterItems (fieldName : String) (owner : NodeId) :
    List NodeId → Except PassError (List String)
  | [] => .ok []
  | item :: rest => do
    if t.tag item ≠ "parameteritem" then throw (.unexpected (t.tag item) (t.tag owner))
    let fields ← parameterFields render t fieldName item
    let others ← parameterItems fieldName owner rest
    pure (fields ++ others)

/-- A list of parameters, return values or exceptions. -/
def renderParameterList : Render := fun n _ => do
  let kind := (t.attribute? n "kind").getD ""
  match fieldName? kind with
  | none => throw (.unexpected ("parameterlist kind=\"" ++ kind ++ "\"") (parentTag t n))
  | some fieldName =>
    let fields ← parameterItems render t fieldName n (t.children n)
    pure ("\n".intercalate fields ++ "\n\n")

/-- The items of a list, each behind a bullet. -/
def listItems (bullet : String) (owner : NodeId) : List NodeId → Except PassError (List String)
  | [] => .ok []
  | item :: rest => do
    if t.tag item ≠ "listitem" then throw (.unexpected (t.tag item) (t.tag owner))
    let body ← (paragraphs render t item (t.children item)).map joinParagraphs
    let others ← listItems bullet owner rest
    pure ((bullet ++ Text.trimStart (indent body bullet.utf8ByteSize)) :: others)

/-- A list. -/
def renderList (bullet : String) : Render := fun n _ => do
  let items ← listItems render t bullet n (t.children n)
  pure ("\n".intercalate items ++ "\n\n")

/-- A listing of source code, line by line. -/
def renderListing : Render := fun n _ =>
  let lines := ((t.children n).filter fun line => t.tag line == "codeline").map t.stringValue
  .ok (directive ".. code-block:: c" ("\n".intercalate lines))

end DoxygenRest.Rest
