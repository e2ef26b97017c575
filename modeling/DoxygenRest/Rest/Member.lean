import DoxygenRest.Rest.Block

/-!
# Rendering members

A documented function, type, macro or variable is a directive with its signature, and its
descriptions are the body of the directive.
-/

namespace DoxygenRest.Rest

variable (render : Render) (t : Tree)

/-- The descriptions of a member, in the order in which they are shown. -/
def memberDescriptions : List String :=
  ["briefdescription", "detaileddescription", "inbodydescription"]

/-- The listed descriptions of a member, indented, without those that are missing or blank. -/
def memberBody (n : NodeId) : (descriptions : List String) → Except PassError String
  | [] => .ok ""
  | tag :: rest =>
    match child? t n tag with
    | none => memberBody n rest
    | some description => do
      let rendered ← render description ""
      let others ← memberBody n rest
      if Text.isBlank rendered then pure others
      else pure (indent (Text.trimEnd rendered) directiveIndent ++ "\n\n" ++ others)

/-- A member as a directive of a given name. -/
def renderMember (name signature : String) (n : NodeId) : Except PassError String := do
  let body ← memberBody render t n memberDescriptions
  pure (".. " ++ name ++ ":: " ++ signature ++ "\n\n" ++ body)

/-- A function. -/
def renderFunction : Render := fun n _ => do
  let definition ← field t n "definition"
  let arguments ← field t n "argsstring"
  renderMember render t "c:function" (definition ++ arguments) n

/-- A member declared by a type and a name. -/
def renderDeclaration (name : String) : Render := fun n _ => do
  let type ← field t n "type"
  let declared ← field t n "name"
  renderMember render t name (Text.trim (type ++ " " ++ declared)) n

/-- A macro, with its parameters if it has any. -/
def renderMacro : Render := fun n _ => do
  let name ← field t n "name"
  let params := ((t.children n).filter fun param => t.tag param == "param").map fun param =>
    Text.trim (t.stringValue param)
  let signature := if params.isEmpty then name else name ++ "(" ++ ", ".intercalate params ++ ")"
  renderMember render t "c:macro" signature n

/-- A member of a kind without a written form. -/
def refuseMember : Render := fun n _ =>
  .error (.unexpected ("memberdef kind=\"" ++ (t.attribute? n "kind").getD "" ++ "\"")
    (parentTag t n))

end DoxygenRest.Rest
