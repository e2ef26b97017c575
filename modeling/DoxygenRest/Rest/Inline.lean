import DoxygenRest.Reference
import DoxygenRest.Renderer
import DoxygenRest.Rest.Layout
import DoxygenRest.Rest.Span

/-!
# Rendering inline markup

The renderings of elements that run along in a line of text.  Each gives the element's own text in
its written form, followed by the element's tail as running text.
-/

namespace DoxygenRest.Rest

/-- The role that refers to a target of this kind, if there is one. -/
def roleOf? : TargetKind → Option String
  | .function => some "c:func"
  | .define => some "c:macro"
  | .typedef => some "c:type"
  | .struct => some "c:struct"
  | .union => some "c:union"
  | .enum => some "c:enum"
  | .enumerator => some "c:enumerator"
  | .var => some "c:var"
  | .other => none

/-- Whether a reference shows the name of its target; a function may have its parentheses. -/
def showsName (text : String) (target : Target) : Bool :=
  text == target.name || (target.kind == .function && text == target.name ++ "()")

/-- A reference to a target by its role.  The name of the target stands in angle brackets, unless the
reference shows it. -/
def reference (role text : String) (target : Target) (tail before : String) : String :=
  let inner :=
    if showsName text target then escape text
    else escape text ++ " <" ++ escape target.name ++ ">"
  wrap (":" ++ role ++ ":`") inner "`" tail before

/-- A reference whose target has no role, or is not known. -/
def unresolvedReference (t : Tree) : Render := fun n before =>
  .ok (Span.unresolved.render (t.stringValue n) (t.tail n) before)

/-- A reference within the documentation. -/
def renderReference (index : Resolver) (t : Tree) : Render := fun n before =>
  match (t.attribute? n "refid").bind index with
  | none => unresolvedReference t n before
  | some target =>
    match roleOf? target.kind with
    | none => unresolvedReference t n before
    | some role => .ok (reference role (t.stringValue n) target (t.tail n) before)

/-- A link to a place outside of the documentation. -/
def renderLink (t : Tree) : Render := fun n before =>
  let inner := escape (t.stringValue n) ++ " <" ++ (t.attribute? n "url").getD "" ++ ">"
  .ok (wrap "`" inner "`_" (t.tail n) before)

/-- An element whose text is one span. -/
def renderSpan (span : Span) (t : Tree) : Render := fun n before =>
  .ok (span.render (t.stringValue n) (t.tail n) before)

/-- A formula in a line of text. -/
def renderInlineFormula (t : Tree) : Render := fun n before =>
  .ok (Span.math.render (stripDollars (t.text n)) (t.tail n) before)

/-- A formula in a block of its own.  The block ends before the formula's tail. -/
def renderDisplayFormula (t : Tree) : Render := fun n _ =>
  .ok (".. math::\n" ++ String.ofList (blanks directiveIndent) ++ ":nowrap:\n\n" ++
    indent (Text.trim (t.text n)) directiveIndent ++ "\n\n" ++ escape (Text.trimStart (t.tail n)))

/-- A break between two lines of text. -/
def renderLinebreak (t : Tree) : Render := fun n _ =>
  .ok ("\n" ++ escape (t.tail n))

/-- Inline markup that has no written form of its own. -/
def renderPlain (t : Tree) : Render := fun n _ =>
  .ok (escape (t.stringValue n) ++ escape (t.tail n))

end DoxygenRest.Rest
