import DoxygenRest.Rest.Inline
import DoxygenRest.Rest.Member

/-!
# Rendering documentation

The rules that turn adjusted documentation into reStructuredText for the C domain of Sphinx, in order
of precedence.  Elements that no rule knows are rendered as their text.
-/

namespace DoxygenRest.Rest

/-- The query for an element with a given value of its attribute `kind`. -/
def ofKind (kind : String) : Query :=
  ⟨"@kind='" ++ kind ++ "'", .attribute "kind" (some kind)⟩

/-- The query for a reference that leaves the documentation. -/
def isExternal : Query :=
  ⟨"@external", .attribute "external" none⟩

/-- Whether a section is an admonition named for its kind. -/
def isAdmonition (t : Tree) (n : NodeId) : Bool :=
  ["attention", "note", "warning"].any fun kind => t.attribute? n "kind" == some kind

/-- A rule for members of a kind. -/
def memberRule (name kind : String) (action : Render → Tree → Render) :
    Rule (Render → Tree → Render) :=
  { name, action, tags := some ["memberdef"], requires := some (.query (ofKind kind)) }

/-- A rule for sections of a kind. -/
def sectionRule (name kind : String) (action : Render → Tree → Render) :
    Rule (Render → Tree → Render) :=
  { name, action, tags := some ["simplesect"], requires := some (.query (ofKind kind)) }

/-- A rule for all elements of a tag, which gives it its name. -/
def tagRule (tag : String) (action : Render → Tree → Render) : Rule (Render → Tree → Render) :=
  { name := tag, action, tags := some [tag] }

/-- The rules, in order of precedence, with `index` to resolve references. -/
def rules (index : Resolver) : List (Rule (Render → Tree → Render)) :=
  [memberRule "function" "function" renderFunction,
   memberRule "typedef" "typedef" fun render t => renderDeclaration render t "c:type",
   memberRule "define" "define" renderMacro,
   memberRule "variable" "variable" fun render t => renderDeclaration render t "c:var",
   { name := "unsupported_member", action := fun _ => refuseMember, tags := some ["memberdef"] },
   { name := "description", action := renderDescription, tags := some Schema.descriptionTags },
   sectionRule "return" "return" renderReturn,
   { name := "admonition", action := renderAdmonition
     tags := some ["simplesect"], requires := some (.predicate isAdmonition) },
   sectionRule "remark" "remark" fun render t =>
     renderDirective render t ".. admonition:: Remark",
   sectionRule "see" "see" fun render t => renderDirective render t ".. seealso::",
   sectionRule "par" "par" renderTitled,
   tagRule "simplesect" renderSection,
   tagRule "parameterlist" renderParameterList,
   tagRule "itemizedlist" fun render t => renderList render t "- ",
   tagRule "orderedlist" fun render t => renderList render t "#. ",
   tagRule "programlisting" fun _ => renderListing,
   { name := "external_ref", action := fun _ => unresolvedReference
     tags := some ["ref"], within := some [["para"]], requires := some (.query isExternal) },
   { name := "ref", action := fun _ => renderReference index
     tags := some ["ref"], within := some [["para"]] },
   tagRule "ulink" fun _ => renderLink,
   tagRule "bold" fun _ => renderSpan .bold,
   tagRule "emphasis" fun _ => renderSpan .emphasis,
   tagRule "computeroutput" fun _ => renderSpan .literal,
   tagRule "subscript" fun _ => renderSpan .subscript,
   tagRule "superscript" fun _ => renderSpan .superscript,
   { name := "display_formula", action := fun _ => renderDisplayFormula
     tags := some ["formula"], requires := some (.predicate Schema.isStructural) },
   { name := "inline_formula", action := fun _ => renderInlineFormula, tags := some ["formula"] },
   tagRule "linebreak" fun _ => renderLinebreak,
   { name := "inline", action := fun _ => renderPlain
     requires := some (.predicate Schema.isInline) },
   tagRule "para" renderPara]

/-- The renderer, with `index` to resolve references. -/
def renderer (index : Resolver) : Renderer where
  rules := rules index
  fallback := fun t n => escape (t.stringValue n)

/-- Render an element behind the text `before`. -/
def render (index : Resolver) (t : Tree) (n : NodeId) (before : String) :
    Except PassError String :=
  (renderer index).render t n before

end DoxygenRest.Rest
