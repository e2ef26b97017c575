import DoxygenRest.Rule
import DoxygenRest.Tree.Fragment

/-!
# Rendering passes

A renderer turns an element into text by the first rule that accepts it, and by a fallback where no
rule does.  A rule's action is given the rendering of elements as a function, for the elements below
its own, and the text that stands in front of the element on its line.

Actions render nothing but elements below their own, so that rendering is nested no deeper than the
tree.
-/

namespace DoxygenRest

/-- Renders an element, given the text in front of it. -/
abbrev Render := (n : NodeId) → (before : String) → Except PassError String

/-- A rendering pass. -/
structure Renderer where
  /-- The rules, in order of precedence. -/
  rules : List (Rule (Render → Tree → Render))
  /-- What stands for an element that no rule accepts. -/
  fallback : Tree → NodeId → String := Tree.stringValue

namespace Renderer

/-- Render an element, with actions nested at most `depth` deep. -/
def renderWithin (r : Renderer) (t : Tree) : (depth : Nat) → Render
  | 0, n, _ => .ok (r.fallback t n)
  | depth + 1, n, before =>
    match Rule.dispatch r.rules t n with
    | some rule => rule.action (r.renderWithin t depth) t n before
    | none => .ok (r.fallback t n)

/-- Render an element behind the text `before`. -/
def render (r : Renderer) (t : Tree) : Render :=
  r.renderWithin t (t.size + 1)

end Renderer

end DoxygenRest
