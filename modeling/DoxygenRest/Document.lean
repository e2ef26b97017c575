import DoxygenRest.Adjust
import DoxygenRest.Rest.Recipe

/-!
# From documentation to reStructuredText

The whole way of an element: adjust its subtree, then render it.
-/

namespace DoxygenRest

/-- Adjust the subtree at `n` and render it.  A failure leaves the subtree adjusted as far as it
came. -/
def convert (index : Resolver) (n : NodeId) : EStateM PassError Tree String := do
  Adjust.adjust n
  match Rest.render index (← get) n "" with
  | .ok text => pure text
  | .error failure => throw failure

end DoxygenRest
