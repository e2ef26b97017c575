import DoxygenRest.Cursor.Edit
import DoxygenRest.Rule

/-!
# Editing passes

An editor walks a cursor over a subtree and hands each element it comes to, to the first rule that
accepts it.  The rule's action edits the tree and moves the cursor; where no rule applies the walk
goes on in document order.  The pass ends when the cursor leaves the subtree, and fails if it takes
more than `maxSteps` steps.

An editor runs in any monad that carries a cursor and can fail, so that its actions may keep a
record of their own; `Cursor.Edit` is the plainest of them.  An action is given the handling of the
current element as a whole, for use after it has changed something.
-/

namespace DoxygenRest

/-- An editing pass. -/
structure Editor (m : Type → Type) where
  /-- The rules, in order of precedence. -/
  rules : List (Rule (m Unit → m Unit))
  /-- The number of steps after which a pass is given up. -/
  maxSteps : Nat := 1000000

namespace Editor

variable {m : Type → Type} [Monad m] [MonadStateOf Cursor m] [MonadExceptOf PassError m]

/-- Run an edit of the cursor in a monad that carries one. -/
@[inline] def perform {α : Type} (edit : Cursor.Edit α) : m α := do
  match edit (← get) with
  | .ok a c =>
    set c
    pure a
  | .error failure c =>
    set c
    throw failure

/-- How deep the handling of elements may be nested by actions that ask for it again. -/
def nestingLimit : Nat := 10000

/-- The failure of a pass that was given up on the cursor's current element. -/
def givenUp (steps : Nat) (c : Cursor) : PassError :=
  .noProgress steps ((c.current.map c.tree.tag).getD "")

/-- Handle the current element, with actions nested at most `depth` deep. -/
@[specialize] def handleWithin (r : Editor m) : (depth : Nat) → m Unit
  | 0 => do throw (givenUp nestingLimit (← get))
  | depth + 1 => do
    let c : Cursor ← get
    match c.current with
    | none => pure ()
    | some n =>
      match Rule.dispatch r.rules c.tree n with
      | some rule => rule.action (r.handleWithin depth)
      | none => set c.advanceInto

/-- Handle the current element once: by the first rule that accepts it, or else by walking on. -/
@[inline] def handle (r : Editor m) : m Unit :=
  r.handleWithin nestingLimit

/-- Whether an element is left to handle.  A cursor outside of its subtree is stopped. -/
@[inline] def hasNext : m Bool := do
  let c : Cursor ← get
  match c.current with
  | none => pure false
  | some n =>
    if c.contains n then pure true
    else
      set c.stop
      pure false

/-- Handle elements until the cursor leaves its subtree, in at most `left` steps. -/
@[specialize] def runFor (r : Editor m) : (left : Nat) → m Unit
  | 0 => do
    if ← hasNext then throw (givenUp r.maxSteps (← get))
  | left + 1 => do
    if ← hasNext then
      r.handle
      r.runFor left

/-- Run the pass with a cursor that stands on the root of its subtree. -/
@[inline] def run (r : Editor m) : m Unit :=
  r.runFor r.maxSteps

end Editor

end DoxygenRest
