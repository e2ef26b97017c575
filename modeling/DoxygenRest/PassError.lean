import DoxygenRest.Tree.Edit

/-!
# Why a pass over a document fails

A pass edits or renders a document by rules.  It fails if the document has a shape the rules do
not know, if a rule asks its cursor or its engine for something impossible, or if the pass comes to
no end.
-/

namespace DoxygenRest

/-- Why a pass over a document fails. -/
inductive PassError where
  /-- An element where the rules allow none of its kind. -/
  | unexpected (tag context : String)
  /-- An element without a child it must have. -/
  | missing (tag context : String)
  /-- An operation that is impossible on the element with this tag. -/
  | misuse (operation tag reason : String)
  /-- A place in the list of rules given by a rule that is not there. -/
  | unknownRule (name : String)
  /-- A path query that cannot be read. -/
  | badQuery (query reason : String)
  /-- The pass was stopped after so many steps, on the element with this tag. -/
  | noProgress (steps : Nat) (tag : String)
  /-- The tree refused an edit. -/
  | edit (cause : EditError)
  deriving DecidableEq

namespace PassError

/-- The wording of a failure. -/
def message : PassError → String
  | unexpected tag context => "Can't handle <" ++ tag ++ "> inside <" ++ context ++ ">"
  | missing tag context => "Missing <" ++ tag ++ "> in <" ++ context ++ ">"
  | misuse operation tag reason => "Cannot " ++ operation ++ " <" ++ tag ++ ">: " ++ reason
  | unknownRule name => "No rule named '" ++ name ++ "'"
  | badQuery query reason => "Invalid path query '" ++ query ++ "': " ++ reason
  | noProgress steps tag =>
    "Mutation pass made no progress after " ++ toString steps ++ " steps (on <" ++ tag ++ ">)"
  | edit cause => "Tree error: " ++ cause.message

/-- The wordings from the failure to its innermost cause. -/
def causes (e : PassError) : List String :=
  e.message :: match e with
    | edit cause => [cause.message]
    | _ => []

end PassError

end DoxygenRest
