import DoxygenRest.PassError
import DoxygenRest.Query.Parser
import DoxygenRest.Text.Quoted

/-!
# Rules

A rule says for which elements it is meant, by tag, by surroundings and by guards, and carries what
is to be done with them.  Rules stand in a list, and an element is handled by the first rule of the
list that accepts it (`dispatch`).
-/

namespace DoxygenRest

/-- A test on an element: a function, or a query that has to select something. -/
inductive Guard where
  | predicate (test : Tree → NodeId → Bool)
  | query (q : Query)

/-- Whether an element passes a guard. -/
def Guard.holds (t : Tree) (n : NodeId) : Guard → Bool
  | predicate test => test t n
  | query q => q.holds t n

/-- A guard given as the text of a query. -/
def Guard.ofQuery (source : String) : Except PassError Guard :=
  match Query.parse source with
  | .ok q => .ok (query q)
  | .error fault => .error (.badQuery source fault.message)

/-- A rule, with what it does as a value of type `α`. -/
structure Rule (α : Type) where
  name : String
  action : α
  /-- The tags it accepts; all if absent. -/
  tags : Option (List String) := none
  /-- The surroundings it accepts, each given by tags of ancestors, nearest first; all if absent. -/
  within : Option (List (List String)) := none
  /-- A test that has to succeed. -/
  requires : Option Guard := none
  /-- A test that has to fail. -/
  excludes : Option Guard := none

/-- Read a surrounding: tags with slashes between them. -/
def surrounding (pattern : String) : List String :=
  (pattern.toList.splitOn '/').map String.ofList

/-- Whether the tags of a pattern are found in this order among the tags of ancestors, with others
between them allowed. -/
def isFoundIn : (pattern : List String) → (ancestorTags : List String) → Bool
  | [], _ => true
  | _ :: _, [] => false
  | name :: pattern, tag :: rest =>
    if tag = name then isFoundIn pattern rest else isFoundIn (name :: pattern) rest

namespace Rule

variable {α : Type}

/-- Whether a rule accepts an element: by all the criteria it has. -/
def accepts (r : Rule α) (t : Tree) (n : NodeId) : Bool :=
  r.tags.all (fun tags => tags.contains (t.tag n)) &&
    r.within.all (fun patterns => patterns.any fun pattern =>
      isFoundIn pattern ((t.ancestors n).map t.tag)) &&
    r.requires.all (fun guard => guard.holds t n) &&
    r.excludes.all (fun guard => !guard.holds t n)

end Rule

/-! ### Lists of rules -/

/-- Where a rule is added to a list. -/
inductive Position where
  | last
  | first
  /-- Right in front of the first rule of this name. -/
  | before (name : String)
  deriving DecidableEq

namespace Rule

variable {α : Type}

/-- Add a rule to a list. -/
def addTo (rules : List (Rule α)) (r : Rule α) : Position → Except PassError (List (Rule α))
  | .last => .ok (rules ++ [r])
  | .first => .ok (r :: rules)
  | .before name =>
    match rules.findIdx? fun other => other.name == name with
    | some index => .ok (rules.insertIdx index r)
    | none => .error (.unknownRule name)

/-- The first rule of a list that accepts an element. -/
def dispatch (rules : List (Rule α)) (t : Tree) (n : NodeId) : Option (Rule α) :=
  rules.find? fun r => r.accepts t n

/-! ### How rules are shown -/

/-- A list in brackets, given the texts of its items. -/
def showList (items : List String) : String :=
  "[" ++ String.intercalate ", " items ++ "]"

/-- A value that may be absent, given its text. -/
def showOption (item : Option String) : String :=
  match item with
  | none => "None"
  | some text => "Some(" ++ text ++ ")"

/-- A guard; of a function nothing can be shown. -/
def showGuard : Guard → String
  | .predicate _ => "Guard::Predicate(..)"
  | .query q => "Guard::Query(" ++ Text.quoted q.source ++ ")"

/-- All of a rule but its action. -/
def display (r : Rule α) : String :=
  let names (tags : List String) : String := showList (tags.map Text.quoted)
  "Rule \x7b name: " ++ Text.quoted r.name ++ ", tags: " ++ showOption (r.tags.map names) ++
    ", within: " ++ showOption (r.within.map fun patterns => showList (patterns.map names)) ++
    ", when: " ++ showOption (r.requires.map showGuard) ++
    ", unless: " ++ showOption (r.excludes.map showGuard) ++ " \x7d"

end Rule

/-- How a query is shown. -/
def Query.display (q : Query) : String :=
  "PathQuery(" ++ Text.quoted q.source ++ ")"

end DoxygenRest
